import RecordStore.Decimal.Numeral
import RecordStore.Value.Basic

/-!
# Scalars of a document

A scalar is a text, and whether it was quoted.  A quoted scalar is a string.  A plain one is what
its spelling says: null, a truth value, an integer, a double, and a string when it is none of
them.
-/

namespace RecordStore.Yaml

/-- A scalar of a document. -/
structure Scalar where
  text : String
  isPlain : Bool

namespace Scalar

/-- The scalar where nothing is written. -/
def empty : Scalar := ⟨"", true⟩

/-- Whether nothing is written; two quotes are something. -/
def isEmpty (scalar : Scalar) : Bool := scalar.isPlain && scalar.text.isEmpty

/-- Whether a scalar is null: nothing, or a word for it. -/
def isNull (scalar : Scalar) : Bool :=
  scalar.isPlain && ["", "null", "Null", "NULL", "~"].contains scalar.text

/-- The truth value that a scalar spells. -/
def bool? (scalar : Scalar) : Option Bool :=
  if !scalar.isPlain then none
  else if ["true", "True", "TRUE"].contains scalar.text then some true
  else if ["false", "False", "FALSE"].contains scalar.text then some false
  else none

/-- Whether a numeral has digits alone and a zero too many in front: such a text is a string. -/
def isPadded (digits : List Char) : Bool :=
  match digits with
  | '0' :: rest => !rest.isEmpty && rest.all Numeral.isDigit
  | _ => false

/-- The natural number of an unsigned integer numeral: decimal, or in the base that the letter
    after a zero names. -/
def natural? : List Char → Option Nat
  | '0' :: 'x' :: digits => Numeral.naturalIn? 16 digits
  | '0' :: 'o' :: digits => Numeral.naturalIn? 8 digits
  | '0' :: 'b' :: digits => Numeral.naturalIn? 2 digits
  | digits => if isPadded digits then none else Numeral.natural? digits

/-- The integer that a text spells, when a 128-bit word holds it: an unsigned word, or a signed
    one when it is negative. -/
def integer? (cs : List Char) : Option Int :=
  let (negative, body) := Numeral.signed cs
  (natural? body).bind fun n =>
    if negative then if n ≤ Nat.pow 2 127 then some (-(n : Int)) else none
    else if n < Nat.pow 2 128 then some n else none

/-- Whether a text is a word for what no finite double is. -/
def isUnbounded (text : String) : Bool :=
  [".inf", ".Inf", ".INF", "+.inf", "+.Inf", "+.INF", "-.inf", "-.Inf", "-.INF",
    ".nan", ".NaN", ".NAN"].contains text

/-- The value that is not an integer and that a plain scalar spells: what is not finite is null, a
    numeral is a double, and everything else, a numeral beyond the doubles too, is a string. -/
def nonIntegerValue (text : String) : Value :=
  if isUnbounded text then .null
  else
    let cs := text.toList
    match if isPadded (Numeral.signed cs).2 then none else Numeral.double? cs with
    | some x => if x.isFinite then .double x else .string text
    | none => .string text

/-- The value of a scalar; none for an integer that a 128-bit word holds and no 64-bit one. -/
def value? (scalar : Scalar) : Option Value :=
  if !scalar.isPlain then some (.string scalar.text)
  else if scalar.isNull then some .null
  else
    match scalar.bool? with
    | some b => some (.bool b)
    | none =>
        match integer? scalar.text.toList with
        | some i => if fitsInt64 i || fitsUInt64 i then some (.integer i) else none
        | none => some (nonIntegerValue scalar.text)

end Scalar

end RecordStore.Yaml
