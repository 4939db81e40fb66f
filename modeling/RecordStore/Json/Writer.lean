import RecordStore.Value.Basic
import RecordStore.Decimal.Shortest

/-!
# Writing JSON text

Integers are written plainly.  A finite double is written with the fewest digits that read back
to it, and always with a point or an exponent, so that its kind can be read back as well.
-/

namespace RecordStore.Json

/-- Doubles whose leading digit has a decimal exponent in this range are written positionally;
    the others with a signed exponent. -/
def positionalExponents : Int × Int := (-5, 15)

/-- The digits of a decimal around a point that stands after the first `count` of them. -/
def withPoint (count : Nat) (digits : List Char) : List Char :=
  let whole := digits.take count ++ List.replicate (count - digits.length) '0'
  let fraction := digits.drop count
  whole ++ '.' :: (if fraction.isEmpty then ['0'] else fraction)

/-- The text of the decimal `digits · 10 ^ exponent`. -/
def decimalText (digits : Nat) (exponent : Int) : List Char :=
  let ds := Nat.toDigits 10 digits
  let lead := exponent + ds.length - 1
  if positionalExponents.1 ≤ lead ∧ lead ≤ positionalExponents.2 then
    if 0 ≤ lead then withPoint (lead.toNat + 1) ds
    else '0' :: '.' :: (List.replicate (-lead - 1).toNat '0' ++ ds)
  else
    let mantissa := match ds with
      | [] => []
      | [d] => [d]
      | d :: rest => d :: '.' :: rest
    mantissa ++ 'e' :: (if lead < 0 then '-' else '+') :: Nat.toDigits 10 lead.natAbs

/-- The text of a double; what is not finite has the text of null. -/
def doubleText (x : Float) : String :=
  if x.isFinite then
    let negative := x.toBits.toNat ≥ Nat.pow 2 63
    let (m, q) := Decimal.binary x.toBits
    let magnitude :=
      if m = 0 then ['0', '.', '0']
      else
        let (digits, exponent) := Decimal.shortest m q
        decimalText digits exponent
    String.ofList (if negative then '-' :: magnitude else magnitude)
  else "null"

/-- A hexadecimal digit. -/
def hexDigit (n : Nat) : Char := Nat.digitChar (n % 16)

/-- The escaped form of a character inside quotes. -/
def escapeChar (c : Char) : List Char :=
  if c = '"' then ['\\', '"']
  else if c = '\\' then ['\\', '\\']
  else if c = '\x08' then ['\\', 'b']
  else if c = '\x0c' then ['\\', 'f']
  else if c = '\n' then ['\\', 'n']
  else if c = '\r' then ['\\', 'r']
  else if c = '\t' then ['\\', 't']
  else if c.toNat < 0x20 then ['\\', 'u', '0', '0', hexDigit (c.toNat / 16), hexDigit c.toNat]
  else [c]

/-- A text between quotes. -/
def quoted (s : String) : String :=
  String.ofList ('"' :: s.toList.flatMap escapeChar ++ ['"'])

mutual

/-- The JSON text of a value. -/
def render : Value → String
  | .null => "null"
  | .bool true => "true"
  | .bool false => "false"
  | .integer i => toString i
  | .double x => doubleText x
  | .string s => quoted s
  | .array items => "[" ++ ",".intercalate (renderItems items) ++ "]"
  | .object fields => "\x7b" ++ ",".intercalate (renderFields fields) ++ "\x7d"
termination_by structural v => v

/-- The texts of the items of a list. -/
def renderItems : List Value → List String
  | [] => []
  | v :: rest => render v :: renderItems rest
termination_by structural items => items

/-- The texts of the fields of an object. -/
def renderFields : List (String × Value) → List String
  | [] => []
  | (name, v) :: rest => (quoted name ++ ":" ++ render v) :: renderFields rest
termination_by structural fields => fields

end

end RecordStore.Json
