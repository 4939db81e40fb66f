/-!
# Numerals

Reading numbers from text.  An integer numeral is an optional sign and digits, and nothing else;
its value has to fit a 128-bit signed word.  A decimal numeral is an optional sign, then digits
with an optional point and an optional exponent, or one of the words for infinity and for what is
not a number, in any case.
-/

namespace RecordStore.Numeral

/-- The value of a decimal digit. -/
def digit? (c : Char) : Option Nat :=
  if '0' ≤ c ∧ c ≤ '9' then some (c.toNat - '0'.toNat) else none

/-- Whether a character is a decimal digit. -/
def isDigit (c : Char) : Bool := (digit? c).isSome

/-- The value of a run of digits after a value read before it. -/
def digitsFrom (acc : Nat) : List Char → Option Nat
  | [] => some acc
  | c :: rest =>
      match digit? c with
      | some d => digitsFrom (10 * acc + d) rest
      | none => none

/-- The natural number that a nonempty run of digits stands for. -/
def natural? : List Char → Option Nat
  | [] => none
  | cs => digitsFrom 0 cs

/-- The value of a digit in a base up to 16; letters count in either case. -/
def digitIn? (base : Nat) (c : Char) : Option Nat :=
  let value : Option Nat :=
    if '0' ≤ c ∧ c ≤ '9' then some (c.toNat - '0'.toNat)
    else if 'a' ≤ c ∧ c ≤ 'f' then some (c.toNat - 'a'.toNat + 10)
    else if 'A' ≤ c ∧ c ≤ 'F' then some (c.toNat - 'A'.toNat + 10)
    else none
  value.filter fun d => d < base

/-- The natural number that a nonempty run of digits in a base stands for. -/
def naturalIn? (base : Nat) : List Char → Option Nat
  | [] => none
  | cs => cs.foldlM (fun acc c => (digitIn? base c).map fun d => base * acc + d) 0

/-- The sign in front of a numeral, and what follows it. -/
def signed : List Char → Bool × List Char
  | '-' :: rest => (true, rest)
  | '+' :: rest => (false, rest)
  | cs => (false, cs)

/-- The integers that a 128-bit signed word holds. -/
def fitsInt128 (i : Int) : Bool := -Int.pow 2 127 ≤ i ∧ i < Int.pow 2 127

/-- The integer that a text stands for, when a 128-bit signed word holds it. -/
def integer? (cs : List Char) : Option Int :=
  let (negative, digits) := signed cs
  match natural? digits with
  | none => none
  | some n =>
      let i : Int := if negative then -(n : Int) else n
      if fitsInt128 i then some i else none

/-! ## Doubles -/

/-- The double nearest to `mantissa · 10 ^ exponent`.  An exponent far outside the range of
    doubles decides the answer without the power being formed. -/
def nearest (mantissa : Nat) (exponent : Int) : Float :=
  let magnitude : Int := (Nat.toDigits 10 mantissa).length + exponent
  if mantissa = 0 then 0.0
  else if 400 < magnitude then 1.0 / 0.0
  else if magnitude < -400 then 0.0
  else Float.ofScientific mantissa (decide (exponent < 0)) exponent.natAbs

/-- The double nearest to an integer. -/
def doubleOfInt (i : Int) : Float :=
  if i < 0 then -(nearest i.natAbs 0) else nearest i.natAbs 0

/-- The exponent part of a decimal numeral: absent, or `e`, an optional sign and digits. -/
def exponent? : List Char → Option Int
  | [] => some 0
  | c :: rest =>
      if c = 'e' ∨ c = 'E' then
        let (negative, digits) := signed rest
        (natural? digits).map fun n => if negative then -(n : Int) else n
      else none

/-- The double that an unsigned decimal numeral stands for. -/
def magnitude? (cs : List Char) : Option Float :=
  let whole := cs.takeWhile isDigit
  let afterWhole := cs.dropWhile isDigit
  let (fraction, tail) := match afterWhole with
    | '.' :: rest => (rest.takeWhile isDigit, rest.dropWhile isDigit)
    | rest => ([], rest)
  match natural? (whole ++ fraction), exponent? tail with
  | some mantissa, some e => some (nearest mantissa (e - fraction.length))
  | _, _ => none

/-- The double that a text stands for. -/
def double? (cs : List Char) : Option Float :=
  let (negative, body) := signed cs
  let word := String.ofList (body.map Char.toLower)
  let magnitude :=
    if word = "inf" ∨ word = "infinity" then some (1.0 / 0.0)
    else if word = "nan" then some (0.0 / 0.0)
    else magnitude? body
  magnitude.map fun x => if negative then -x else x

end RecordStore.Numeral
