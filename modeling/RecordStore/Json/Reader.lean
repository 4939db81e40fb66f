import RecordStore.Value.Basic
import RecordStore.Decimal.Numeral

/-!
# Reading JSON text

A reader for JSON text that keeps the kind of every number: an integer numeral within the 64-bit
ranges is an integer, every other numeral is a double.  A negative zero is a double, and a
numeral beyond the doubles is refused.  Lists and objects may be nested 127 deep.

Every step takes fuel, one unit for each nested call; the length of the text plus one is enough.
-/

namespace RecordStore.Json

/-- The white space of JSON. -/
def isSpace (c : Char) : Bool := c = ' ' || c = '\t' || c = '\n' || c = '\r'

/-- A text without its leading white space. -/
def skipSpace (cs : List Char) : List Char := cs.dropWhile isSpace

/-! ## Numbers -/

/-- The value of an integer numeral. -/
def integerValue (negative : Bool) (n : Nat) : Option Value :=
  if negative then
    if n = 0 then some (.double (-0.0))
    else if n ≤ Nat.pow 2 63 then some (.integer (-(n : Int)))
    else finite (-(Numeral.nearest n 0))
  else if n < Nat.pow 2 64 then some (.integer n)
  else finite (Numeral.nearest n 0)
where
  /-- A double that is not infinite. -/
  finite (x : Float) : Option Value := if x.isFinite then some (.double x) else none

/-- The digits of the whole part: a zero alone, or digits that do not start with a zero. -/
def wholeDigits : List Char → Option (List Char × List Char)
  | '0' :: rest => some (['0'], rest)
  | cs =>
      let digits := cs.takeWhile Numeral.isDigit
      if digits.isEmpty then none else some (digits, cs.dropWhile Numeral.isDigit)

/-- The digits after a point, which must be there when the point is. -/
def fractionDigits : List Char → Option (List Char × List Char)
  | '.' :: rest =>
      let digits := rest.takeWhile Numeral.isDigit
      if digits.isEmpty then none else some (digits, rest.dropWhile Numeral.isDigit)
  | cs => some ([], cs)

/-- The exponent after an `e`, if there is one. -/
def exponentPart : List Char → Option (Option Int × List Char)
  | c :: rest =>
      if c = 'e' ∨ c = 'E' then
        let (negative, rest) := Numeral.signed rest
        (Numeral.natural? (rest.takeWhile Numeral.isDigit)).map fun n =>
          (some (if negative then -(n : Int) else n), rest.dropWhile Numeral.isDigit)
      else some (none, c :: rest)
  | [] => some (none, [])

/-- A number in front of a text. -/
def readNumber (cs : List Char) : Option (Value × List Char) := do
  let (negative, cs) := match cs with
    | '-' :: rest => (true, rest)
    | cs => (false, cs)
  let (whole, cs) ← wholeDigits cs
  let (fraction, cs) ← fractionDigits cs
  let (exponent, cs) ← exponentPart cs
  let mantissa ← Numeral.natural? (whole ++ fraction)
  if fraction.isEmpty ∧ exponent.isNone then
    (integerValue negative mantissa).map (·, cs)
  else
    let x := Numeral.nearest mantissa (exponent.getD 0 - fraction.length)
    if x.isFinite then some (.double (if negative then -x else x), cs) else none

/-! ## Strings -/

/-- The code unit of four hexadecimal digits in front of a text. -/
def codeUnit : List Char → Option (Nat × List Char)
  | a :: b :: c :: d :: rest => do
      let a ← Numeral.digitIn? 16 a
      let b ← Numeral.digitIn? 16 b
      let c ← Numeral.digitIn? 16 c
      let d ← Numeral.digitIn? 16 d
      some (((a * 16 + b) * 16 + c) * 16 + d, rest)
  | _ => none

/-- The character of an escape `\u`: one code unit, or a high and a low surrogate. -/
def escapedUnit (cs : List Char) : Option (Char × List Char) := do
  let (unit, rest) ← codeUnit cs
  if 0xD800 ≤ unit ∧ unit < 0xDC00 then
    match rest with
    | '\\' :: 'u' :: rest =>
        let (low, rest) ← codeUnit rest
        if 0xDC00 ≤ low ∧ low < 0xE000 then
          some (Char.ofNat (0x10000 + (unit - 0xD800) * 0x400 + (low - 0xDC00)), rest)
        else none
    | _ => none
  else if 0xDC00 ≤ unit ∧ unit < 0xE000 then none
  else some (Char.ofNat unit, rest)

/-- The character that a simple escape stands for. -/
def simpleEscape? (c : Char) : Option Char :=
  match c with
  | '"' => some '"'
  | '\\' => some '\\'
  | '/' => some '/'
  | 'b' => some '\x08'
  | 'f' => some '\x0c'
  | 'n' => some '\n'
  | 'r' => some '\r'
  | 't' => some '\t'
  | _ => none

/-- The rest of a string after its opening quote; what was read so far is reversed. -/
def readString : Nat → List Char → List Char → Option (String × List Char)
  | 0, _, _ => none
  | fuel + 1, acc, cs =>
      match cs with
      | [] => none
      | '"' :: rest => some (String.ofList acc.reverse, rest)
      | '\\' :: 'u' :: rest =>
          match escapedUnit rest with
          | some (c, rest) => readString fuel (c :: acc) rest
          | none => none
      | '\\' :: c :: rest =>
          match simpleEscape? c with
          | some c => readString fuel (c :: acc) rest
          | none => none
      | c :: rest => if c.toNat < 0x20 ∨ c = '\\' then none else readString fuel (c :: acc) rest

/-! ## Values -/

/-- The rest of a text after a given word in front of it. -/
def dropWord : List Char → List Char → Option (List Char)
  | [], cs => some cs
  | w :: word, c :: cs => if w = c then dropWord word cs else none
  | _ :: _, [] => none

mutual

/-- A value in front of a text; `depth` lists and objects may still be opened. -/
def readValue (depth : Nat) : Nat → List Char → Option (Value × List Char)
  | 0, _ => none
  | fuel + 1, cs =>
      match skipSpace cs with
      | [] => none
      | '[' :: rest =>
          match depth with
          | 0 => none
          | depth + 1 =>
              match skipSpace rest with
              | ']' :: rest => some (.array [], rest)
              | rest => (readItems depth fuel rest).map fun (items, rest) => (.array items, rest)
      | '\x7b' :: rest =>
          match depth with
          | 0 => none
          | depth + 1 =>
              match skipSpace rest with
              | '\x7d' :: rest => some (.object [], rest)
              | rest =>
                  (readFields depth fuel [] rest).map fun (fields, rest) => (.object fields, rest)
      | '"' :: rest => (readString fuel [] rest).map fun (s, rest) => (.string s, rest)
      | 't' :: rest => (dropWord ['r', 'u', 'e'] rest).map (.bool true, ·)
      | 'f' :: rest => (dropWord ['a', 'l', 's', 'e'] rest).map (.bool false, ·)
      | 'n' :: rest => (dropWord ['u', 'l', 'l'] rest).map (.null, ·)
      | c :: rest => readNumber (c :: rest)

/-- The items of a list that is not empty, up to its closing bracket. -/
def readItems (depth : Nat) : Nat → List Char → Option (List Value × List Char)
  | 0, _ => none
  | fuel + 1, cs =>
      match readValue depth fuel cs with
      | none => none
      | some (item, rest) =>
          match skipSpace rest with
          | ',' :: rest =>
              (readItems depth fuel rest).map fun (items, rest) => (item :: items, rest)
          | ']' :: rest => some ([item], rest)
          | _ => none

/-- The fields of an object that is not empty, up to its closing brace.  A field that comes again
    replaces the value it had. -/
def readFields (depth : Nat) : Nat → Record → List Char → Option (Record × List Char)
  | 0, _, _ => none
  | fuel + 1, fields, cs =>
      match skipSpace cs with
      | '"' :: rest =>
          match readString fuel [] rest with
          | none => none
          | some (name, rest) =>
              match skipSpace rest with
              | ':' :: rest =>
                  match readValue depth fuel rest with
                  | none => none
                  | some (value, rest) =>
                      let fields := Entries.insert name value fields
                      match skipSpace rest with
                      | ',' :: rest => readFields depth fuel fields rest
                      | '\x7d' :: rest => some (fields, rest)
                      | _ => none
              | _ => none
      | _ => none

end

/-- How deeply lists and objects may be nested in a text. -/
def depthLimit : Nat := 127

/-- The value that a JSON text stands for. -/
def parse (text : String) : Option Value :=
  let cs := text.toList
  match readValue depthLimit (cs.length + 1) cs with
  | some (v, rest) => if (skipSpace rest).isEmpty then some v else none
  | none => none

end RecordStore.Json
