import RecordStore.Calendar.Date
import RecordStore.Decimal.Numeral
import RecordStore.Text.Blank

/-!
# Instants

Points in time to the nanosecond, read from RFC 3339 text or from a plain date, which means its
midnight in UTC, and written in UTC with milliseconds.  A leap second is the second before it
with a thousand million nanoseconds or more, so that it is written as second 60.
-/

namespace RecordStore.Calendar

/-- Seconds since 1970-01-01T00:00:00Z without leap seconds, and nanoseconds within the second;
    a leap second reaches up to twice as many. -/
structure Instant where
  seconds : Int
  nanoseconds : Nat
  deriving DecidableEq, Repr

namespace Instant

/-- Milliseconds since 1970-01-01T00:00:00Z; what is left of a millisecond is dropped. -/
def toMilliseconds (t : Instant) : Int := t.seconds * 1000 + t.nanoseconds / 1000000

/-- The instant that lies some milliseconds after 1970-01-01T00:00:00Z. -/
def ofMilliseconds (ms : Int) : Instant := ⟨ms / 1000, (ms % 1000).toNat * 1000000⟩

/-! ## Writing -/

/-- A natural number with at least `width` digits. -/
def padded (width n : Nat) : String :=
  let digits := Nat.toDigits 10 n
  String.ofList (List.replicate (width - digits.length) '0' ++ digits)

/-- A year has four digits; one outside 0 to 9999 has a sign. -/
def yearText (year : Int) : String :=
  if 0 ≤ year ∧ year ≤ 9999 then padded 4 year.toNat
  else (if year < 0 then "-" else "+") ++ padded 4 year.natAbs

/-- Year, month, day, `T`, hour, minute, second, milliseconds and `Z`. -/
def toText (t : Instant) : String :=
  let date := Date.ofDays (t.seconds / 86400)
  let second := (t.seconds % 86400).toNat
  let leap := if 1000000000 ≤ t.nanoseconds then 1 else 0
  yearText date.year ++ "-" ++ padded 2 date.month ++ "-" ++ padded 2 date.day ++ "T"
    ++ padded 2 (second / 3600) ++ ":" ++ padded 2 (second / 60 % 60) ++ ":"
    ++ padded 2 (second % 60 + leap) ++ "."
    ++ padded 3 (t.nanoseconds % 1000000000 / 1000000) ++ "Z"

/-! ## Reading -/

/-- Exactly `n` digits in front of a text. -/
def fixedDigits (n : Nat) (cs : List Char) : Option (Nat × List Char) :=
  if (cs.take n).length = n then (Numeral.natural? (cs.take n)).map (·, cs.drop n) else none

/-- A given character in front of a text. -/
def symbol (c : Char) : List Char → Option (List Char)
  | d :: rest => if d = c then some rest else none
  | [] => none

/-- The nanoseconds of the digits of a fraction of a second; digits after the ninth are dropped. -/
def nanosecondsOf (digits : List Char) : Option Nat :=
  let kept := digits.take 9
  (Numeral.natural? kept).map (· * Nat.pow 10 (9 - kept.length))

/-- An optional fraction of a second: a point and at least one digit. -/
def fraction : List Char → Option (Nat × List Char)
  | '.' :: rest =>
      (nanosecondsOf (rest.takeWhile Numeral.isDigit)).map
        (·, rest.dropWhile Numeral.isDigit)
  | cs => some (0, cs)

/-- Hours up to 23, a colon and minutes up to 59, as seconds; nothing may follow. -/
def offsetMagnitude (cs : List Char) : Option Int := do
  let (hours, cs) ← fixedDigits 2 cs
  let cs ← symbol ':' cs
  let (minutes, cs) ← fixedDigits 2 cs
  if cs = [] ∧ hours ≤ 23 ∧ minutes ≤ 59 then some (hours * 3600 + minutes * 60) else none

/-- The seconds by which local time is ahead of UTC: `Z` in either case, or a sign (the minus
    sign U+2212 included) with hours and minutes. -/
def offset : List Char → Option Int
  | ['Z'] => some 0
  | ['z'] => some 0
  | '+' :: rest => offsetMagnitude rest
  | '-' :: rest => (offsetMagnitude rest).map (- ·)
  | '\u2212' :: rest => (offsetMagnitude rest).map (- ·)
  | _ => none

/-- The instant that RFC 3339 text stands for.  Second 60 is accepted in every minute. -/
def ofRfc3339? (cs : List Char) : Option Instant := do
  let (year, cs) ← fixedDigits 4 cs
  let cs ← symbol '-' cs
  let (month, cs) ← fixedDigits 2 cs
  let cs ← symbol '-' cs
  let (day, cs) ← fixedDigits 2 cs
  let cs ← (symbol 'T' cs).or ((symbol 't' cs).or (symbol ' ' cs))
  let (hour, cs) ← fixedDigits 2 cs
  let cs ← symbol ':' cs
  let (minute, cs) ← fixedDigits 2 cs
  let cs ← symbol ':' cs
  let (second, cs) ← fixedDigits 2 cs
  let (nanoseconds, cs) ← fraction cs
  let ahead ← offset cs
  let date : Date := ⟨year, month, day⟩
  if date.exists? ∧ hour ≤ 23 ∧ minute ≤ 59 ∧ second ≤ 60 then
    let leap := if second = 60 then 1 else 0
    let clock : Int := hour * 3600 + minute * 60 + (second - leap : Nat)
    some ⟨date.toDays * 86400 + clock - ahead, nanoseconds + leap * 1000000000⟩
  else none

/-- One to `most` digits in front of a text, after any white space. -/
def someDigits (most : Nat) (cs : List Char) : Option (Nat × List Char) :=
  let cs := Text.trimStart cs
  let digits := (cs.takeWhile Numeral.isDigit).take most
  (Numeral.natural? digits).map (·, cs.drop digits.length)

/-- A year in front of a text, after any white space: up to four digits, or a sign and any number
    of digits. -/
def yearNumber (cs : List Char) : Option (Int × List Char) :=
  match Text.trimStart cs with
  | '-' :: rest =>
      let digits := rest.takeWhile Numeral.isDigit
      (Numeral.natural? digits).map fun n => (-(n : Int), rest.dropWhile Numeral.isDigit)
  | '+' :: rest =>
      let digits := rest.takeWhile Numeral.isDigit
      (Numeral.natural? digits).map fun n => ((n : Int), rest.dropWhile Numeral.isDigit)
  | rest => (someDigits 4 rest).map fun (n, rest) => ((n : Int), rest)

/-- The years that a date may have. -/
def yearFits (year : Int) : Bool := -262143 ≤ year ∧ year ≤ 262142

/-- The midnight in UTC of a date written as year, month and day with hyphens between them.
    The numbers need no padding, and white space may stand before each of them. -/
def ofDateText? (cs : List Char) : Option Instant := do
  let (year, cs) ← yearNumber cs
  let cs ← symbol '-' cs
  let (month, cs) ← someDigits 2 cs
  let cs ← symbol '-' cs
  let (day, cs) ← someDigits 2 cs
  let date : Date := ⟨year, month, day⟩
  if cs = [] ∧ date.exists? ∧ yearFits year then some ⟨date.toDays * 86400, 0⟩ else none

/-- The instant that a text stands for: RFC 3339 text, else a plain date. -/
def ofText? (s : String) : Option Instant :=
  (ofRfc3339? s.toList).or (ofDateText? s.toList)

end Instant

end RecordStore.Calendar
