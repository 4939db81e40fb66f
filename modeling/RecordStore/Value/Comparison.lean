import RecordStore.Value.Basic
import RecordStore.Calendar.Instant
import RecordStore.Decimal.Numeral
import RecordStore.Text.Blank
import RecordStore.Text.Lowercase

/-!
# Comparing values

Stored values are compared as the declared type of their field says: date fields by the instant
that a value stands for, big-integer fields by the integer, and all other fields as they are.
`compare` orders two values of one comparable kind; `equals` is the equality that goes with it.
-/

namespace RecordStore

/-- How the values of a field are read before they are compared. -/
inductive Reading where
  | instant
  | integer
  | plain
  deriving DecidableEq, Repr

/-- The reading that a declared type asks for; an undeclared field is read plainly. -/
def Reading.ofType : Option String → Reading
  | some "DateTime" => .instant
  | some "BigInt" => .integer
  | _ => .plain

namespace Value

/-! ## Readings of one value -/

/-- Milliseconds since 1970 of a value that stands for an instant. -/
def timestamp? : Value → Option Int
  | .string s => (Calendar.Instant.ofText? s).map (·.toMilliseconds)
  | v => v.int64?

/-- The integer that a value stands for: an integer number, or the numeral in a text. -/
def bigInteger? : Value → Option Int
  | .integer i => some i
  | .string s => Numeral.integer? (Text.trim s.toList)
  | _ => none

/-- The double that a number is nearest to. -/
def number? : Value → Option Float
  | .integer i => some (Numeral.doubleOfInt i)
  | .double x => some x
  | _ => none

/-- The double that a value stands for: a number, or the numeral in a text. -/
def double? : Value → Option Float
  | .string s => Numeral.double? (Text.trim s.toList)
  | v => v.number?

/-- A double as a value: what is not finite has none but null. -/
def ofDouble (x : Float) : Value := if x.isFinite then .double x else .null

/-- An integer as a value: a number when a 64-bit signed word holds it, else its digits. -/
def ofInteger (i : Int) : Value := if fitsInt64 i then .integer i else .string (toString i)

/-- A text with upper case folded away where case is to be ignored; other values as they are. -/
def fold (insensitive : Bool) : Value → Value
  | .string s => .string (Text.fold insensitive s)
  | v => v

/-! ## Order -/

/-- Dictionary order of two texts: case is ignored first, and of two texts that differ in case
    only, the one with lower case earlier comes first. -/
def localeCompare (a b : String) : Ordering :=
  (Ord.compare (Text.lowercase a) (Text.lowercase b)).then (Ord.compare b a)

/-- Order of two doubles, none if one of them is not a number. -/
def compareDoubles (x y : Float) : Option Ordering :=
  if x < y then some .lt else if x == y then some .eq else if y < x then some .gt else none

/-- Order of two plainly read values of one kind: numbers, texts or truth values.  Numbers
    compare as integers when 64-bit signed words hold both, else as doubles. -/
def comparePlain : Value → Value → Option Ordering
  | .string a, .string b => some (localeCompare a b)
  | .bool a, .bool b => some (Ord.compare a b)
  | a, b =>
      match a.int64?, b.int64? with
      | some x, some y => some (Ord.compare x y)
      | _, _ =>
          match a.number?, b.number? with
          | some x, some y => compareDoubles x y
          | _, _ => none

/-- Order of two values under a reading, none if they are not comparable. -/
def compare (reading : Reading) (a b : Value) : Option Ordering :=
  match reading with
  | .instant =>
      match a.timestamp?, b.timestamp? with
      | some x, some y => some (Ord.compare x y)
      | _, _ => none
  | .integer =>
      match a.bigInteger?, b.bigInteger? with
      | some x, some y => some (Ord.compare x y)
      | _, _ => none
  | .plain => comparePlain a b

/-! ## Equality -/

/-- Equality of two plainly read values.  Numbers are equal by quantity, whatever their kind;
    texts and all other values are equal as data. -/
def equalsPlain (a b : Value) : Bool :=
  match a.int64?, b.int64? with
  | some x, some y => x == y
  | _, _ =>
      match a.number?, b.number? with
      | some x, some y => x == y
      | _, _ => same a b

/-- Equality of two values under a reading.  A value that the reading does not accept equals
    nothing. -/
def equals (reading : Reading) (a b : Value) : Bool :=
  match reading with
  | .instant =>
      match a.timestamp?, b.timestamp? with
      | some x, some y => x == y
      | _, _ => false
  | .integer =>
      match a.bigInteger?, b.bigInteger? with
      | some x, some y => x == y
      | _, _ => false
  | .plain => equalsPlain a b

/-- Equality of two values that ignores the case of texts, except under a reading that does not
    look at them as texts. -/
def equalsInsensitive (reading : Reading) (a b : Value) : Bool :=
  match reading, a, b with
  | .plain, .string s, .string t => Text.lowercase s == Text.lowercase t
  | _, _, _ => equals reading a b

end Value

namespace Record

/-- Whether every field of `subset` has an equal value in a record; a null field may be absent. -/
def holdsAll (record subset : Record) : Bool :=
  subset.all fun (name, expected) =>
    match Entries.get? name record with
    | some actual => Value.equals .plain actual expected
    | none => expected.isNull

end Record

end RecordStore
