import RecordStore.Entries

/-!
# Values and records

A value is a JSON value whose numbers keep their kind: an integer and a double are never the
same value, even when they stand for the same quantity.  A record holds values under field
names, in the order in which the fields were written.

Plain equality, `Value.same`, is the equality of values as data: it looks at kinds, and it
ignores the order of the fields of an object.
-/

namespace RecordStore

/-- A JSON value.  An integer lies between the least 64-bit signed and the greatest 64-bit
    unsigned integer; every other number is a double. -/
inductive Value where
  | null
  | bool (b : Bool)
  | integer (i : Int)
  | double (x : Float)
  | string (s : String)
  | array (items : List Value)
  | object (fields : List (String × Value))
  deriving Inhabited

/-- Values under field names, in the order in which the fields were first written. -/
abbrev Record := Entries Value

/-- The integers that a 64-bit signed word holds. -/
def fitsInt64 (i : Int) : Bool := -Int.pow 2 63 ≤ i ∧ i < Int.pow 2 63

/-- The integers that a 64-bit unsigned word holds. -/
def fitsUInt64 (i : Int) : Bool := 0 ≤ i ∧ i < Int.pow 2 64

/-- What a signed word of some bits holds when an integer is put into it: past its greatest integer
    a word goes on at its least one. -/
def wrap (bits : Nat) (i : Int) : Int := (BitVec.ofInt bits i).toInt

theorem wrap_eq_bmod (bits : Nat) (i : Int) : wrap bits i = i.bmod (Nat.pow 2 bits) :=
  BitVec.toInt_ofInt i

/-- What goes round on the way makes no difference in the end. -/
theorem wrap_wrap_add (bits : Nat) (i j : Int) :
    wrap bits (wrap bits i + j) = wrap bits (i + j) := by
  rw [wrap_eq_bmod, wrap_eq_bmod, wrap_eq_bmod, Int.bmod_add_bmod]

/-- A word holds the integers of its range as they are. -/
theorem wrap_of_fits {bits : Nat} {i : Int} (hleast : -Int.pow 2 bits ≤ i)
    (hgreatest : i < Int.pow 2 bits) : wrap (bits + 1) i = i :=
  BitVec.toInt_ofInt_eq_self (Nat.succ_pos bits) hleast hgreatest

/-- A word holds nothing but the integers of its range. -/
theorem fits_wrap (bits : Nat) (i : Int) :
    -Int.pow 2 bits ≤ wrap (bits + 1) i ∧ wrap (bits + 1) i < Int.pow 2 bits :=
  ⟨BitVec.le_toInt _, BitVec.toInt_lt⟩

/-- The integers of 64 bits are those that a word of 64 bits holds as they are. -/
theorem fitsInt64_iff {i : Int} : fitsInt64 i = true ↔ wrap 64 i = i := by
  refine ⟨fun h => ?_, fun h => ?_⟩
  · obtain ⟨hleast, hgreatest⟩ := of_decide_eq_true h
    exact wrap_of_fits hleast hgreatest
  · rw [← h]
    exact decide_eq_true (fits_wrap 63 i)

namespace Value

/-! ## Reading one kind of value -/

/-- Whether a value is null. -/
def isNull : Value → Bool
  | .null => true
  | _ => false

/-- The text of a string. -/
def string? : Value → Option String
  | .string s => some s
  | _ => none

/-- The truth value of a boolean. -/
def bool? : Value → Option Bool
  | .bool b => some b
  | _ => none

/-- The fields of an object. -/
def object? : Value → Option Record
  | .object fields => some fields
  | _ => none

/-- The items of a list. -/
def array? : Value → Option (List Value)
  | .array items => some items
  | _ => none

/-- The integer of a number that a 64-bit signed word holds; a double never counts as one. -/
def int64? : Value → Option Int
  | .integer i => if fitsInt64 i then some i else none
  | _ => none

/-- The integer of a number that a 64-bit unsigned word holds. -/
def uint64? : Value → Option Nat
  | .integer i => if fitsUInt64 i then some i.toNat else none
  | _ => none

/-- The value under a key, when the value is an object that has it. -/
def get? (key : String) : Value → Option Value
  | .object fields => Entries.get? key fields
  | _ => none

/-- Neither a list nor an object. -/
def isScalar : Value → Bool
  | .array _ => false
  | .object _ => false
  | _ => true

/-- What a selection asks for: everything but `false` and null asks. -/
def isEnabled : Value → Bool
  | .bool b => b
  | .null => false
  | _ => true

/-- One object, or the objects of a list, as a list of records. -/
def objects : Value → List Record
  | .array items => items.filterMap object?
  | .object fields => [fields]
  | _ => []

/-- One string, or the strings of a list, as a list. -/
def strings : Value → List String
  | .string s => [s]
  | .array items => items.filterMap string?
  | _ => []

/-- One value, or the values of a list, as a list; null stands for none. -/
def elements : Value → List Value
  | .array items => items
  | .null => []
  | single => [single]

/-! ## Plain equality -/

mutual

/-- Equality of values as data, whatever the order of object fields. -/
def same : Value → Value → Bool
  | .null, .null => true
  | .bool a, .bool b => a == b
  | .integer a, .integer b => a == b
  | .double a, .double b => a == b
  | .string a, .string b => a == b
  | .array xs, .array ys => sameItems xs ys
  | .object xs, .object ys => sameFields xs ys
  | _, _ => false
termination_by structural a => a

/-- Equality position by position. -/
def sameItems : List Value → List Value → Bool
  | [], [] => true
  | x :: xs, y :: ys => same x y && sameItems xs ys
  | _, _ => false
termination_by structural xs => xs

/-- Every field of the first record has the same value in the second, which has no others. -/
def sameFields : List (String × Value) → List (String × Value) → Bool
  | [], other => other.isEmpty
  | (key, v) :: rest, other =>
      match Entries.take? key other with
      | some (w, others) => same v w && sameFields rest others
      | none => false
termination_by structural xs => xs

end

instance : BEq Value := ⟨same⟩

/-! ## Depth -/

mutual

/-- How deeply objects and lists are nested in a value. -/
def depth : Value → Nat
  | .array items => itemsDepth items + 1
  | .object fields => fieldsDepth fields + 1
  | _ => 0
termination_by structural v => v

/-- The greatest depth among the items of a list. -/
def itemsDepth : List Value → Nat
  | [] => 0
  | v :: rest => max (depth v) (itemsDepth rest)
termination_by structural items => items

/-- The greatest depth among the values of a record. -/
def fieldsDepth : List (String × Value) → Nat
  | [] => 0
  | (_, v) :: rest => max (depth v) (fieldsDepth rest)
termination_by structural fields => fields

end

end Value

namespace Record

/-- Equality of records as data, whatever the order of their fields. -/
def same (a b : Record) : Bool := Value.sameFields a b

/-- Records are equal exactly when the objects that they make are. -/
theorem same_eq (a b : Record) : same a b = Value.same (.object a) (.object b) := by
  rw [same, Value.same]

/-- The value of a field, null when the record does not have it. -/
def valueAt (name : String) (record : Record) : Value := (Entries.get? name record).getD .null

/-- Whether a field is null or absent. -/
def isNullAt (name : String) (record : Record) : Bool := (valueAt name record).isNull

end Record

end RecordStore
