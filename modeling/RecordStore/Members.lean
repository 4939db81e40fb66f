import RecordStore.Value.Basic

/-!
# Members of objects

Objects with declared members are read one member at a time.  A member has to be there, or has a
default, or may be left out, which null stands for too.
-/

namespace RecordStore.Members

/-- The members of an object, or of a list in the order of declaration. -/
def ofValue? (names : List String) : Value → Option Record
  | .object fields => some fields
  | .array items => if items.length ≤ names.length then some (names.zip items) else none
  | _ => none

variable {α β : Type}

/-- A member that has to be there. -/
def required (read : α → Option β) (name : String) (members : Entries α) : Option β :=
  (Entries.get? name members).bind read

/-- A member that has a default. -/
def withDefault (read : α → Option β) (fallback : β) (name : String) (members : Entries α) :
    Option β :=
  match Entries.get? name members with
  | some node => read node
  | none => some fallback

/-- A member that may be absent or null. -/
def nullable (isNull : α → Bool) (read : α → Option β) (name : String) (members : Entries α) :
    Option (Option β) :=
  match Entries.get? name members with
  | none => some none
  | some node => if isNull node then some none else (read node).map some

end RecordStore.Members
