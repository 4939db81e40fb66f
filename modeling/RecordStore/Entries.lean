/-!
# Named entries in insertion order

A list of names with the values held under them.  Looking a name up gives the value of its
first entry; writing under a name that is present keeps its position, and writing under a new
name adds an entry at the end.  The main statements say what each write does to every look-up.
-/

namespace RecordStore

/-- Values held under names, in the order in which the names first came. -/
abbrev Entries (α : Type) := List (String × α)

namespace Entries

variable {α : Type}

/-- The value held under a name. -/
def get? (name : String) : Entries α → Option α
  | [] => none
  | (key, value) :: rest => if key = name then some value else get? name rest

/-- Writes under a name: in place when it is present, at the end when it is new. -/
def insert (name : String) (new : α) : Entries α → Entries α
  | [] => [(name, new)]
  | (key, value) :: rest =>
      if key = name then (key, new) :: rest else (key, value) :: insert name new rest

/-- Writes every entry of the second list, in order, into the first. -/
def insertAll (entries : Entries α) (more : Entries α) : Entries α :=
  more.foldl (fun acc entry => insert entry.1 entry.2 acc) entries

/-- The entries without those under a name. -/
def erase (name : String) (entries : Entries α) : Entries α :=
  entries.filter fun entry => entry.1 ≠ name

/-- All values under a name, in order. -/
def valuesAt (name : String) (entries : Entries α) : List α :=
  (entries.filter fun entry => entry.1 = name).map Prod.snd

/-- The names, in order. -/
def keys (entries : Entries α) : List String := entries.map Prod.fst

/-- The first value under a name, and the entries without it; none when the name is not there. -/
def take? (name : String) : Entries α → Option (α × Entries α)
  | [] => none
  | (key, value) :: rest =>
      if key = name then some (value, rest)
      else (take? name rest).map fun found => (found.1, (key, value) :: found.2)

/-- Whether a name is present. -/
def contains (name : String) (entries : Entries α) : Bool := (get? name entries).isSome

@[simp] theorem get?_nil (name : String) : get? name ([] : Entries α) = none := rfl

/-- The first entry answers for its name, and the rest for all others. -/
theorem get?_cons (name key : String) (value : α) (rest : Entries α) :
    get? name ((key, value) :: rest) = if key = name then some value else get? name rest := rfl

/-- What is written under a name is what a look-up of it finds. -/
@[simp] theorem get?_insert_self (name : String) (new : α) (entries : Entries α) :
    get? name (insert name new entries) = some new := by
  induction entries with
  | nil => simp [insert, get?]
  | cons entry rest ih =>
      obtain ⟨key, value⟩ := entry
      by_cases h : key = name <;> simp [insert, get?, h, ih]

/-- Writing under one name leaves every other look-up alone. -/
theorem get?_insert_of_ne {name other : String} (h : other ≠ name) (new : α)
    (entries : Entries α) : get? other (insert name new entries) = get? other entries := by
  induction entries with
  | nil => simp [insert, get?, h.symm]
  | cons entry rest ih =>
      obtain ⟨key, value⟩ := entry
      by_cases hk : key = name
      · subst hk
        simp [insert, get?, h.symm]
      · simp [insert, get?, hk, ih]

/-- Writing under a name that is present keeps the list of names. -/
theorem keys_insert_of_contains {name : String} {entries : Entries α}
    (h : contains name entries = true) (new : α) :
    keys (insert name new entries) = keys entries := by
  induction entries with
  | nil => simp [contains, get?] at h
  | cons entry rest ih =>
      obtain ⟨key, value⟩ := entry
      by_cases hk : key = name
      · simp [insert, keys, hk]
      · have hrest : contains name rest = true := by simpa [contains, get?, hk] using h
        simpa [insert, keys, hk] using ih hrest

/-- Writing under a new name adds it at the end. -/
theorem keys_insert_of_not_contains {name : String} {entries : Entries α}
    (h : contains name entries = false) (new : α) :
    keys (insert name new entries) = keys entries ++ [name] := by
  induction entries with
  | nil => rfl
  | cons entry rest ih =>
      obtain ⟨key, value⟩ := entry
      by_cases hk : key = name
      · simp [contains, get?, hk] at h
      · have hrest : contains name rest = false := by simpa [contains, get?, hk] using h
        simpa [insert, keys, hk] using ih hrest

end Entries

end RecordStore
