import RecordStore.Proofs.Counters
import RecordStore.Proofs.Shape
import RecordStore.Proofs.Write.Settling
import RecordStore.Proofs.Write.Skipping

/-!
# Writes of plain fields

A create or update by a payload of plain fields writes one record at most.  What it writes is
settled field by field: the value that the payload gives, or the default in place of null, which
looks at nothing but the clock, the counter of its own field and the random digits.  Everything else
stays as it was, and if the write fails, nothing is written.
-/

namespace RecordStore

open Record

/-! ## Filling a field -/

namespace Store

variable {origin store : Store} {model : Model} {field other : Field} {name : String}

/-- What the default of a field comes to on a store, whatever random digits it draws. -/
def Offers (store : Store) (model : Model) (field : Field) (value : Option Value) : Prop :=
  ∃ entropy, ({ store with entropy }.defaultValue model field).1 = value

/-- What a field holds once it is filled: the value that it has come to, unless that is null; then
    what its default comes to, and null if it has none. -/
inductive Lays (store : Store) (model : Model) (field : Field) : Value → Value → Prop where
  | kept {value : Value} (h : value.isNull = false) : Lays store model field value value
  | filled {value : Value} {found : Option Value} (hnull : value.isNull = true)
      (h : store.Offers model field found) : Lays store model field value (found.getD .null)

/-- What is drawn is a text. -/
theorem generate_eq (store : Store) (draw : Entropy → String × Entropy) :
    (store.generate draw).1 = .string (draw store.entropy).1 := rfl

theorem isNull_now (store : Store) : store.now.isNull = false := rfl

/-- Whether a default comes to null does not depend on the store. -/
theorem isNull_defaultValue (store other : Store) (model : Model) (field : Field) :
    ((store.defaultValue model field).1.getD .null).isNull =
      ((other.defaultValue model field).1.getD .null).isNull := by
  unfold defaultValue
  cases field.default with
  | none => cases field.isUpdatedAt <;> simp [isNull_now]
  | some default =>
      cases default with
      | literal value =>
          cases value with
          | string text =>
              simp only [fill]
              split <;> rfl
          | _ => rfl
      | now => simp only [fill, Option.getD_some, isNull_now]
      | unknown => rfl
      | _ => simp only [fill, fill.some?, generate_eq, Option.getD_some, Value.isNull]

/-- A field whose default does not come to null is not null once it is filled. -/
theorem Lays.isNull {given value : Value} (h : origin.Lays model field given value)
    (hdefault : ((origin.defaultValue model field).1.getD .null).isNull = false) :
    value.isNull = false := by
  cases h with
  | kept hvalue => exact hvalue
  | filled _ hoffers =>
      obtain ⟨entropy, rfl⟩ := hoffers
      rw [isNull_defaultValue _ origin]
      exact hdefault

/-- A store on which the fields of some names can be filled as on an earlier one. -/
structure Fresh (origin store : Store) (model : Model) (names : List String) : Prop where
  clock_eq : store.clock = origin.clock
  counter_eq : ∀ name ∈ names, store.counter? model.name name = origin.counter? model.name name

theorem Fresh.refl (names : List String) : Fresh origin origin model names :=
  ⟨rfl, fun _ _ => rfl⟩

/-- What has gone into other fields does not matter. -/
theorem Fresh.next {next : Store} {names : List String}
    (h : Fresh origin store model (name :: names)) (hmoved : Supplied store next)
    (hcounter : ∀ other ∈ names, next.counter? model.name other = store.counter? model.name other) :
    Fresh origin next model names where
  clock_eq := hmoved.clock_eq.trans h.clock_eq
  counter_eq other hother :=
    (hcounter other hother).trans (h.counter_eq other (List.mem_cons_of_mem _ hother))

/-- What an update leaves in a field: the time of the update, if the field keeps it and is not
    written itself, and else the value that it has come to, or its default in place of null. -/
def Refreshes (store : Store) (model : Model) (written : Record) (field : Field)
    (value refreshed : Value) : Prop :=
  if field.isUpdatedAt && !Entries.contains field.name written then refreshed = store.now
  else store.Lays model field value refreshed

/-- A field whose default does not come to null is not null once it is refreshed. -/
theorem Refreshes.isNull {written : Record} {value refreshed : Value}
    (h : origin.Refreshes model written field value refreshed)
    (hdefault : ((origin.defaultValue model field).1.getD .null).isNull = false) :
    refreshed.isNull = false := by
  unfold Refreshes at h
  split at h
  · rw [h]
    rfl
  · exact h.isNull hdefault

end Store

/-! ## Going through a payload -/

namespace Model

variable {model : Model} {field : Field} {name : String} {data record : Record} {e : Error}

end Model

namespace Store

open Write

variable {store supplied last : Store} {model : Model} {name : String}
variable {data current record : Record} {e : Error}

end Store

namespace Catalog

open Store Write

/-- Items with a number, a code of their own, a list of tags, a state that starts as new, and the
    time of the last change. -/
def item : Model where
  name := "Item"
  fields := [
    { name := "id", kind := .scalar, typeName := "Int", isId := true,
      default := some .autoincrement },
    { name := "code", kind := .scalar, typeName := "String", isUnique := true },
    { name := "tags", kind := .scalar, typeName := "String", isList := true },
    { name := "state", kind := .scalar, typeName := "String",
      default := some (.literal (.string "new")) },
    { name := "changed", kind := .scalar, typeName := "DateTime", isUpdatedAt := true }]

def schema : Schema where
  options := {}
  models := [item]
  nodup_names := by decide
  targets_known := by decide

def sold : Record := [("id", .integer 1), ("code", .string "a"), ("tags", .array []),
  ("state", .string "sold"), ("changed", .null)]

/-- A catalog with one item, which is sold. -/
def store : Store := (ofSchema schema 0 ⟨0⟩).setItems "Item" [sold]

/-- A code, a tag, and no state. -/
def tagged : Record := [("code", .string "b"), ("tags", .object [("set", .array [.string "x"])]),
  ("state", .null)]

end Catalog

end RecordStore
