import RecordStore.Error
import RecordStore.Schema.Basic

/-!
# Loaded schemas and key linkage

A definition is loaded when its models have different names and every relation field refers to
one of them.  In a loaded schema each relation field has another end, its reciprocal, and either
one of the two stores the reference in key columns, which is then how their records are linked,
or neither does.
-/

namespace RecordStore

/-- Switches for the whole store: whether emptying it also rewinds its counters, and whether
    writes that collide on a unique group of fields are rejected. -/
structure StoreOptions where
  resetCounters : Bool := false
  enforceUnique : Bool := true

/-- A schema as it is written down. -/
structure Definition where
  options : StoreOptions := {}
  models : List Model := []

/-- The first name that has come before, given the names that came before all of these. -/
def firstRepeated (seen : List String) : List String → Option String
  | [] => none
  | name :: rest => if name ∈ seen then some name else firstRepeated (name :: seen) rest

/-- No name has come before exactly when the names differ from each other and from the earlier
    ones. -/
theorem firstRepeated_eq_none_iff (seen names : List String) :
    firstRepeated seen names = none ↔ names.Nodup ∧ ∀ name ∈ names, name ∉ seen := by
  induction names generalizing seen with
  | nil => simp [firstRepeated]
  | cons name rest ih =>
      by_cases h : name ∈ seen
      · simp [firstRepeated, h]
      · simp only [firstRepeated, if_neg h, ih, List.nodup_cons, List.mem_cons, not_or]
        constructor
        · intro ⟨distinct, fresh⟩
          refine ⟨⟨fun again => (fresh name again).1 rfl, distinct⟩, ?_⟩
          rintro other (rfl | later)
          · exact h
          · exact (fresh other later).2
        · intro ⟨⟨absent, distinct⟩, fresh⟩
          refine ⟨distinct, fun other later => ⟨?_, fresh other (.inr later)⟩⟩
          rintro rfl
          exact absent later

/-- The first relation field that refers to no declared model, with the name of its own model. -/
def firstUnknownTarget (models : List Model) : Option (String × Field) :=
  models.findSome? fun model =>
    (model.relationFields.find? fun field => field.typeName ∉ models.map (·.name)).map
      (model.name, ·)

/-- There is no such field exactly when every relation field refers to a declared model. -/
theorem firstUnknownTarget_eq_none_iff (models : List Model) :
    firstUnknownTarget models = none ↔
      ∀ model ∈ models, ∀ field ∈ model.relationFields,
        field.typeName ∈ models.map (·.name) := by
  simp only [firstUnknownTarget, List.findSome?_eq_none_iff, Option.map_eq_none_iff,
    List.find?_eq_none, decide_eq_true_eq, Decidable.not_not]

/-- A schema whose models have different names and whose relation fields all refer to them. -/
structure Schema where
  options : StoreOptions
  models : List Model
  nodup_names : (models.map (·.name)).Nodup
  targets_known :
    ∀ model ∈ models, ∀ field ∈ model.relationFields, field.typeName ∈ models.map (·.name)

/-- How the records of two models are linked by key columns: a record of the other model belongs
    to a record when its `foreign` columns hold what the `localColumns` of the record hold,
    column by column.  The link is owned when the columns of the record are the stored
    reference. -/
structure Linkage where
  localColumns : List String
  foreign : List String
  owned : Bool
  deriving DecidableEq, Repr

namespace Linkage

/-- The pairs of columns, a column of the record first. -/
def columns (linkage : Linkage) : List (String × String) :=
  linkage.localColumns.zip linkage.foreign

/-- The filter that the linked records of a record satisfy; none when one of its columns is null,
    since nothing is linked then. -/
def scope (linkage : Linkage) (record : Record) : Option Record :=
  linkage.columns.foldlM (fun filter (column, foreign) =>
    match Entries.get? column record with
    | some value => if value.isNull then none else some (Entries.insert foreign value filter)
    | none => none) []

/-- A record with the referred values of a target in its own columns. -/
def bind (linkage : Linkage) (record target : Record) : Record :=
  linkage.columns.foldl (fun acc (column, foreign) =>
    Entries.insert column (Record.valueAt foreign target) acc) record

/-- The columns of the other model, all null. -/
def detached (linkage : Linkage) : Record :=
  linkage.foreign.foldl (fun acc column => Entries.insert column .null acc) []

end Linkage

/-- A record with nulls in some columns. -/
def Record.unbind (columns : List String) (record : Record) : Record :=
  columns.foldl (fun acc column => Entries.insert column .null acc) record

namespace Schema

/-- Loads a definition, unless a model is declared twice or a relation field refers to a model
    that is not declared; the former is found first. -/
def load (definition : Definition) : Except Error Schema :=
  match repeated : firstRepeated [] (definition.models.map (·.name)) with
  | some name => .error (.duplicateModel name)
  | none =>
      match unknown : firstUnknownTarget definition.models with
      | some (model, field) => .error (.unknownTarget model field.name field.typeName)
      | none =>
          .ok {
            options := definition.options
            models := definition.models
            nodup_names := ((firstRepeated_eq_none_iff _ _).mp repeated).1
            targets_known := (firstUnknownTarget_eq_none_iff _).mp unknown }

/-- The model of a name. -/
def model? (schema : Schema) (name : String) : Option Model :=
  schema.models.find? fun model => model.name = name

/-- The model of a name, whose absence is an error. -/
def model (schema : Schema) (name : String) : Except Error Model :=
  match schema.model? name with
  | some model => .ok model
  | none => .error (.unknownModel name)

/-- The model that a relation field refers to. -/
def relatedModel (schema : Schema) (field : Field) : Except Error Model :=
  schema.model field.typeName

/-- The field at the other end of a relation: the first relation field of the other model that
    has the same relation name and refers back, and is not the field itself. -/
def reciprocal? (schema : Schema) (model : Model) (field : Field) : Option Field := do
  let relation ← field.relationName
  let related ← schema.model? field.typeName
  related.relationFields.find? fun other =>
    other.relationName = some relation && other.typeName = model.name
      && !(related.name = model.name && other.name = field.name)

/-- The key linkage of a relation field; none when neither end stores a reference. -/
def linkage? (schema : Schema) (model : Model) (field : Field) : Option Linkage :=
  if field.ownsForeignKey then some ⟨field.fromFields, field.toFields, true⟩
  else
    match schema.reciprocal? model field with
    | some other =>
        if other.ownsForeignKey then some ⟨other.toFields, other.fromFields, false⟩ else none
    | none => none

end Schema

end RecordStore
