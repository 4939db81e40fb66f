import RecordStore.Proofs.Query.Faults

/-!
# What writes fail for

The models that writes look up on their way are those of relation fields, and a loaded schema has
them.  Of the errors that blame the schema only one is left: a nested write through a relation that
has neither key columns nor a name.  For the rest a write fails for its payload, for a record that
is not there, or for one that is there already, as long as nesting is not cut off.
-/

namespace RecordStore

/-- What a write on a store of a schema may fail for, apart from nesting too deeply. -/
inductive WriteFault (schema : Schema) : Error → Prop where
  | arguments {e : Error} (h : e.OfArguments) : WriteFault schema e
  | missing (model : String) {cause : MissingRecord} (h : cause ≠ .toFind) :
      WriteFault schema (.notFound model cause)
  | collision (model : String) (fields : List String) (h : schema.options.enforceUnique = true) :
      WriteFault schema (.uniqueConstraint model fields)
  | unnamed {model : Model} {field : Field} (hmodel : model ∈ schema.models)
      (hfield : field ∈ model.relationFields) (hname : field.relationName = none)
      (hlinkage : schema.linkage? model field = none) :
      WriteFault schema (.unnamedRelation model.name field.name)

namespace WriteFault

variable {schema : Schema} {e : Error}

/-- The only fault of a loaded schema is a relation that records cannot be linked through. -/
theorem unnamed_of_schema (h : WriteFault schema e) (hkind : e.kind = .schema) :
    ∃ model ∈ schema.models, ∃ field ∈ model.relationFields, field.relationName = none ∧
      schema.linkage? model field = none ∧ e = .unnamedRelation model.name field.name := by
  cases h with
  | arguments harguments => rcases harguments with h | h <;> rw [h] at hkind <;> cases hkind
  | missing => cases hkind
  | collision => cases hkind
  | @unnamed model field hmodel hfield hname hlinkage =>
      exact ⟨model, hmodel, field, hfield, hname, hlinkage, rfl⟩

/-- Records collide only where unique groups are enforced. -/
theorem enforced_of_collision (h : WriteFault schema e) (hkind : e.kind = .uniqueConstraint) :
    schema.options.enforceUnique = true := by
  cases h with
  | arguments harguments => rcases harguments with h | h <;> rw [h] at hkind <;> cases hkind
  | missing => cases hkind
  | collision _ _ henforced => exact henforced
  | unnamed => cases hkind

/-- What a write looks for in vain is not what a read looks for. -/
theorem ne_toFind (h : WriteFault schema e) (model : String) : e ≠ .notFound model .toFind := by
  rintro rfl
  cases h with
  | arguments harguments => rcases harguments with h | h <;> cases h
  | missing _ hcause => exact hcause rfl

/-- It is not that the write nests too deeply. -/
theorem ne_nestingExceeded (h : WriteFault schema e) : e ≠ .nestingExceeded := by
  rintro rfl
  cases h with
  | arguments harguments => rcases harguments with h | h <;> cases h

end WriteFault

/-! ## Payloads -/

namespace Payload

/-- A payload that should be an object is to blame if it is none. -/
theorem ofArguments_object (arg : Value) (operation : String) :
    FailsOnly Error.OfArguments (object arg operation) := by
  unfold object
  split
  · exact .ok _
  · exact .error (Or.inr rfl)

/-- So is one that lacks a member. -/
theorem ofArguments_member (arg : Value) (key operation : String) :
    FailsOnly Error.OfArguments (member arg key operation) := by
  unfold member
  split
  · exact .ok _
  · exact .error (Or.inr rfl)

/-- So is the payload of an update that is neither a filter with data nor data. -/
theorem ofArguments_update (arg : Value) : FailsOnly Error.OfArguments (update arg) := by
  unfold update
  split
  · exact .ok _
  · exact (ofArguments_object arg "update").map

end Payload

/-- Arithmetic that cannot be done is the fault of its operand. -/
theorem ScalarUpdate.failsOnly_apply (operator : ScalarUpdate) (field : Field)
    (current operand : Value) :
    FailsOnly Error.OfArguments (operator.apply field current operand) := by
  unfold apply
  split
  · exact .ok _
  · exact .ok _
  · split
    · exact .ok _
    · dsimp only
      split
      · exact .ok _
      · exact .error (Or.inr rfl)

/-- A plain field fails to be updated for arithmetic only. -/
theorem Field.failsOnly_updated (field : Field) (current update : Value) :
    FailsOnly Error.OfArguments (field.updated current update) := by
  unfold updated
  split
  · split
    · exact .ok _
    · split
      · exact ScalarUpdate.failsOnly_apply _ _ _ _
      · exact .ok _
  · exact .ok _

/-! ## Stores -/

namespace Store

variable {store : Store} {schema : Schema} {model : Model} {field : Field}

/-- Unique groups are not checked unless the schema enforces them. -/
theorem failsOnly_checkUnique (hstore : store.schema = schema) (model : Model) (candidate : Record)
    (previous : Option Record) :
    FailsOnly (WriteFault schema) (store.checkUnique model candidate previous) := by
  unfold checkUnique
  split
  · rename_i henforced
    split
    · exact .error (.collision _ _ (hstore ▸ henforced))
    · exact .ok ()
  · exact .ok ()

/-- A join has no end only where the relation has no name, or the other records no single id. -/
theorem failsOnly_joinEnd (hstore : store.schema = schema) (hmodel : model ∈ schema.models)
    (hfield : field ∈ model.relationFields) (hlinkage : schema.linkage? model field = none)
    (record : Record) :
    FailsOnly (WriteFault schema) (NestedWrites.joinEnd store model field record) := by
  unfold NestedWrites.joinEnd
  refine (hstore ▸ Schema.failsOnly_relatedModel hmodel hfield).bind fun related _ => ?_
  split
  · rename_i hname
    exact .error (.unnamed hmodel hfield hname hlinkage)
  · split
    · exact .ok _
    · exact .error (.arguments (Or.inr rfl))

end Store

end RecordStore
