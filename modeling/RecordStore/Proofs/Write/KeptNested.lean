import RecordStore.Proofs.Write.Walk

/-!
# Upkeep through nested writes

Creates and updates of other records are given to a nested write; if they keep something up and
answer known records, then the nested write keeps it up too, through whichever kind of relation it
goes.  This is the walk through nested writes with one way of doing them, which may fail for
anything.  Creates and updates of a level are made of the nested writes of the level below, so every
payload is covered.
-/

namespace RecordStore

open Store Write

/-- Creates and updates that keep something up.  The record to be updated has to be known, and the
    one that is answered is. -/
structure NestedWrites.Keeps (u : Upkeep) (schema : Schema) (nested : NestedWrites) : Prop where
  create {model : Model} (data : Record) (store : Store) : model ∈ schema.models →
    u.Gives store (nested.create model data) fun record next => u.Knows next model record
  update {model : Model} {current : Record} (data : Record) (store : Store) :
    model ∈ schema.models → u.Knows store model current →
      u.Gives store (nested.update model current data) fun record next => u.Knows next model record

/-- They agree with themselves on whatever may be asked of them. -/
theorem NestedWrites.Keeps.agreeOn {u : Upkeep} {schema : Schema} {nested : NestedWrites}
    (h : nested.Keeps u schema) :
    AgreeOn u (fun _ => True) (Asking.all schema) nested nested where
  create store hmodel _ := (h.create _ store hmodel).alike
  update store hmodel _ hcurrent := (h.update _ store hmodel hcurrent).alike

/-- Writes that wait go through relation fields of the model. -/
def Deferred.Through (model : Model) (deferred : Deferred) : Prop :=
  ∀ later ∈ deferred, later.1 ∈ model.relationFields

/-- The writes of an update that wait, and its deletes, go through relation fields of the model. -/
structure Revision.Through (model : Model) (revision : Revision) : Prop where
  deferred : revision.deferred.Through model
  orphans : ∀ orphan ∈ revision.orphans, orphan.1 ∈ model.relationFields

/-- At first nothing waits. -/
theorem Revision.Through.start {model : Model} {current : Record} :
    ({ next := current } : Revision).Through model :=
  ⟨List.forall_mem_nil _, List.forall_mem_nil _⟩

/-- Where everything is given, nothing more is asked of writes that wait. -/
theorem Asking.waits_all {schema : Schema} {model : Model} {deferred : Deferred} :
    (Asking.all schema).Waits model deferred ↔ deferred.Through model :=
  ⟨fun h later hlater => (h later hlater).1, fun h later hlater => ⟨h later hlater, trivial⟩⟩

namespace Upkeep

open NestedWrites

variable {u : Upkeep} {schema : Schema} {store : Store} {model : Model}

/-- All records that a nested write has created are known in the end. -/
theorem gives_nestedCreateMany {nested : NestedWrites} (hnested : nested.Keeps u schema)
    (hmodel : model ∈ schema.models) (arg : Value) (scope : Record) :
    u.Gives store (nested.createMany model arg scope) fun records next =>
      ∀ record ∈ records, u.Knows next model record :=
  (alike_createMany hnested.agreeOn hmodel trivial fun _ _ => trivial).gives

variable (hlaws : u.Lawful schema)
include hlaws

/-- A fit record is known once it has replaced a known one, or is the same. -/
theorem gives_replaceStored (hmodel : model ∈ schema.models) {current record : Record}
    (hcurrent : u.Knows store model current) (hrecord : u.Admits model record) :
    u.Gives store (replaceStored model current record) fun _ next => u.Knows next model record :=
  (alike_replaceStored hlaws.allows hmodel hcurrent hrecord).gives

section

variable {nested : NestedWrites} (hnested : nested.Keeps u schema) (hmodel : model ∈ schema.models)
include hnested hmodel

/-- What a key of a payload leaves waiting goes through a relation field of the model. -/
theorem gives_draftStep {draft : Draft} (hdraft : draft.deferred.Through model) (key : String)
    (value : Value) : u.Gives store (nested.draftStep model draft key value)
      fun draft _ => draft.deferred.Through model :=
  (alike_draftStep hlaws.allows hnested.agreeOn hmodel (fun _ => trivial)
    (Asking.waits_all.mpr hdraft)).gives.imp fun _ _ _ => Asking.waits_all.mp

/-- So do all writes that a payload leaves waiting. -/
theorem gives_draft (data : Record) :
    u.Gives store
      (data.foldlM (fun draft (key, value) => nested.draftStep model draft key value) {})
      fun draft _ => draft.deferred.Through model :=
  (alike_draft hlaws.allows hnested.agreeOn hmodel fun _ _ _ => trivial).gives.imp
    fun _ _ _ => Asking.waits_all.mp

/-- The writes that wait start from a store that knows the record. -/
theorem keeps_deferred {deferred : Deferred} (hthrough : deferred.Through model) {record : Record}
    (hrecord : u.Knows store model record) :
    u.Keeps store (deferred.forM fun (field, operations) =>
      nested.writeRelated model field operations record) :=
  (alike_deferred hlaws.allows hnested.agreeOn hmodel (Asking.waits_all.mpr hthrough) hrecord).gives

/-- The record that a create answers is known. -/
theorem gives_createStep (data : Record) :
    u.Gives store (nested.createStep model data) fun record next => u.Knows next model record :=
  (alike_createStep hlaws.allows hnested.agreeOn hmodel fun _ _ _ => trivial).gives

/-- A record stays fit while it is revised, and what waits goes through relation fields. -/
theorem gives_revisionStep {revision : Revision} (hfit : u.Admits model revision.next)
    (hthrough : revision.Through model) (key : String) (value : Value) :
    u.Gives store (nested.revisionStep model revision key value)
      fun revision _ => u.Admits model revision.next ∧ revision.Through model := by
  have hsuits : revision.Suits u (Asking.all schema) model :=
    ⟨hfit, Asking.waits_all.mpr hthrough.deferred, hthrough.orphans⟩
  refine (alike_revisionStep hlaws.allows hnested.agreeOn hmodel (fun _ => trivial) hsuits).gives.imp
    fun _ _ _ hrevised => ⟨hrevised.fit, Asking.waits_all.mp hrevised.waits, hrevised.orphans⟩

end

/-- Creates and updates of any depth keep up what is lawful. -/
theorem keeps_within (depth : Nat) : (within depth).Keeps u schema := by
  have hwithin := agreeOn_within hlaws.allows trivial depth
  exact ⟨fun data store hmodel => (hwithin.create store hmodel trivial).gives,
    fun data store hmodel hcurrent => (hwithin.update store hmodel trivial hcurrent).gives⟩

section

variable (hmodel : model ∈ schema.models)
include hmodel

/-- The record that a payload creates is known. -/
theorem gives_createRecord (data : Record) :
    u.Gives store (createRecord model data) fun record next => u.Knows next model record :=
  (alike_createRecord hlaws.allows trivial hmodel data).gives

/-- So is the record that it updates. -/
theorem gives_updateRecord {current : Record} (hcurrent : u.Knows store model current)
    (data : Record) :
    u.Gives store (updateRecord model current data) fun record next => u.Knows next model record :=
  (alike_updateRecord hlaws.allows trivial hmodel hcurrent data).gives

end

end Upkeep

end RecordStore
