import RecordStore.Proofs.Failure

/-!
# Where creates and updates store their record

Every create stores one record and every update one at most, in between the nested writes that come
first and those that wait.  A payload of plain fields has no nested writes, and then this is all
that happens: what the payload makes of a record does not depend on the store.
-/

namespace RecordStore

namespace Write

/-- Completes a record of given values, and stores it if it is free to be. -/
def complete (model : Model) (given : Record) : Write Record := do
  let record ← step (Store.materialize model given)
  require ((← get).checkUnique model record none)
  modify fun store => store.append model.name record
  return record

/-- Refreshes a revised record, and puts it in the place of the stored one. -/
def settle (model : Model) (written current revised : Record) : Write Record := do
  let next ← step (Store.refreshFields model written model.scalarFields revised)
  replaceStored model current next
  return next

variable {model : Model} {given written current revised record : Record} {store last : Store}

/-- Completing a record adds it behind those of its collection, or refuses to and has used up
    defaults at most. -/
theorem outcome_complete (model : Model) (given : Record) (store : Store) :
    (complete model given).outcome store =
      match (Store.materialize model given store).2.checkUnique model
          (Store.materialize model given store).1 none with
      | .ok _ => (.ok (Store.materialize model given store).1,
          (Store.materialize model given store).2.append model.name
            (Store.materialize model given store).1)
      | .error e => (.error e, (Store.materialize model given store).2) := by
  simp only [complete, outcome_bind, outcome_step, outcome_get, outcome_require, outcome_modify,
    outcome_pure]
  cases (Store.materialize model given store).2.checkUnique model
    (Store.materialize model given store).1 none <;> rfl

/-- A record that is completed has passed the check of unique groups, and is the last one of its
    collection. -/
theorem complete_ok (h : (complete model given).outcome store = (.ok record, last)) :
    record = (Store.materialize model given store).1 ∧
      (Store.materialize model given store).2.checkUnique model record none = .ok () ∧
      last = (Store.materialize model given store).2.append model.name record := by
  rw [outcome_complete] at h
  split at h
  · rename_i hfree
    obtain ⟨hrecord, rfl⟩ := Prod.mk.inj h
    obtain rfl := Except.ok.inj hrecord
    exact ⟨rfl, hfree, rfl⟩
  · cases (Prod.mk.inj h).1

/-- Replacing a record writes nothing if it stays the same; else it checks the unique groups and
    swaps the record, or refuses to and changes nothing. -/
theorem outcome_replaceStored (model : Model) (current next : Record) (store : Store) :
    (Record.same next current = true ∧
        (replaceStored model current next).outcome store = (.ok (), store)) ∨
      Record.same next current = false ∧
        ((∃ written, store.checkUnique model next (some current) = .ok () ∧
            store.swap model.name current next = some written ∧
            (replaceStored model current next).outcome store = (.ok (), written)) ∨
          ∃ e, (replaceStored model current next).outcome store = (.error e, store)) := by
  cases hsame : Record.same next current with
  | true => exact Or.inl ⟨rfl, by rw [replaceStored, if_pos hsame, outcome_pure]⟩
  | false =>
      refine Or.inr ⟨rfl, ?_⟩
      rw [replaceStored, hsame, if_neg Bool.false_ne_true, outcome_bind_get, outcome_bind,
        outcome_require]
      cases store.checkUnique model next (some current) with
      | error e => exact Or.inr ⟨e, rfl⟩
      | ok _ =>
          dsimp only
          rw [outcome_bind_get]
          cases store.swap model.name current next with
          | none => exact Or.inr ⟨_, rfl⟩
          | some written => exact Or.inl ⟨written, rfl, rfl, rfl⟩

/-- A record that replaces the stored one has passed the check of unique groups; one that is the
    same is not written. -/
theorem replaceStored_ok (h : (replaceStored model current record).outcome store = (.ok (), last)) :
    (Record.same record current = true ∧ last = store) ∨
      (Record.same record current = false ∧
        store.checkUnique model record (some current) = .ok () ∧
        store.swap model.name current record = some last) := by
  rcases outcome_replaceStored model current record store with
    ⟨hsame, hrun⟩ | ⟨hdiffers, ⟨written, hfree, hswap, hrun⟩ | ⟨e, hrun⟩⟩
  · exact Or.inl ⟨hsame, congrArg Prod.snd (h.symm.trans hrun)⟩
  · obtain rfl : last = written := congrArg Prod.snd (h.symm.trans hrun)
    exact Or.inr ⟨hdiffers, hfree, hswap⟩
  · rw [hrun] at h
    cases h

/-- A revised record is refreshed, and then it replaces the stored one. -/
theorem settle_ok (h : (settle model written current revised).outcome store = (.ok record, last)) :
    record = (Store.refreshFields model written model.scalarFields revised store).1 ∧
      (replaceStored model current record).outcome
        (Store.refreshFields model written model.scalarFields revised store).2 = (.ok (), last) := by
  obtain ⟨next, supplied, hnext, hrest⟩ := outcome_bind_ok h
  rw [outcome_step] at hnext
  obtain ⟨hresult, rfl⟩ := Prod.mk.inj hnext
  obtain rfl := Except.ok.inj hresult
  obtain ⟨_, stored, hstored, hrest⟩ := outcome_bind_ok hrest
  obtain ⟨hrecord, rfl⟩ := Prod.mk.inj hrest
  exact ⟨(Except.ok.inj hrecord).symm, Except.ok.inj hrecord ▸ hstored⟩

end Write

namespace NestedWrites

open Write

/-- A create gathers its payload, stores the record, and runs the writes that wait. -/
theorem createStep_eq (nested : NestedWrites) (model : Model) (data : Record) :
    nested.createStep model data = do
      let draft ← data.foldlM
        (fun draft (key, value) => nested.draftStep model draft key value) {}
      let record ← complete model draft.given
      draft.deferred.forM fun (field, operations) =>
        nested.writeRelated model field operations record
      return record := by
  simp only [createStep, complete, bind_assoc, pure_bind]

/-- An update gathers its payload, replaces the record, deletes the orphans, and runs the writes
    that wait. -/
theorem updateStep_eq (nested : NestedWrites) (model : Model) (current data : Record) :
    nested.updateStep model current data = do
      let revision ← data.foldlM
        (fun revision (key, value) => nested.revisionStep model revision key value)
        { next := current }
      let next ← settle model data current revision.next
      revision.orphans.forM fun (field, target) => do
        deleteRecord (← require ((← get).schema.relatedModel field)) target
      revision.deferred.forM fun (field, operations) =>
        nested.writeRelated model field operations next
      return next := by
  simp only [updateStep, settle, bind_assoc, pure_bind]

/-- The creates and updates that a payload may ask for when it is itself created or written. -/
def inPayload (data : Record) : NestedWrites := within (Value.fieldsDepth data + carriedDepth)

/-- A create of any payload is one of some depth. -/
theorem createRecord_eq (model : Model) (data : Record) :
    ∃ nested : NestedWrites, Write.createRecord model data = nested.createStep model data :=
  ⟨_, rfl⟩

/-- An update by any payload is one of some depth. -/
theorem updateRecord_eq (model : Model) (current data : Record) :
    ∃ nested : NestedWrites,
      Write.updateRecord model current data = nested.updateStep model current data := ⟨_, rfl⟩

end NestedWrites

/-! ## Payloads of plain fields -/

namespace Model

/-- The values that a payload of plain fields gives a new record. -/
def given (model : Model) (data : Record) : Record :=
  data.foldl (fun acc (key, value) =>
    match model.field? key with
    | none => acc
    | some field => Entries.insert key (field.created value) acc) []

/-- A record as a payload of plain fields revises it. -/
def revised (model : Model) (data : Record) (record : Record) : Except Error Record :=
  data.foldlM (fun next (key, value) =>
    match model.field? key with
    | none => .ok next
    | some field => do
        return Entries.insert key (← field.updated (Record.valueAt key next) value) next) record

/-- A payload leaves alone what it does not name. -/
theorem get?_revised_of_notMem {model : Model} {name : String} {data record next : Record}
    (hname : name ∉ Entries.keys data) (h : model.revised data record = .ok next) :
    Entries.get? name next = Entries.get? name record := by
  induction data generalizing record with
  | nil => rw [Except.ok.inj h]
  | cons entry rest ih =>
      obtain ⟨key, value⟩ := entry
      obtain ⟨hne, hrest⟩ := not_or.mp (mt List.mem_cons.mpr hname)
      rw [revised, List.foldlM_cons] at h
      cases hfield : model.field? key with
      | none =>
          simp only [hfield] at h
          exact ih hrest h
      | some field =>
          cases hupdated : field.updated (Record.valueAt key record) value with
          | error e =>
              simp only [hfield, hupdated] at h
              cases h
          | ok updated =>
              simp only [hfield, hupdated] at h
              rw [ih hrest h, Entries.get?_insert_of_ne hne]

/-- The same of its value. -/
theorem valueAt_revised_of_notMem {model : Model} {name : String} {data record next : Record}
    (hname : name ∉ Entries.keys data) (h : model.revised data record = .ok next) :
    Record.valueAt name next = Record.valueAt name record := by
  rw [Record.valueAt, get?_revised_of_notMem hname h, Record.valueAt]

end Model

namespace NestedWrites

open Write

variable {nested : NestedWrites} {model : Model} {data : Record}

theorem foldlM_draftStep_scalar (nested : NestedWrites) (hscalar : model.ScalarPayload data)
    (draft : Draft) :
    data.foldlM (fun draft (key, value) => nested.draftStep model draft key value) draft =
      pure { draft with
        given := data.foldl (fun acc (key, value) =>
          match model.field? key with
          | none => acc
          | some field => Entries.insert key (field.created value) acc) draft.given } := by
  induction data generalizing draft with
  | nil => rfl
  | cons entry rest ih =>
      obtain ⟨key, value⟩ := entry
      obtain ⟨hkey, hrest⟩ := List.forall_mem_cons.mp hscalar
      rw [List.foldlM_cons, List.foldl_cons]
      dsimp only at hkey ⊢
      cases hfield : model.field? key with
      | none =>
          simp only [draftStep, hfield, pure_bind]
          exact ih hrest draft
      | some field =>
          rw [hfield] at hkey
          have hplain : field.isRelation = false := Bool.not_eq_true' _ ▸ hkey
          simp only [draftStep, hfield, hplain, Bool.false_eq_true, if_false, pure_bind]
          exact ih hrest _

/-- A create from a payload of plain fields stores a record of the values given. -/
theorem createStep_of_scalar (nested : NestedWrites) (hscalar : model.ScalarPayload data) :
    nested.createStep model data = complete model (model.given data) := by
  rw [createStep_eq, foldlM_draftStep_scalar nested hscalar, pure_bind]
  exact bind_pure _

theorem foldlM_revisionStep_scalar (nested : NestedWrites) (hscalar : model.ScalarPayload data)
    (revision : Revision) :
    data.foldlM (fun revision (key, value) => nested.revisionStep model revision key value)
        revision =
      require ((model.revised data revision.next).map fun next => { revision with next }) := by
  induction data generalizing revision with
  | nil => rfl
  | cons entry rest ih =>
      obtain ⟨key, value⟩ := entry
      obtain ⟨hkey, hrest⟩ := List.forall_mem_cons.mp hscalar
      rw [List.foldlM_cons, Model.revised, List.foldlM_cons]
      dsimp only at hkey ⊢
      cases hfield : model.field? key with
      | none =>
          simp only [revisionStep, hfield, pure_bind]
          exact ih hrest revision
      | some field =>
          rw [hfield] at hkey
          have hplain : field.isRelation = false := Bool.not_eq_true' _ ▸ hkey
          simp only [revisionStep, hfield, hplain, Bool.false_eq_true, if_false]
          cases hupdated : field.updated (Record.valueAt key revision.next) value with
          | error e => rfl
          | ok updated => exact ih hrest _

/-- An update by a payload of plain fields puts the revised record in the place of the stored one,
    unless the payload is refused. -/
theorem updateStep_of_scalar (nested : NestedWrites) (hscalar : model.ScalarPayload data)
    (current : Record) :
    nested.updateStep model current data =
      require (model.revised data current) >>= settle model data current := by
  rw [updateStep_eq, foldlM_revisionStep_scalar nested hscalar]
  cases model.revised data current with
  | error e => rfl
  | ok next => exact bind_pure (settle model data current next)

end NestedWrites

end RecordStore
