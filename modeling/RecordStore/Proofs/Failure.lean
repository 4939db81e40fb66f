import RecordStore.Proofs.Delete.Termination
import RecordStore.Proofs.Write.Supply

/-!
# Calls that fail

A call on one record without nested writes writes at most once, and everything that can fail comes
before that write, except the shaping of the answer.  A failed call therefore leaves the data as
it was, unless the record was written and its answer could not be shaped.  Deletes shape their
answer first, so that they are never caught halfway.
-/

namespace RecordStore

namespace Store

variable {store supplied next : Store}

/-- The collections decide what each of them holds. -/
theorem items_congr (h : next.collections = store.collections) (name : String) :
    next.items name = store.items name := by
  unfold items
  rw [h]

/-- Adding a record changes the collections. -/
theorem collections_append_ne (h : Supplied store supplied) (name : String) (record : Record) :
    (supplied.append name record).collections ≠ store.collections := by
  obtain ⟨counters, entropy, rfl⟩ := h
  intro heq
  have hitems : store.items name ++ [record] = store.items name :=
    (items_replaceCollection_self { store with counters, entropy } name _).symm.trans
      (items_congr heq name)
  have hlength := congrArg List.length hitems
  rw [List.length_append, List.length_singleton] at hlength
  omega

/-- So does swapping a record for one that is not equal to it. -/
theorem collections_swap_ne (h : Supplied store supplied) {name : String}
    {current record : Record} (hdiffers : Record.same record current = false)
    (hswap : supplied.swap name current record = some next) :
    next.collections ≠ store.collections := by
  obtain ⟨counters, entropy, rfl⟩ := h
  obtain ⟨records, hreplaced, rfl⟩ := Option.map_eq_some_iff.mp hswap
  obtain ⟨before, old, later, hitems, -, hsame, rfl⟩ := split_of_replaceFirst hreplaced
  intro heq
  have hwritten : before ++ record :: later = store.items name :=
    (items_replaceCollection_self { store with counters, entropy } name _).symm.trans
      (items_congr heq name)
  -- the record that was replaced would be the new one, which is not equal to the current one
  have hrecord : record = old :=
    (List.cons.inj (List.append_cancel_left (hwritten.trans hitems))).1
  rw [hrecord, hsame] at hdiffers
  cases hdiffers

/-- What is left of a store: other collections, when something was written, and else everything
    but the counters and the source of random digits. -/
def Left (store : Store) : Bool → Store → Prop
  | true, next => next.collections ≠ store.collections
  | false, next => Supplied store next

end Store

/-- A payload that names no relation of a model. -/
def Model.ScalarPayload (model : Model) (data : Record) : Prop :=
  ∀ entry ∈ data, ((model.field? entry.1).all fun field => !field.isRelation) = true

instance (model : Model) (data : Record) : Decidable (model.ScalarPayload data) :=
  inferInstanceAs (Decidable (∀ entry ∈ data,
    ((model.field? entry.1).all fun field => !field.isRelation) = true))

open Store Write

/-! ## One write -/

namespace Write

/-- Replacing a record fails before it does, or has replaced the record, unless it stays the
    same. -/
theorem replaceStored_ends {store : Store} (model : Model) (current record : Record) :
    Triple (Supplied store) (replaceStored model current record)
      (fun _ => store.Left (!Record.same record current)) fun _ => Supplied store := by
  unfold replaceStored
  cases hsame : Record.same record current with
  | true => exact Triple.pure fun _ hsupplied => hsupplied
  | false =>
    rw [if_neg Bool.false_ne_true]
    refine Triple.bind_get fun supplied hsupplied => ?_
    refine Triple.bind_require (fun _ _ => ?_) fun _ _ next hnext => hnext ▸ hsupplied
    refine Triple.bind_get fun found hfound => ?_
    rw [hfound]
    cases hswap : supplied.swap model.name current record with
    | none => exact Triple.throw fun next hnext => hnext ▸ hfound ▸ hsupplied
    | some next =>
        exact Triple.set fun _ _ => collections_swap_ne hsupplied hsame hswap

end Write

namespace NestedWrites

variable {nested : NestedWrites} {model : Model} {store : Store}

/-- A key of a scalar payload is gathered without a look at the store. -/
theorem draftStep_scalar (nested : NestedWrites) {key : String}
    (hkey : ((model.field? key).all fun field => !field.isRelation) = true) {draft : Draft}
    (hdraft : draft.deferred = []) (value : Value) :
    ∃ next, nested.draftStep model draft key value = pure next ∧ next.deferred = [] := by
  unfold draftStep
  cases hfield : model.field? key with
  | none => exact ⟨draft, rfl, hdraft⟩
  | some field =>
      rw [hfield] at hkey
      have hscalar : field.isRelation = false := Bool.not_eq_true' _ ▸ hkey
      refine ⟨{ draft with given := Entries.insert key (field.created value) draft.given }, ?_,
        hdraft⟩
      simp only [hscalar, Bool.false_eq_true, if_false]

/-- A create from a scalar payload fails before it adds its record, or has added it. -/
theorem createStep_scalar {data : Record} (hscalar : model.ScalarPayload data) :
    Triple (fun current => current = store) (nested.createStep model data)
      (fun _ => store.Left true) fun _ => Supplied store := by
  refine Triple.bind (M := fun (draft : Draft) next => draft.deferred = [] ∧ next = store) ?_
    fun draft => Triple.assuming fun hdraft => ?_
  · -- nothing waits and nothing happens while the payload is gathered
    refine (Triple.foldlM (fun (draft : Draft) next => draft.deferred = [] ∧ next = store) data {}
      fun draft entry hentry => ?_).weaken (fun _ hstore => ⟨rfl, hstore⟩) fun _ _ h => h
    refine Triple.assuming fun hdraft => ?_
    obtain ⟨key, value⟩ := entry
    have hkey : ((model.field? key).all fun field => !field.isRelation) = true :=
      hscalar _ hentry
    obtain ⟨next, hstep, hnext⟩ := draftStep_scalar nested hkey hdraft value
    show Triple _ (nested.draftStep model draft key value) _ _
    rw [hstep]
    exact Triple.pure fun _ hstore => ⟨hnext, hstore⟩
  · refine Triple.bind (M := fun _ => Supplied store) (Triple.step fun found hfound => ?_)
      fun record => ?_
    · rw [hfound]
      exact supplied_materialize model draft.given store
    · refine Triple.bind_get fun supplied hsupplied => ?_
      refine Triple.bind_require (fun _ _ => ?_) fun _ _ next hnext => hnext ▸ hsupplied
      refine Triple.bind (M := fun _ => store.Left true) (Triple.modify fun next hnext => ?_)
        fun _ => ?_
      · rw [hnext]
        exact collections_append_ne hsupplied model.name record
      · rw [hdraft]
        exact Triple.pure fun _ h => h

/-- A key of a scalar payload is gathered, or refused, without a look at the store. -/
theorem revisionStep_scalar (nested : NestedWrites) {key : String}
    (hkey : ((model.field? key).all fun field => !field.isRelation) = true) {revision : Revision}
    (hdeferred : revision.deferred = []) (horphans : revision.orphans = []) (value : Value) :
    ∃ updated : Except Error Revision,
      nested.revisionStep model revision key value = require updated ∧
        ∀ next, updated = .ok next → next.deferred = [] ∧ next.orphans = [] := by
  unfold revisionStep
  cases hfield : model.field? key with
  | none => exact ⟨.ok revision, rfl, fun next h => Except.ok.inj h ▸ ⟨hdeferred, horphans⟩⟩
  | some field =>
      rw [hfield] at hkey
      have hscalar : field.isRelation = false := Bool.not_eq_true' _ ▸ hkey
      simp only [hscalar, Bool.false_eq_true, if_false]
      -- arithmetic may refuse the value
      cases hupdated : field.updated (Record.valueAt key revision.next) value with
      | error e => exact ⟨.error e, rfl, fun next h => by cases h⟩
      | ok updated =>
          exact ⟨.ok { revision with next := Entries.insert key updated revision.next }, rfl,
            fun next h => Except.ok.inj h ▸ ⟨hdeferred, horphans⟩⟩

/-- An update by a scalar payload fails before it replaces its record, or has replaced it.  It
    need not replace a record that stays the same. -/
theorem updateStep_scalar {current data : Record} (hscalar : model.ScalarPayload data) :
    Triple (fun current => current = store) (nested.updateStep model current data)
      (fun record => store.Left !Record.same record current) fun _ => Supplied store := by
  refine Triple.bind (M := fun (revision : Revision) next =>
    (revision.deferred = [] ∧ revision.orphans = []) ∧ next = store) ?_
    fun revision => Triple.assuming fun hempty => ?_
  · refine (Triple.foldlM (fun (revision : Revision) next =>
      (revision.deferred = [] ∧ revision.orphans = []) ∧ next = store) data _
      fun revision entry hentry => ?_).weaken (fun _ hstore => ⟨⟨rfl, rfl⟩, hstore⟩)
      fun _ _ h => h
    refine Triple.assuming fun hempty => ?_
    obtain ⟨key, value⟩ := entry
    have hkey : ((model.field? key).all fun field => !field.isRelation) = true :=
      hscalar _ hentry
    obtain ⟨updated, hstep, hnext⟩ :=
      revisionStep_scalar nested hkey hempty.1 hempty.2 value
    show Triple _ (nested.revisionStep model revision key value) _ _
    rw [hstep]
    intro found hfound
    rw [outcome_require]
    cases updated with
    | error e =>
        rw [hfound]
        exact Supplied.refl
    | ok revision => exact ⟨hnext revision rfl, hfound⟩
  · obtain ⟨hdeferred, horphans⟩ := hempty
    refine Triple.bind (M := fun _ => Supplied store) (Triple.step fun found hfound => ?_)
      fun record => ?_
    · rw [hfound]
      exact supplied_refreshFields model data _ revision.next store
    · rw [hdeferred, horphans]
      refine Triple.bind (replaceStored_ends model current record) fun _ => ?_
      exact Triple.pure fun _ h => h

end NestedWrites

namespace Write

variable {model : Model} {store : Store}

theorem createRecord_scalar {data : Record} (hscalar : model.ScalarPayload data) :
    Triple (fun current => current = store) (createRecord model data)
      (fun _ => store.Left true) fun _ => Supplied store :=
  NestedWrites.createStep_scalar hscalar

theorem updateRecord_scalar {current data : Record} (hscalar : model.ScalarPayload data) :
    Triple (fun current => current = store) (updateRecord model current data)
      (fun record => store.Left !Record.same record current) fun _ => Supplied store :=
  NestedWrites.updateStep_scalar hscalar

end Write

/-! ## Calls on one record -/

/-- What a call has come to when its answer is to be shaped: how, from which record, and whether
    the record has just been written. -/
structure Pending where
  projection : Projection
  record : Record
  written : Bool

/-- The calls on one record. -/
inductive RecordCall where
  | create
  | update
  | upsert
  | delete
  deriving DecidableEq, Repr

namespace RecordCall

/-- A call on a model. -/
def write : RecordCall → Model → Value → Write Record
  | .create => Write.create
  | .update => Write.update
  | .upsert => Write.upsert
  | .delete => Write.delete

/-- The payloads of a call name no relation. -/
def ScalarPayloads : RecordCall → Model → Value → Prop
  | .create, model, args =>
      ∀ parsed, Arguments.create args = .ok parsed → model.ScalarPayload parsed.data
  | .update, model, args =>
      ∀ parsed, Arguments.update args = .ok parsed → model.ScalarPayload parsed.data
  | .upsert, model, args =>
      ∀ parsed, Arguments.upsert args = .ok parsed →
        model.ScalarPayload parsed.create ∧ model.ScalarPayload parsed.update
  | .delete, _, _ => True

/-- What a call does before its answer is shaped. -/
def prepare : RecordCall → Model → Value → Write Pending
  | .create, model, args => do
      let args ← require (Arguments.create args)
      require args.projection.check
      let record ← createRecord model args.data
      return ⟨args.projection, record, true⟩
  | .update, model, args => do
      let args ← require (Arguments.update args)
      require args.projection.check
      let current ← target model args.filter .toUpdate
      let record ← updateRecord model current args.data
      return ⟨args.projection, record, !Record.same record current⟩
  | .upsert, model, args => do
      let args ← require (Arguments.upsert args)
      require args.projection.check
      match (← get).first? model args.filter with
      | some current =>
          let record ← updateRecord model current args.update
          return ⟨args.projection, record, !Record.same record current⟩
      | none =>
          let record ← createRecord model args.create
          return ⟨args.projection, record, true⟩
  | .delete, model, args => do
      let args ← require (Arguments.delete args)
      require args.projection.check
      let record ← target model args.filter .toDelete
      return ⟨args.projection, record, false⟩

/-- What a call does from then on. -/
def finish : RecordCall → Model → Pending → Write Record
  | .delete, model, pending => do
      let answer ← shaped pending.projection model pending.record
      deleteRecord model pending.record
      return answer
  | _, model, pending => shaped pending.projection model pending.record

/-- A call is its preparation and what it does from then on. -/
theorem write_eq (call : RecordCall) (model : Model) (args : Value) :
    call.write model args = call.prepare model args >>= call.finish model := by
  cases call with
  | create => simp only [write, prepare, Write.create, bind_assoc, pure_bind, finish]
  | update => simp only [write, prepare, Write.update, bind_assoc, pure_bind, finish]
  | upsert =>
      simp only [write, prepare, Write.upsert, bind_assoc]
      refine bind_congr fun args => bind_congr fun _ => bind_congr fun found => ?_
      cases found.first? model args.filter <;> simp only [bind_assoc, pure_bind, finish]
  | delete => simp only [write, prepare, Write.delete, bind_assoc, pure_bind, finish]

/-! ### Up to the answer -/

variable {call : RecordCall} {model : Model} {args : Value} {store : Store}

theorem target_ends (filter : Option Record) (cause : MissingRecord) :
    Triple (fun current => current = store) (target model filter cause)
      (fun _ current => current = store) fun _ => Supplied store := by
  refine Triple.bind_get fun found hfound => ?_
  rw [hfound]
  cases store.first? model filter with
  | none => exact Triple.throw fun next hnext => hnext ▸ Supplied.refl
  | some record => exact Triple.pure fun _ h => h

/-- What a call does before its answer is shaped has written a record as it says, or fails and has
    written none. -/
theorem prepare_ends (hscalar : call.ScalarPayloads model args) (store : Store) :
    Triple (fun current => current = store) (call.prepare model args)
      (fun pending => store.Left pending.written) fun _ => Supplied store := by
  have hfails {α : Type} (r : Except Error α) (e : Error) (_ : r = .error e) :
      ∀ next, next = store → Supplied store next := fun _ hnext => hnext ▸ Supplied.refl
  cases call with
  | create =>
      refine Triple.bind_require (fun parsed hparsed => ?_) (hfails _)
      refine Triple.bind_require (fun _ _ => ?_) (hfails _)
      refine Triple.bind (createRecord_scalar (hscalar parsed hparsed)) fun record => ?_
      exact Triple.pure fun _ h => h
  | update =>
      refine Triple.bind_require (fun parsed hparsed => ?_) (hfails _)
      refine Triple.bind_require (fun _ _ => ?_) (hfails _)
      refine Triple.bind (target_ends _ _) fun current => ?_
      refine Triple.bind (updateRecord_scalar (hscalar parsed hparsed)) fun record => ?_
      exact Triple.pure fun _ h => h
  | upsert =>
      refine Triple.bind_require (fun parsed hparsed => ?_) (hfails _)
      refine Triple.bind_require (fun _ _ => ?_) (hfails _)
      obtain ⟨hcreate, hupdate⟩ := hscalar parsed hparsed
      refine Triple.bind_get fun found hfound => ?_
      rw [hfound]
      cases store.first? model parsed.filter with
      | some current =>
          refine Triple.bind (updateRecord_scalar hupdate) fun record => ?_
          exact Triple.pure fun _ h => h
      | none =>
          refine Triple.bind (createRecord_scalar hcreate) fun record => ?_
          exact Triple.pure fun _ h => h
  | delete =>
      refine Triple.bind_require (fun parsed hparsed => ?_) (hfails _)
      refine Triple.bind_require (fun _ _ => ?_) (hfails _)
      refine Triple.bind (target_ends _ _) fun record => ?_
      exact Triple.pure fun _ hnext => hnext ▸ Supplied.refl

/-! ### From the answer on -/

/-- An answer that cannot be shaped fails the call on the store as it then stands. -/
theorem finish_of_error (call : RecordCall) {pending : Pending} {next : Store} {e : Error}
    (h : pending.projection.shape next model pending.record = .error e) :
    (call.finish model pending).outcome next = (.error e, next) := by
  have hshaped : (shaped pending.projection model pending.record).outcome next =
      (.error e, next) := by
    show (require _).outcome next = _
    rw [h, outcome_require]
  cases call with
  | delete =>
      show (shaped _ _ _ >>= _).outcome next = _
      rw [outcome_bind, hshaped]
  | _ => exact hshaped

/-- Once the answer is shaped, nothing fails any more. -/
theorem finish_of_ok (call : RecordCall) {pending : Pending} {next : Store} {answer : Record}
    (h : pending.projection.shape next model pending.record = .ok answer) :
    ∃ last, (call.finish model pending).outcome next = (.ok answer, last) := by
  have hshaped : (shaped pending.projection model pending.record).outcome next =
      (.ok answer, next) := by
    show (require _).outcome next = _
    rw [h, outcome_require]
  cases call with
  | delete =>
      -- deletes have no failure of their own
      obtain ⟨_, last, hdelete⟩ := Shrinks.succeeds
        (fun bound => shrinks_deleteRecord bound model pending.record) next
      refine ⟨last, ?_⟩
      show (shaped _ _ _ >>= _).outcome next = _
      rw [outcome_bind, hshaped]
      show (deleteRecord _ _ >>= _).outcome next = _
      rw [outcome_bind, hdelete]
      rfl
  | _ => exact ⟨next, hshaped⟩

/-! ### Failures -/

/-- A call fails late when it has written a record whose answer it cannot shape. -/
def FailsLate (call : RecordCall) (model : Model) (args : Value) (store : Store) : Prop :=
  ∃ pending next e, (call.prepare model args).outcome store = (.ok pending, next) ∧
    pending.written = true ∧ pending.projection.shape next model pending.record = .error e

/-- A call without nested writes that fails has moved nothing but counters and the source of
    random digits, unless it fails late; and when it fails late the collections have changed. -/
theorem failed_keeps_data (hscalar : call.ScalarPayloads model args) (store : Store) :
    (¬call.FailsLate model args store → ∀ e next,
      (call.write model args).outcome store = (.error e, next) → Supplied store next) ∧
    (call.FailsLate model args store → ∃ e next,
      (call.write model args).outcome store = (.error e, next) ∧
        next.collections ≠ store.collections) := by
  have hprepare := prepare_ends hscalar store
  rw [write_eq]
  constructor
  · intro hlate e last hrun
    rw [outcome_bind] at hrun
    -- the call failed while it was prepared, or on its answer
    cases hpending : (call.prepare model args).outcome store with
    | mk result next =>
        rw [hpending] at hrun
        cases result with
        | error e =>
            have hnext : next = last := congrArg Prod.snd hrun
            rw [← hnext]
            exact hprepare.error rfl hpending
        | ok pending =>
            have hleft := hprepare.ok rfl hpending
            cases hshape : pending.projection.shape next model pending.record with
            | ok answer =>
                obtain ⟨after, hfinish⟩ := finish_of_ok call hshape
                cases hfinish.symm.trans hrun
            | error e =>
                have hfinish := (finish_of_error call hshape).symm.trans hrun
                have hnext : next = last := congrArg Prod.snd hfinish
                cases hwritten : pending.written with
                | true => exact absurd ⟨pending, next, e, hpending, hwritten, hshape⟩ hlate
                | false =>
                    rw [hwritten] at hleft
                    rw [← hnext]
                    exact hleft
  · rintro ⟨pending, next, e, hpending, hwritten, hshape⟩
    have hleft := hprepare.ok rfl hpending
    rw [hwritten] at hleft
    refine ⟨e, next, ?_, hleft⟩
    rw [outcome_bind, hpending]
    exact finish_of_error call hshape

end RecordCall

namespace Shelf

open RecordCall

/-- Notes that are told apart by their number. -/
def note : Model where
  name := "Note"
  fields := [{ name := "id", kind := .scalar, typeName := "Int", isId := true }]

def schema : Schema where
  options := {}
  models := [note]
  nodup_names := by decide
  targets_known := by decide

/-- A shelf with one note. -/
def store : Store :=
  { ofSchema schema 0 ⟨0⟩ with collections := [("Note", [[("id", .integer 1)]])] }

/-- A note with the number of its readers, of whom the schema knows nothing. -/
def withReaders (id : Int) : Value :=
  .object [("data", .object [("id", .integer id)]),
    ("include", .object [("_count", .object [("select",
      .object [("readers", .bool true)])])])]

theorem scalarPayloads_withReaders (id : Int) :
    RecordCall.create.ScalarPayloads note (withReaders id) := by
  intro parsed hparsed
  have hdata : parsed.data = [("id", .integer id)] :=
    congrArg CreateArguments.data (Except.ok.inj hparsed).symm
  rw [hdata]
  exact List.forall_mem_singleton.mpr rfl

/-- A new note is stored although its readers cannot be counted. -/
theorem create_second_note :
    ¬∀ (store : Store) (call : RecordCall) (model : Model) (args : Value),
      model ∈ store.schema.models → call.ScalarPayloads model args → ∀ e next,
        (call.write model args).outcome store = (.error e, next) →
          next.collections = store.collections ∧ next.joins = store.joins := by
  intro h
  have hfailed := h store .create note (withReaders 2) List.mem_cons_self
    (scalarPayloads_withReaders 2) (.unknownCount "readers" "Note")
    (store.append "Note" [("id", .integer 2)]) rfl
  cases hfailed.1

/-- A note with a number that is taken is refused, and the shelf stays as it is; a new note is
    put on the shelf before its answer fails. -/
theorem create_notes :
    RecordCall.create.ScalarPayloads note (withReaders 1) ∧
      ¬RecordCall.create.FailsLate note (withReaders 1) store ∧
      (∃ next, (RecordCall.create.write note (withReaders 1)).outcome store =
        (.error (.uniqueConstraint "Note" ["id"]), next) ∧ Supplied store next) ∧
      RecordCall.create.FailsLate note (withReaders 2) store ∧
      ∃ e next, (RecordCall.create.write note (withReaders 2)).outcome store =
        (.error e, next) ∧ next.collections ≠ store.collections := by
  have hprepare : (RecordCall.create.prepare note (withReaders 1)).outcome store =
      (.error (.uniqueConstraint "Note" ["id"]), store) := rfl
  have hearly : ¬RecordCall.create.FailsLate note (withReaders 1) store := by
    rintro ⟨pending, next, e, hpending, -⟩
    cases hprepare.symm.trans hpending
  have hlate : RecordCall.create.FailsLate note (withReaders 2) store :=
    ⟨_, _, _, rfl, rfl, rfl⟩
  have hrun : (RecordCall.create.write note (withReaders 1)).outcome store =
      (.error (.uniqueConstraint "Note" ["id"]), store) := rfl
  exact ⟨scalarPayloads_withReaders 1, hearly, ⟨store, hrun,
    (failed_keeps_data (scalarPayloads_withReaders 1) store).1 hearly _ _ hrun⟩, hlate,
    (failed_keeps_data (scalarPayloads_withReaders 2) store).2 hlate⟩

end Shelf

end RecordStore
