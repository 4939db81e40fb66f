import RecordStore.Proofs.Identity
import RecordStore.Proofs.Relation.JoinLinks
import RecordStore.Proofs.Write.OwnedDelete

/-!
# Updates of linked records

An update through a relation narrows the filter of each of its entries to the records that are
linked, and looks every record that satisfies it up again by its id.  Earlier entries may have
changed what is linked; but a record that is not linked from the start neither satisfies the scope
later, since nothing rewrites it, nor is it found under the id of another one.
-/

namespace RecordStore

/-! ## Lists position by position -/

namespace Store

variable {R : Record → Record → Prop} {olds records replaced : List Record}
variable {current next record : Record}

/-- A record that equals none of some records is none of them. -/
theorem notMem_of_any_same (hself : Record.same record record = true)
    (h : records.any (Record.same record) = false) : record ∉ records :=
  fun hmem => List.any_eq_false.mp h record hmem hself

/-- What is in the second list has a counterpart in the first. -/
theorem exists_of_forall₂ (h : List.Forall₂ R olds records) (hrecord : record ∈ records) :
    ∃ old ∈ olds, R old record := by
  induction h with
  | nil => cases hrecord
  | @cons old new olds records hfirst _ ih =>
      rcases List.mem_cons.mp hrecord with rfl | hmem
      · exact ⟨old, List.mem_cons_self, hfirst⟩
      · obtain ⟨other, hother, hpair⟩ := ih hmem
        exact ⟨other, List.mem_cons_of_mem _ hother, hpair⟩

/-- Replacing a record keeps a relation that holds of the new record wherever it held of the one that
    is replaced. -/
theorem forall₂_replaceFirst (h : List.Forall₂ R olds records)
    (hnew : ∀ old ∈ olds, ∀ record, R old record → Record.same record current = true → R old next)
    (hreplace : replaceFirst current next records = some replaced) :
    List.Forall₂ R olds replaced := by
  induction h generalizing replaced with
  | nil => cases hreplace
  | @cons old record olds records hfirst hrest ih =>
      obtain ⟨hold, holds⟩ := List.forall_mem_cons.mp hnew
      rw [replaceFirst] at hreplace
      split at hreplace
      · rename_i hsame
        rw [← Option.some.inj hreplace]
        exact .cons (hold record hfirst hsame) hrest
      · obtain ⟨others, hothers, rfl⟩ := Option.map_eq_some_iff.mp hreplace
        exact .cons hfirst (ih holds hothers)

end Store

/-! ## Records that are spared -/

namespace Store

open NestedWrites Write

/-- An id is that of a stored record that is not linked. -/
def Strange (origin : Store) (related : Model) (linked : Record → Prop) (id : Value) : Prop :=
  ∃ other ∈ origin.items related.name, ¬ linked other ∧
    Value.same (related.recordId other) id = true

/-- A record has an id, and not that of a record that is not linked. -/
def Own (origin : Store) (related : Model) (linked : Record → Prop) (record : Record) : Prop :=
  (related.recordId record).isNull = false ∧ ¬ origin.Strange related linked (related.recordId record)

/-- A store in which the records of a model stand as they stood, but for those that were linked; and
    these have ids of their own. -/
structure Spared (origin : Store) (related : Model) (linked : Record → Prop) (store : Store) :
    Prop where
  schema_eq : store.schema = origin.schema
  joins_eq : store.joins = origin.joins
  records : List.Forall₂
    (fun old new => (¬ linked old → new = old) ∧ (linked old → origin.Own related linked new))
    (origin.items related.name) (store.items related.name)

variable {origin store supplied written : Store} {related : Model} {linked : Record → Prop}
variable {idField : String} {target next record data scope : Record}

/-- An id that is the same as one's own is one's own. -/
theorem Own.of_same (h : origin.Own related linked target)
    (hsame : Value.same (related.recordId record) (related.recordId target) = true) :
    origin.Own related linked record := by
  refine ⟨(Value.isNull_of_same hsame).trans h.1, fun ⟨other, hother, hnot, hid⟩ => h.2 ?_⟩
  exact ⟨other, hother, hnot, Value.same_trans _ _ _ hid hsame⟩

namespace Spared

/-- Records whose ids are different have ids of their own. -/
theorem refl (hids : ∀ record ∈ origin.items related.name, related.HasId record)
    (hapart : (origin.items related.name).Pairwise fun a b =>
      Value.same (related.recordId a) (related.recordId b) = false) :
    origin.Spared related linked origin := by
  refine ⟨rfl, rfl, List.forall₂_same.mpr fun record hrecord => ⟨fun _ => rfl, fun hlinked =>
    ⟨(hids record hrecord).isNull_recordId, fun ⟨other, hother, hnot, hsame⟩ => ?_⟩⟩⟩
  have hsymm : Std.Symm fun a b : Record =>
      Value.same (related.recordId a) (related.recordId b) = false :=
    ⟨fun a b h => Bool.eq_false_iff.mpr fun hback => by
      rw [Value.same_symm _ _ hback] at h
      cases h⟩
  have hne : other ≠ record := fun heq => hnot (heq ▸ hlinked)
  rw [hapart.forall hother hrecord hne] at hsame
  cases hsame

theorem of_supplied (h : origin.Spared related linked store) (hsupplied : Supplied store supplied) :
    origin.Spared related linked supplied := by
  obtain ⟨counters, entropy, rfl⟩ := hsupplied
  exact ⟨h.schema_eq, h.joins_eq, h.records⟩

/-- A record that is not linked is still there. -/
theorem mem (h : origin.Spared related linked store) (hrecord : record ∈ origin.items related.name)
    (hnot : ¬ linked record) : record ∈ store.items related.name := by
  obtain ⟨new, hnew, hpair⟩ := exists_of_forall₂ h.records.flip hrecord
  exact hpair.1 hnot ▸ hnew

/-- A record that is there has been there unlinked, or has an id of its own. -/
theorem mem_or_own (h : origin.Spared related linked store)
    (hrecord : record ∈ store.items related.name) :
    (record ∈ origin.items related.name ∧ ¬ linked record) ∨ origin.Own related linked record := by
  obtain ⟨old, hold, hkept, hown⟩ := exists_of_forall₂ h.records hrecord
  by_cases hlinked : linked old
  · exact Or.inr (hown hlinked)
  · obtain rfl := hkept hlinked
    exact Or.inl ⟨hold, hlinked⟩

/-- Swapping a record with an id of its own for another one spares the others. -/
theorem swap (h : origin.Spared related linked store) (htarget : origin.Own related linked target)
    (hnext : origin.Own related linked next)
    (hswap : store.swap related.name target next = some written) :
    origin.Spared related linked written := by
  obtain ⟨replaced, hreplaced, rfl⟩ := Option.map_eq_some_iff.mp hswap
  refine ⟨h.schema_eq, h.joins_eq, ?_⟩
  rw [items_replaceCollection_self]
  refine forall₂_replaceFirst h.records (fun old hold found hfound hsame => ?_) hreplaced
  refine ⟨fun hnot => absurd ⟨old, hold, hnot, ?_⟩ htarget.2, fun _ => hnext⟩
  rw [← hfound.1 hnot]
  exact related.recordId_of_same hsame

/-- What has passed the check of unique groups has an id of its own. -/
theorem own_of_checkUnique (h : origin.Spared related linked store)
    (henforced : origin.schema.options.enforceUnique = true) (hid : related.idFields = [idField])
    (hids : ∀ record ∈ origin.items related.name, related.HasId record)
    (htarget : origin.Own related linked target) (hnull : (related.recordId next).isNull = false)
    (hfree : store.checkUnique related next (some target) = .ok ()) :
    origin.Own related linked next := by
  refine ⟨hnull, fun ⟨other, hother, hnot, hsame⟩ => ?_⟩
  -- the other record is still there, it is not the target, and it would collide with the new one
  refine not_collide_of_checkUnique (h.schema_eq ▸ henforced) hfree
    (Model.mem_uniqueConstraints hid) (h.mem hother hnot) (fun previous hprevious => ?_) ?_
  · obtain rfl := Option.some.inj hprevious
    refine Bool.eq_false_iff.mpr fun hequal => htarget.2 ⟨other, hother, hnot, ?_⟩
    exact related.recordId_of_same (Record.same_symm hequal)
  · rw [Model.recordId_of_idFields hid, Model.recordId_of_idFields hid] at hsame
    intro field hfield
    obtain rfl := List.mem_singleton.mp hfield
    obtain ⟨hnull', hself⟩ := (hids other hother).values field (hid ▸ hfield)
    exact ⟨hnull', Model.recordId_of_idFields hid next ▸ hnull,
      Value.equalsPlain_of_same hsame hself⟩

/-! ## Updating what has an id of its own -/

section

variable (hid : related.idFields = [idField])
variable (hids : ∀ record ∈ origin.items related.name, related.HasId record)
variable (hopen : origin.schema.options.enforceUnique = true ∨ related.Unstamped idField)
include hid hids hopen

/-- An update by plain fields other than the id spares what is not linked. -/
theorem triple_update (hscalar : related.ScalarPayload data) (hdata : idField ∉ Entries.keys data)
    (htarget : origin.Own related linked target) (depth : Nat) :
    Triple (origin.Spared related linked) ((within (depth + 1)).update related target data)
      (fun _ => origin.Spared related linked) fun _ => origin.Spared related linked := by
  have hupdate : (within (depth + 1)).update related target data =
      require (related.revised data target) >>= settle related data target :=
    updateStep_of_scalar (within depth) hscalar target
  rw [hupdate]
  refine Triple.bind_require (fun revised hrevised => ?_) fun _ _ _ hspared => hspared
  have hkept := Model.valueAt_revised_of_notMem hdata hrevised
  have hnull : (Record.valueAt idField revised).isNull = false := by
    rw [hkept, ← Model.recordId_of_idFields hid]
    exact htarget.1
  -- the id is the one that the record has had, or the time of the update
  refine Triple.bind (M := fun next store => origin.Spared related linked store ∧
      (related.recordId next).isNull = false ∧
      (related.Unstamped idField → origin.Own related linked next))
    (Triple.step fun store hspared => ⟨hspared.of_supplied (supplied_refreshFields ..), ?_,
      fun hstamp => ?_⟩) fun next => ?_
  · rw [Model.recordId_of_idFields hid]
    exact Model.isNull_refreshFields hnull _ store
  · rw [Own, Model.recordId_of_idFields hid, Model.valueAt_refreshFields hstamp, hkept,
      ← Model.recordId_of_idFields hid]
    · exact htarget
    · intro h
      rw [hnull] at h
      cases h
  refine Triple.bind (M := fun _ => origin.Spared related linked) ?_ fun _ =>
    Triple.pure fun _ hspared => hspared
  rintro store ⟨hspared, hnext, hstamp⟩
  rcases outcome_replaceStored related target next store with
    ⟨-, hrun⟩ | ⟨-, ⟨written, hfree, hswap, hrun⟩ | ⟨e, hrun⟩⟩ <;> rw [hrun]
  · exact hspared
  · refine hspared.swap htarget ?_ hswap
    rcases hopen with henforced | hunstamped
    · exact hspared.own_of_checkUnique henforced hid hids htarget hnext hfree
    · exact hstamp hunstamped
  · exact hspared

/-- So does updating such records one after the other, each as it is found again by its id. -/
theorem triple_updateEach (hscalar : related.ScalarPayload data)
    (hdata : idField ∉ Entries.keys data) (depth : Nat) {targets : List Record}
    (htargets : ∀ target ∈ targets, origin.Own related linked target) :
    Triple (origin.Spared related linked)
      (updateEach (within (depth + 1)).update related data targets)
      (fun _ => origin.Spared related linked) fun _ => origin.Spared related linked := by
  induction targets with
  | nil => exact Triple.pure fun _ hspared => hspared
  | cons target rest ih =>
      obtain ⟨htarget, hrest⟩ := List.forall_mem_cons.mp htargets
      have hothers := ih hrest
      rw [updateEach]
      refine Triple.bind_get fun current hcurrent => ?_
      have hstart (store : Store) (hstore : store = current) :
          origin.Spared related linked store := hstore ▸ hcurrent
      cases hfound : current.reload? related target with
      | none => exact hothers.weaken hstart fun _ _ hspared => hspared
      | some found =>
          simp only [reload?, htarget.1, Bool.false_eq_true, if_false] at hfound
          have hown : origin.Own related linked found :=
            htarget.of_same (List.find?_eq_some_iff_append.mp hfound).1
          have hupdate :=
            (triple_update hid hids hopen hscalar hdata hown depth).weaken hstart fun _ _ h => h
          exact hupdate.bind fun _ => hothers.bind fun _ => Triple.pure fun _ hspared => hspared

/-- Updating what satisfies a filter within a local scope spares what did not satisfy the scope. -/
theorem triple_updateMatching (hlocal : Filter.isLocal related scope = true)
    (hscope : ∀ record ∈ origin.items related.name,
      origin.satisfies related record scope = true → linked record)
    (hscalar : related.ScalarPayload data) (hdata : idField ∉ Entries.keys data) (depth : Nat)
    (filter : Option Record) :
    Triple (origin.Spared related linked)
      ((within (depth + 1)).updateMatching related (Filter.narrow scope filter) data)
      (fun _ => origin.Spared related linked) fun _ => origin.Spared related linked := by
  refine Triple.bind_get fun current hcurrent => ?_
  refine (triple_updateEach hid hids hopen hscalar hdata depth fun target htarget => ?_).weaken
    (fun store hstore => hstore ▸ hcurrent) fun _ _ h => h
  obtain ⟨hstored, hsatisfies⟩ := List.mem_filter.mp htarget
  -- a record that is not linked does not satisfy the scope, now or ever
  refine (hcurrent.mem_or_own hstored).resolve_left fun ⟨hthere, hnot⟩ => hnot ?_
  refine hscope target hthere ?_
  rw [satisfies, Filter.satisfies_congr scope hlocal]
  exact Filter.satisfies_of_narrow filter hsatisfies

end

end Spared

end Store

/-! ## Entries -/

namespace Write

variable {ι : Type} {f g : ι → Write Unit} {inv : Store → Prop} {items : List ι}

/-- Loops that do the same wherever an invariant holds do the same, if the invariant is kept. -/
theorem outcome_forM_congr
    (hsame : ∀ x ∈ items, ∀ store, inv store → (f x).outcome store = (g x).outcome store)
    (hkeeps : ∀ x ∈ items, Triple inv (g x) (fun _ => inv) fun _ => inv) :
    ∀ store, inv store → (items.forM f).outcome store = (items.forM g).outcome store := by
  induction items with
  | nil => exact fun _ _ => rfl
  | cons x rest ih =>
      intro store hinv
      obtain ⟨hfirst, hrest⟩ := List.forall_mem_cons.mp hsame
      obtain ⟨hkeeps, hmore⟩ := List.forall_mem_cons.mp hkeeps
      show (f x >>= fun _ => rest.forM f).outcome store =
        (g x >>= fun _ => rest.forM g).outcome store
      rw [outcome_bind, outcome_bind, hfirst store hinv]
      rcases hrun : (g x).outcome store with ⟨_ | _, next⟩
      · rfl
      · exact ih hrest hmore next (hkeeps.ok hinv hrun)

end Write

namespace NestedWrites

open Store Write

/-- One entry of an update through a relation: what satisfies its filter within the scope of the
    relation is updated, and a strict entry has to hit a record. -/
def updateEntry (nested : NestedWrites) (related : Model) (scope : Record) (strict : Bool)
    (entry : Value) : Write Unit := do
  let (filter, data) ← require (Payload.update entry)
  mustHit related .toUpdate strict
    (← nested.updateMatching related (Filter.narrow scope filter) data)

end NestedWrites

/-- An entry writes plain fields other than the id, as far as it can be read. -/
def Model.PlainEntry (related : Model) (idField : String) (entry : Value) : Prop :=
  ∀ filter data, Payload.update entry = .ok (filter, data) →
    related.ScalarPayload data ∧ idField ∉ Entries.keys data

namespace Store

open NestedWrites Write

variable {origin store next : Store} {model related : Model} {field : Field}
variable {linked : Record → Prop} {idField : String} {item scope other : Record} {arg entry : Value}

/-- An entry spares what does not satisfy the scope. -/
theorem Spared.triple_updateEntry (hid : related.idFields = [idField])
    (hids : ∀ record ∈ origin.items related.name, related.HasId record)
    (hopen : origin.schema.options.enforceUnique = true ∨ related.Unstamped idField)
    (hlocal : Filter.isLocal related scope = true)
    (hscope : ∀ record ∈ origin.items related.name,
      origin.satisfies related record scope = true → linked record)
    (hplain : related.PlainEntry idField entry) (depth : Nat) (strict : Bool) :
    Triple (origin.Spared related linked) ((within (depth + 1)).updateEntry related scope strict entry)
      (fun _ => origin.Spared related linked) fun _ => origin.Spared related linked := by
  refine Triple.bind_require (fun (filter, data) hread => ?_) fun _ _ _ hspared => hspared
  obtain ⟨hscalar, hdata⟩ := hplain filter data hread
  refine (triple_updateMatching hid hids hopen hlocal hscope hscalar hdata depth filter).bind
    fun hits => ?_
  unfold mustHit
  split
  · exact Triple.throw fun _ hspared => hspared
  · exact Triple.pure fun _ hspared => hspared

/-- An entry that selects none of what satisfies the scope fails if it is strict. -/
theorem outcome_updateEntry_none {filter : Option Record} {data : Record} {nested : NestedWrites}
    (hread : Payload.update entry = .ok (filter, data))
    (hnone : ∀ record ∈ store.items related.name,
      store.satisfies related record (Filter.narrow scope filter) = false) :
    (nested.updateEntry related scope true entry).outcome store =
      (.error (.notFound related.name .toUpdate), store) := by
  have hselect : store.select related (some (Filter.narrow scope filter))
      (store.items related.name) = [] :=
    List.filter_eq_nil_iff.mpr fun record hrecord => Bool.eq_false_iff.mp (hnone record hrecord)
  have hmatching : (nested.updateMatching related (Filter.narrow scope filter) data).outcome store =
      (.ok [], store) := by
    rw [NestedWrites.updateMatching, updateMatchingWith, outcome_bind_get, hselect]
    rfl
  rw [updateEntry, outcome_bind, outcome_require, hread]
  dsimp only
  rw [outcome_bind, hmatching]
  rfl

/-! ## Scopes -/

/-- What is linked to a record through a relation is what satisfies a filter that names no relation:
    the scope of its key columns, or that its id be one of those that a join links to the record. -/
inductive Scoped (store : Store) (model : Model) (field : Field) (related : Model)
    (item : Record) : Record → Prop
  | columns {linkage : Linkage} {scope : Record}
      (related_eq : store.schema.relatedModel field = .ok related)
      (linkage_eq : store.schema.linkage? model field = some linkage)
      (elsewhere : linkage.owned = false) (scope_eq : linkage.scope item = some scope)
      (isLocal : Filter.isLocal related scope = true) :
      Scoped store model field related item scope
  | join {relation idField : String}
      (related_eq : store.schema.relatedModel field = .ok related)
      (linkage_eq : store.schema.linkage? model field = none)
      (relation_eq : field.relationName = some relation)
      (idFields_eq : related.idFields = [idField])
      (plain : related.IsPlain idField ∧ related.readingOf idField = .plain)
      (named : idField ≠ "is") :
      Scoped store model field related item [(idField, .object [("in", .array
        (store.joins.counterparts relation model.name (model.recordId item)))])]

namespace Scoped

theorem isLocal (h : store.Scoped model field related item scope) :
    Filter.isLocal related scope = true := by
  cases h with
  | columns _ _ _ _ isLocal => exact isLocal
  | join _ _ _ _ plain named =>
      obtain ⟨⟨hname, field, hfield, hrelation, -⟩, -⟩ := plain
      rw [Filter.isLocal, Filter.isLocalKey, hname]
      dsimp only
      rw [if_neg named, Filter.isLocal, Bool.and_true]
      simp [Model.relation?, hfield, hrelation]

/-- The linked records are those that satisfy the scope, as long as the joins stay. -/
theorem mem_related (h : store.Scoped model field related item scope)
    (hschema : next.schema = store.schema) (hjoins : next.joins = store.joins)
    (hnull : (related.recordId other).isNull = false) :
    other ∈ next.related model field item ↔
      other ∈ next.items related.name ∧ next.satisfies related other scope = true := by
  have hlocal := h.isLocal
  cases h with
  | columns related_eq linkage_eq _ scope_eq _ =>
      obtain ⟨depth, hread⟩ :=
        related_of_scope (hschema ▸ related_eq) (hschema ▸ linkage_eq) scope_eq
      rw [hread, List.mem_filter, satisfies, Filter.satisfies_congr scope hlocal]
  | join related_eq linkage_eq relation_eq idFields_eq plain named =>
      rw [related_of_relationName (hschema ▸ related_eq) (hschema ▸ linkage_eq) relation_eq,
        List.mem_filter, satisfies, hjoins]
      rw [Model.recordId_of_idFields idFields_eq] at hnull
      rw [Filter.satisfies_in_eq plain.1 plain.2 named hnull,
        Model.recordId_of_idFields idFields_eq]

/-- A write of updates through the relation goes through their entries, one by one within the
    scope. -/
theorem outcome_writeRelated (h : store.Scoped model field related item scope)
    {nested : NestedWrites} {inv : Store → Prop} (hinv : inv store)
    (hjoins : ∀ current, inv current → current.joins = store.joins)
    {operation : String} {strict : Bool}
    (hoperation : operation = "update" ∧ strict = true ∨ operation = "updateMany" ∧ strict = false)
    (hkeeps : ∀ entry ∈ Payload.entries arg,
      Triple inv (nested.updateEntry related scope strict entry) (fun _ => inv) fun _ => inv) :
    (nested.writeRelated model field [(operation, arg)] item).outcome store =
      ((Payload.entries arg).forM (nested.updateEntry related scope strict)).outcome store := by
  cases h with
  | columns related_eq linkage_eq _ scope_eq _ =>
      rw [outcome_writeRelated_columns linkage_eq related_eq scope_eq]
      rcases hoperation with ⟨rfl, rfl⟩ | ⟨rfl, rfl⟩ <;> rfl
  | @join relation idField related_eq linkage_eq relation_eq idFields_eq plain named =>
      let joinEnd : JoinEnd :=
        { name := relation, side := ⟨field.name, model.name⟩, related, idField,
          id := model.recordId item,
          symmetric := (store.joins.get? relation).any (·.isSymmetric) }
      have hend : NestedWrites.joinEnd store model field item = .ok joinEnd := by
        simp only [NestedWrites.joinEnd, related_eq, relation_eq, idFields_eq, bind, Except.bind,
          pure, Except.pure, joinEnd]
      have hstep : nested.joinStep joinEnd operation arg =
          joinStep.updateEntries nested joinEnd strict arg := by
        rcases hoperation with ⟨rfl, rfl⟩ | ⟨rfl, rfl⟩ <;> rfl
      rw [outcome_writeRelated_join linkage_eq hend, hstep]
      refine outcome_forM_congr (fun entry _ current hcurrent => ?_) hkeeps store hinv
      rw [updateEntry, outcome_bind, outcome_bind, outcome_require]
      cases Payload.update entry with
      | error e => rfl
      | ok read =>
          -- the linked ids are read off the join, which no entry changes
          have hnarrow : joinEnd.narrow current read.1 = Filter.narrow [(idField, .object [("in",
              .array (store.joins.counterparts relation model.name (model.recordId item)))])]
                read.1 := by
            rw [JoinEnd.narrow, JoinEnd.linkedIds, hjoins current hcurrent]
          dsimp only
          rw [outcome_bind_get, hnarrow]

/-- An entry that selects none of the linked records fails if it is strict. -/
theorem outcome_updateEntry_none (h : store.Scoped model field related item scope)
    (hspared : store.Spared related linked next)
    (hids : ∀ record ∈ store.items related.name, related.HasId record) {nested : NestedWrites}
    {filter : Option Record} {data : Record} (hread : Payload.update entry = .ok (filter, data))
    (hnone : next.select related filter (next.related model field item) = []) :
    (nested.updateEntry related scope true entry).outcome next =
      (.error (.notFound related.name .toUpdate), next) := by
  refine Store.outcome_updateEntry_none hread fun record hrecord => Bool.eq_false_iff.mpr fun hpick => ?_
  have hnull : (related.recordId record).isNull = false := by
    rcases hspared.mem_or_own hrecord with ⟨hthere, -⟩ | hown
    · exact (hids record hthere).isNull_recordId
    · exact hown.1
  have hlinked : record ∈ next.related model field item :=
    (h.mem_related hspared.schema_eq hspared.joins_eq hnull).mpr
      ⟨hrecord, Filter.satisfies_of_narrow filter hpick⟩
  suffices hselected : record ∈ next.select related filter (next.related model field item) by
    rw [hnone] at hselected
    cases hselected
  cases filter with
  | none => exact hlinked
  | some filter =>
      rw [satisfies, Filter.satisfies_narrow, Bool.and_eq_true] at hpick
      exact List.mem_filter.mpr ⟨hlinked, hpick.1⟩

end Scoped

/-- A store in which every record of the related model stands as it stood, unless it was linked to
    a record through a relation. -/
def SparesUnlinked (store last : Store) (model : Model) (field : Field) (related : Model)
    (item : Record) : Prop :=
  List.Forall₂ (fun old new => old ∉ store.related model field item → new = old)
    (store.items related.name) (last.items related.name)

/-- A record that was not linked and is not the same any more has not been spared. -/
theorem not_sparesUnlinked {last : Store} {old new : Record} (i : Nat)
    (hold : (store.items related.name)[i]? = some old)
    (hnew : (last.items related.name)[i]? = some new)
    (hunlinked : (store.related model field item).any (Record.same old) = false)
    (hself : Record.same old old = true) (hchanged : Record.same new old = false) :
    ¬ store.SparesUnlinked last model field related item := by
  intro h
  obtain ⟨hi, rfl⟩ := List.getElem?_eq_some_iff.mp hold
  obtain ⟨hi', rfl⟩ := List.getElem?_eq_some_iff.mp hnew
  have hkept : (last.items related.name)[i] = (store.items related.name)[i] :=
    List.Forall₂.get h hi hi' (notMem_of_any_same hself hunlinked)
  rw [hkept, hself] at hchanged
  cases hchanged

/-- An update through a relation leaves every record of the related model that was not linked from
    the start as it was, whether it succeeds or fails; and it fails as soon as an entry selects none
    of the records that are linked by then. -/
theorem nested_update_reaches_linked (hscoped : store.Scoped model field related item scope)
    (hid : related.idFields = [idField])
    (hids : ∀ record ∈ store.items related.name, related.HasId record)
    (hapart : (store.items related.name).Pairwise fun a b =>
      Value.same (related.recordId a) (related.recordId b) = false)
    (hopen : store.schema.options.enforceUnique = true ∨ related.Unstamped idField)
    (hplain : ∀ entry ∈ Payload.entries arg, related.PlainEntry idField entry) (depth : Nat) :
    (∀ operation ∈ ["update", "updateMany"], store.SparesUnlinked
      (((within (depth + 1)).writeRelated model field [(operation, arg)] item).after store)
      model field related item) ∧
    ∀ before entry later filter data next, Payload.entries arg = before ++ entry :: later →
      ((within (depth + 1)).writeRelated model field [("update", .array before)] item).outcome
        store = (.ok (), next) →
      Payload.update entry = .ok (filter, data) →
      next.select related filter (next.related model field item) = [] →
      ((within (depth + 1)).writeRelated model field [("update", arg)] item).outcome store =
        (.error (.notFound related.name .toUpdate), next) := by
  let linked : Record → Prop := fun record => record ∈ store.related model field item
  have hstart : store.Spared related linked store := Spared.refl hids hapart
  have hscope : ∀ record ∈ store.items related.name,
      store.satisfies related record scope = true → linked record := fun record hrecord h =>
    (hscoped.mem_related rfl rfl (hids record hrecord).isNull_recordId).mpr ⟨hrecord, h⟩
  have hkeeps (strict : Bool) (entry : Value) (hentry : related.PlainEntry idField entry) :=
    Spared.triple_updateEntry hid hids hopen hscoped.isLocal hscope hentry depth strict
  have hloop (strict : Bool) (entries : List Value)
      (hentries : ∀ entry ∈ entries, related.PlainEntry idField entry) :
      Triple (store.Spared related linked)
        (entries.forM ((within (depth + 1)).updateEntry related scope strict))
        (fun _ => store.Spared related linked) fun _ => store.Spared related linked :=
    Triple.forM (fun _ => store.Spared related linked) entries fun entry _ hentry =>
      hkeeps strict entry (hentries entry hentry)
  have hwrite {operation : String} {strict : Bool} (arg : Value)
      (hoperation : operation = "update" ∧ strict = true ∨
        operation = "updateMany" ∧ strict = false)
      (hplain : ∀ entry ∈ Payload.entries arg, related.PlainEntry idField entry) :
      ((within (depth + 1)).writeRelated model field [(operation, arg)] item).outcome store =
        ((Payload.entries arg).forM ((within (depth + 1)).updateEntry related scope strict)).outcome
          store :=
    hscoped.outcome_writeRelated hstart (fun _ hspared => hspared.joins_eq) hoperation
      fun entry hentry => hkeeps strict entry (hplain entry hentry)
  constructor
  · intro operation hoperation
    obtain ⟨strict, hstrict⟩ : ∃ strict, operation = "update" ∧ strict = true ∨
        operation = "updateMany" ∧ strict = false := by
      rcases List.mem_pair.mp hoperation with rfl | rfl
      · exact ⟨true, Or.inl ⟨rfl, rfl⟩⟩
      · exact ⟨false, Or.inr ⟨rfl, rfl⟩⟩
    have hspared := (hloop strict _ hplain).after hstart
    rw [SparesUnlinked, after, hwrite arg hstrict hplain]
    exact hspared.records.imp fun _ _ h => h.1
  · intro before entry later filter data next hsplit hbefore hread hnone
    obtain ⟨hfirst, -⟩ := List.forall_mem_append.mp (hsplit ▸ hplain)
    have hstrict : "update" = "update" ∧ true = true ∨ "update" = "updateMany" ∧ true = false :=
      Or.inl ⟨rfl, rfl⟩
    have hran : (before.forM ((within (depth + 1)).updateEntry related scope true)).outcome store =
        (.ok (), next) := (hwrite (.array before) hstrict hfirst).symm.trans hbefore
    have hspared := (hloop true before hfirst).ok hstart hran
    have hloops : (before ++ entry :: later).forM
        ((within (depth + 1)).updateEntry related scope true) =
          before.forM ((within (depth + 1)).updateEntry related scope true) >>= fun _ =>
            (entry :: later).forM ((within (depth + 1)).updateEntry related scope true) :=
      List.forM_append
    rw [hwrite arg hstrict hplain, hsplit, hloops, outcome_bind, hran]
    dsimp only
    rw [List.forM, outcome_bind, hscoped.outcome_updateEntry_none hspared hids hread hnone]

end Store

namespace Press

open NestedWrites Store Write

/-- The relation field from authors to their posts. -/
def postsField : Field :=
  { name := "posts", kind := .relation, typeName := "Post", isList := true,
    relationName := some "wrote" }

/-- Another author has written a post as well. -/
def joining : List Request := [
  .write .create "Author" (.object [("data", .object [("id", .integer 2)])]),
  .write .create "Post" (.object [("data", .object [("id", .integer 8),
    ("authorId", .integer 2)])])]

/-- The store with both authors and their posts. -/
def issue : Store := store.run joining

/-- The post goes to the other author, and then a post is to be given a title. -/
def reattribution : Value := .array [
  .object [("data", .object [("authorId", .integer 2)])],
  .object [("where", .object []), ("data", .object [("title", .string "t")])]]

/-- No post is left to be given a title, and the post of the other author has been spared. -/
theorem reattribute_article :
    ∃ last, ((within 1).writeRelated author postsField [("update", reattribution)] writer).outcome
        issue = (.error (.notFound "Post" .toUpdate), last) ∧
      last.items "Post" = [[("id", .integer 7), ("title", .null), ("authorId", .integer 2)],
        [("id", .integer 8), ("title", .null), ("authorId", .integer 2)]] ∧
      issue.SparesUnlinked last author postsField post writer := by
  have hlinkage : issue.schema.linkage? author postsField = some ⟨["id"], ["authorId"], false⟩ := by
    decide
  have hscoped : issue.Scoped author postsField post writer [("authorId", .integer 1)] :=
    .columns rfl hlinkage rfl rfl rfl
  have hids : ∀ record ∈ issue.items post.name, post.HasId record := by decide
  have hplain : ∀ entry ∈ Payload.entries reattribution, post.PlainEntry "id" entry := by
    intro entry hentry filter data hread
    rcases List.mem_pair.mp hentry with rfl | rfl <;>
      obtain ⟨-, rfl⟩ := Prod.mk.inj (Except.ok.inj hread) <;> decide
  obtain ⟨hspares, hfails⟩ := nested_update_reaches_linked hscoped rfl hids (by decide)
    (Or.inl rfl) hplain 0
  exact ⟨_, hfails [.object [("data", .object [("authorId", .integer 2)])]] _ [] _ _ _ rfl rfl rfl
    rfl, rfl, hspares "update" (List.mem_cons_self)⟩

end Press

namespace Labels

open Store

def tagsField : Field :=
  { name := "tags", kind := .relation, typeName := "Tag", isList := true,
    relationName := some "labels" }

def post : Model where
  name := "Post"
  fields := [{ name := "id", kind := .scalar, typeName := "Int", isId := true }, tagsField]

/-- Tags whose id has a name of its own. -/
def tag (name : String) : Model where
  name := "Tag"
  fields := [{ name, kind := .scalar, typeName := "Int", isId := true },
    { name := "in", kind := .scalar, typeName := "Json" },
    { name := "text", kind := .scalar, typeName := "String" },
    { name := "posts", kind := .relation, typeName := "Post", isList := true,
      relationName := some "labels" }]

def schema (name : String) : Schema where
  options := {}
  models := [post, tag name]
  nodup_names := by simp [post, tag]
  targets_known := by
    intro model hmodel field hfield
    rcases List.mem_pair.mp hmodel with rfl | rfl
    · rw [List.mem_singleton.mp (show field ∈ [tagsField] from hfield)]
      exact .tail _ (.head _)
    · rw [List.mem_singleton.mp hfield]
      exact .head _

/-- A post with one of three tags. -/
def labelling (name : String) : List Request := [
  .write .create "Post" (.object [("data", .object [("id", .integer 1),
    ("tags", .object [("create", .object [(name, .integer 5)])])])]),
  .write .create "Tag" (.object [("data", .object [(name, .integer 6),
    ("in", .array [.integer 5])])]),
  .write .create "Tag" (.object [("data", .object [(name, .integer 7)])])]

def store (name : String) : Store := (ofSchema (schema name) 0 ⟨0⟩).run (labelling name)

/-- Tags get a text. -/
def rewording : Value := .object [("data", .object [("text", .string "t")])]

end Labels

namespace Readers

open Store

def postsField : Field :=
  { name := "posts", kind := .relation, typeName := "Post", isList := true,
    relationName := some "likes" }

/-- Readers, each with a taste in posts. -/
def reader : Model where
  name := "Reader"
  fields := [{ name := "id", kind := .scalar, typeName := "Int", isId := true },
    { name := "taste", kind := .scalar, typeName := "Json" }, postsField]

/-- Posts that follow other posts; the column for the taste of their readers has the name of a
    connective. -/
def post : Model where
  name := "Post"
  fields := [{ name := "id", kind := .scalar, typeName := "Int", isId := true },
    { name := "title", kind := .scalar, typeName := "String" },
    { name := "followedId", kind := .scalar, typeName := "Int" },
    { name := "AND", kind := .scalar, typeName := "Json" },
    { name := "followed", kind := .relation, typeName := "Post", relationName := some "follows",
      fromFields := ["followedId"], toFields := ["id"] },
    { name := "reader", kind := .relation, typeName := "Reader", relationName := some "likes",
      fromFields := ["AND"], toFields := ["taste"] }]

def schema : Schema := ⟨{}, [reader, post], by decide, by decide⟩

/-- A reader of what follows a post of some title. -/
def follower : Record :=
  [("id", .integer 1), ("taste", .object [("followed", .object [("title", .string "t")])])]

/-- Three posts, each of which follows the one before. -/
def store : Store := (ofSchema schema 0 ⟨0⟩).run [
  .write .create "Reader" (.object [("data", .object follower)]),
  .write .create "Post" (.object [("data", .object [("id", .integer 1),
    ("title", .string "t")])]),
  .write .create "Post" (.object [("data", .object [("id", .integer 2),
    ("followedId", .integer 1)])]),
  .write .create "Post" (.object [("data", .object [("id", .integer 3),
    ("followedId", .integer 2)])])]

/-- Posts get this title, and then another one. -/
def retitling : Value := .array [.object [("data", .object [("title", .string "t")])],
  .object [("data", .object [("title", .string "u")])]]

end Readers

namespace Drafts

open Store

def draftsField : Field :=
  { name := "drafts", kind := .relation, typeName := "Draft", isList := true,
    relationName := some "writes" }

def author : Model where
  name := "Author"
  fields := [{ name := "id", kind := .scalar, typeName := "Int", isId := true }, draftsField]

/-- Drafts whose id keeps the time of the last update. -/
def draft : Model where
  name := "Draft"
  fields := [
    { name := "id", kind := .scalar, typeName := "String", isId := true, isUpdatedAt := true },
    { name := "title", kind := .scalar, typeName := "String" },
    { name := "authorId", kind := .scalar, typeName := "Int" },
    { name := "author", kind := .relation, typeName := "Author", relationName := some "writes",
      fromFields := ["authorId"], toFields := ["id"] }]

/-- Ids need not be unique. -/
def schema : Schema := ⟨{ enforceUnique := false }, [author, draft], by decide, by decide⟩

/-- A draft that has just been made, and an older one of the author. -/
def store : Store := (ofSchema schema 0 ⟨0⟩).run [
  .write .create "Author" (.object [("data", .object [("id", .integer 1)])]),
  .write .create "Draft" (.object [("data", .object [])]),
  .write .create "Draft" (.object [("data", .object [("id", .string "older"),
    ("authorId", .integer 1)])])]

end Drafts

namespace Store

open NestedWrites

/-- Not every update through a relation spares what is not linked: where the id in a join has the
    name of a keyword of filters, the linked ids are no filter of them.  Nor does it where a key
    column is a filter on other records, so that an entry can bring a record into the scope of a later
    one; or where an id keeps the time of the last update and may be that of another record. -/
theorem not_forall_sparesUnlinked :
    (¬∀ (schema : Schema) (clock : Int) (entropy : Entropy) (requests : List Request)
        (model related : Model) (field : Field) (item : Record) (idField : String) (arg : Value)
        (depth : Nat),
      let store := (ofSchema schema clock entropy).run requests
      model ∈ schema.models → model.field? field.name = some field →
      item ∈ store.items model.name → schema.relatedModel field = .ok related →
      ((∃ linkage scope, schema.linkage? model field = some linkage ∧ linkage.owned = false ∧
          linkage.scope item = some scope) ∨
        schema.linkage? model field = none ∧
          (∃ join, field.relationName = some join.name ∧
            store.joins.get? join.name = some join ∧
            (⟨field.name, model.name⟩ : Side) ∈ join.sides) ∧
          ∃ id, related.field? idField = some id ∧ id.typeName ∈ ["Int", "String"]) →
      related.idFields = [idField] →
      (∀ record ∈ store.items related.name, related.HasId record) →
      ((store.items related.name).Pairwise fun a b =>
        Value.same (related.recordId a) (related.recordId b) = false) →
      (∀ entry ∈ Payload.entries arg, related.PlainEntry idField entry) →
      ∀ operation ∈ ["update", "updateMany"], store.SparesUnlinked
        (((within (depth + 1)).writeRelated model field [(operation, arg)] item).after store)
        model field related item) ∧
    (∀ name ∈ ["AND", "OR", "NOT", "is"], ¬ (Labels.store name).SparesUnlinked
      (((within 1).writeRelated Labels.post Labels.tagsField [("updateMany", Labels.rewording)]
        [("id", .integer 1)]).after (Labels.store name))
      Labels.post Labels.tagsField (Labels.tag name) [("id", .integer 1)]) ∧
    ¬ Readers.store.SparesUnlinked (((within 1).writeRelated Readers.reader Readers.postsField
        [("updateMany", Readers.retitling)] Readers.follower).after Readers.store)
      Readers.reader Readers.postsField Readers.post Readers.follower ∧
    ¬ Drafts.store.SparesUnlinked (((within 1).writeRelated Drafts.author Drafts.draftsField
        [("updateMany", Readers.retitling)] [("id", .integer 1)]).after Drafts.store)
      Drafts.author Drafts.draftsField Drafts.draft [("id", .integer 1)] := by
  have hlabels : ∀ name ∈ ["AND", "OR", "NOT", "is"], ¬ (Labels.store name).SparesUnlinked
      (((within 1).writeRelated Labels.post Labels.tagsField [("updateMany", Labels.rewording)]
        [("id", .integer 1)]).after (Labels.store name))
      Labels.post Labels.tagsField (Labels.tag name) [("id", .integer 1)] := by
    simp only [List.forall_mem_cons]
    refine ⟨?_, ?_, ?_, ?_, List.forall_mem_nil _⟩
    · exact not_sparesUnlinked 1 rfl rfl (by decide) (by decide) (by decide)
    · exact not_sparesUnlinked 1 rfl rfl (by decide) (by decide) (by decide)
    · exact not_sparesUnlinked 2 rfl rfl (by decide) (by decide) (by decide)
    · exact not_sparesUnlinked 1 rfl rfl (by decide) (by decide) (by decide)
  refine ⟨fun h => ?_, hlabels, not_sparesUnlinked 2 rfl rfl (by decide) (by decide) (by decide),
    not_sparesUnlinked 0 rfl rfl (by decide) (by decide) (by decide)⟩
  have hids : ∀ record ∈ (Labels.store "NOT").items "Tag", (Labels.tag "NOT").HasId record := by
    decide
  have hplain : ∀ entry ∈ Payload.entries Labels.rewording,
      (Labels.tag "NOT").PlainEntry "NOT" entry := by
    intro entry hentry filter data hread
    obtain rfl := List.mem_singleton.mp hentry
    obtain ⟨-, rfl⟩ := Prod.mk.inj (Except.ok.inj hread)
    decide
  have hlinks : ∃ join, Labels.tagsField.relationName = some join.name ∧
      (Labels.store "NOT").joins.get? join.name = some join ∧
      (⟨"tags", "Post"⟩ : Side) ∈ join.sides :=
    ⟨((Labels.store "NOT").joins.get? "labels").get rfl, rfl, rfl, by decide⟩
  exact hlabels "NOT" (by decide) (h (Labels.schema "NOT") 0 ⟨0⟩ (Labels.labelling "NOT")
    Labels.post (Labels.tag "NOT") Labels.tagsField [("id", .integer 1)] "NOT" Labels.rewording 0
    (.head _) rfl (List.mem_singleton_self _) rfl (Or.inr ⟨by decide, hlinks, _, rfl, .head _⟩) rfl
    hids (by decide) hplain "updateMany" (.tail _ (.head _)))

end Store

end RecordStore
