import RecordStore.Proofs.Delete.Course
import RecordStore.Proofs.Mirror
import RecordStore.Proofs.Uniqueness
import RecordStore.Proofs.Write.Settling

/-!
# Deletes through an owned relation

An update that deletes through an owned relation remembers the linked record when it comes to the
key of the relation, and removes it once the record itself no longer refers to it.  It is removed as
it was remembered: whatever stands under its id by then goes if it still equals that record, and
stays otherwise.  So the id is free in the end as long as the call lets nothing happen to the
linked record before it is removed, and stores nothing under its id afterwards; what the call does
to a collection is what its notices list.
-/

namespace RecordStore

/-! ## Stores on the way of a write -/

namespace Store

variable {origin store next : Store} {recent : List Notice}

/-- Every change tells what it does to the collections. -/
theorem Told.change (h : Told origin store recent) (hstep : Change store next) :
    ∃ more, Told origin next more := by
  cases hstep with
  | supply => exact ⟨recent, h.congr rfl rfl rfl⟩
  | relink => exact ⟨recent, h.congr rfl rfl rfl⟩
  | insert => exact ⟨_, h.replaceCollection _ _⟩
  | replace _ _ _ _ _ _ hswap =>
      obtain ⟨replaced, -, rfl⟩ := Option.map_eq_some_iff.mp hswap
      exact ⟨_, h.replaceCollection _ _⟩
  | remove => exact ⟨_, h.replaceCollection _ _⟩
  | detach =>
      unfold Store.detach
      split
      · exact ⟨_, h.replaceCollection _ _⟩
      · exact ⟨recent, h⟩

/-- The stores that a write leads to from a store: no two of their records collide, and what has
    happened since has been told. -/
def watched (origin : Store) : Upkeep :=
  keptByChange origin.schema fun store => store.HoldsUnique ∧ ∃ recent, Told origin store recent

theorem lawful_watched (henforced : origin.schema.options.enforceUnique = true) :
    (watched origin).Lawful origin.schema := by
  refine lawful_keptByChange origin.schema fun store next hstep ⟨hunique, recent, htold⟩ => ?_
  exact ⟨hunique.change hstep (htold.schema_eq ▸ henforced), htold.change hstep⟩

/-- A store that a write has led to. -/
structure Follows (store next : Store) : Prop where
  unique : next.HoldsUnique
  told : ∃ recent, Told store next recent

theorem Follows.trans (h : Follows origin store) (h' : Follows store next) :
    Follows origin next := by
  obtain ⟨first, hfirst⟩ := h.told
  obtain ⟨later, hlater⟩ := h'.told
  exact ⟨h'.unique, later ++ first, hfirst.trans hlater⟩

theorem Follows.schema_eq (h : Follows store next) : next.schema = store.schema := by
  obtain ⟨recent, htold⟩ := h.told
  exact htold.schema_eq

end Store

namespace Upkeep

open Store

/-- What a write that keeps up everything lawful leads to when it succeeds. -/
theorem Gives.follows {α : Type} {store next : Store} {w : Write α} {a : α}
    {post : α → Store → Prop} (hw : (watched store).Gives store w post)
    (hunique : store.HoldsUnique) (hrun : w.outcome store = (.ok a, next)) :
    Follows store next ∧ post a next := by
  obtain ⟨⟨⟨-, hnext, htold⟩, -⟩, hpost⟩ := (hw ⟨rfl, hunique, [], .refl⟩).ok rfl hrun
  exact ⟨⟨hnext, htold⟩, hpost⟩

end Upkeep

/-! ## The record that is remembered -/

/-- A key of a payload names a relation field of the model that has the key columns itself. -/
structure Schema.Owns (schema : Schema) (model : Model) (key : String) (field : Field)
    (linkage : Linkage) (related : Model) : Prop where
  field_eq : model.field? key = some field
  isRelation : field.isRelation = true
  linkage_eq : schema.linkage? model field = some linkage
  owned : linkage.owned = true
  related_eq : schema.relatedModel field = .ok related

namespace NestedWrites

open Store Write

variable {nested : NestedWrites} {store last : Store} {model related : Model} {field : Field}
variable {linkage : Linkage} {key : String} {operations : Record} {arg : Value}
variable {record victim : Record} {revision revised : Revision}

/-- The record that is linked to a record through an owned relation. -/
def linkedRecord (store : Store) (linkage : Linkage) (related : Model) (record : Record) :
    Option Record :=
  (linkage.scope record).bind fun scope => store.first? related (some scope)

theorem mem_of_linkedRecord (h : linkedRecord store linkage related record = some victim) :
    victim ∈ store.items related.name := by
  obtain ⟨scope, -, hfound⟩ := Option.bind_eq_some_iff.mp h
  exact List.mem_of_find?_eq_some hfound

/-- A delete that comes last decides what becomes of the key columns, whatever comes before. -/
theorem writeOwned_delete (hrelated : store.schema.relatedModel field = .ok related)
    (hlinked : linkedRecord store linkage related record = some victim)
    (henabled : arg.isEnabled = true) {change : OwnedChange}
    (hrun : (nested.writeOwned field linkage (operations ++ [("delete", arg)]) record).outcome
      store = (.ok change, last)) : change = .unbindAndDelete victim := by
  unfold linkedRecord at hlinked
  rw [writeOwned, outcome_bind_get] at hrun
  obtain ⟨found, hfound, hrun⟩ := outcome_bind_require_ok hrun
  obtain rfl := Except.ok.inj (hrelated.symm.trans hfound)
  dsimp only at hrun
  rw [hlinked, List.foldlM_append] at hrun
  obtain ⟨earlier, next, -, hlast⟩ := outcome_bind_ok hrun
  have hstep : ownedStep nested related (some victim) earlier "delete" arg =
      pure (.unbindAndDelete victim) := by
    show (if arg.isEnabled then pure (.unbindAndDelete victim) else pure earlier) = _
    rw [if_pos henabled]
  rw [List.foldlM_cons, hstep, pure_bind, List.foldlM_nil, outcome_pure] at hlast
  exact (Except.ok.inj (Prod.mk.inj hlast).1).symm

/-- The key of a relation with such a delete remembers the linked record. -/
theorem revisionStep_delete (howns : store.schema.Owns model key field linkage related)
    (hlinked : linkedRecord store linkage related revision.next = some victim)
    (henabled : arg.isEnabled = true)
    (hrun : (nested.revisionStep model revision key
      (.object (operations ++ [("delete", arg)]))).outcome store = (.ok revised, last)) :
    revised.orphans = revision.orphans ++ [(field, victim)] := by
  simp only [revisionStep, howns.field_eq, howns.isRelation, if_true, outcome_bind_get,
    howns.linkage_eq, howns.owned] at hrun
  obtain ⟨change, next, hchange, hrest⟩ := outcome_bind_ok hrun
  obtain rfl := writeOwned_delete howns.related_eq hlinked henabled hchange
  obtain rfl := Except.ok.inj (Prod.mk.inj hrest).1
  rfl

/-- A key of a payload adds to the records to be deleted, and takes none back. -/
theorem triple_orphans (orphans : List (Field × Record)) (revision : Revision) (key : String)
    (value : Value) :
    Triple (fun _ => orphans <+: revision.orphans) (nested.revisionStep model revision key value)
      (fun revised _ => orphans <+: revised.orphans) fun _ _ => True := by
  refine fun store hbefore => ?_
  have hsame {next : Revision} (h : next.orphans = revision.orphans) :
      Triple (fun _ => True) (Pure.pure next : Write Revision)
        (fun revised _ => orphans <+: revised.orphans) fun _ _ => True :=
    Triple.pure fun _ _ => h ▸ hbefore
  suffices h : Triple (fun _ => True) (nested.revisionStep model revision key value)
      (fun revised _ => orphans <+: revised.orphans) fun _ _ => True from h store trivial
  unfold revisionStep
  split
  · exact hsame rfl
  · split
    · split
      · refine Triple.bind (Triple.trivial _) fun current => ?_
        split
        · split
          · refine Triple.bind (Triple.trivial _) fun change => ?_
            cases change with
            | unbindAndDelete target =>
                exact Triple.pure fun _ _ => hbefore.trans (List.prefix_append _ _)
            | _ => exact hsame rfl
          · exact hsame rfl
        · exact hsame rfl
      · exact hsame rfl
    · exact Triple.bind_require (fun _ _ => hsame rfl) fun _ _ _ _ => trivial

theorem orphans_foldlM (data : Record)
    (hrun : (data.foldlM (fun revision (key, value) => nested.revisionStep model revision key value)
      revision).outcome store = (.ok revised, last)) : revision.orphans <+: revised.orphans := by
  have hstep (next : Revision) (entry : String × Value) (_ : entry ∈ data) :
      Triple (fun _ => revision.orphans <+: next.orphans)
        (nested.revisionStep model next entry.1 entry.2)
        (fun revised _ => revision.orphans <+: revised.orphans) fun _ _ => True :=
    triple_orphans revision.orphans next entry.1 entry.2
  exact (Triple.foldlM (fun next _ => revision.orphans <+: next.orphans) data revision hstep).ok
    List.prefix_rfl hrun

/-! ## From the update to the removal -/

/-- A loop over two lists is a loop over the first and then one over the second. -/
theorem outcome_forM_append_ok {ι : Type} {f : ι → Write Unit} {xs ys : List ι}
    (h : ((xs ++ ys).forM f).outcome store = (.ok (), last)) :
    ∃ next, (xs.forM f).outcome store = (.ok (), next) ∧
      (ys.forM f).outcome next = (.ok (), last) := by
  have hsplit : (xs ++ ys).forM f = xs.forM f >>= fun _ => ys.forM f := List.forM_append
  rw [hsplit] at h
  obtain ⟨⟨⟩, next, hxs, hys⟩ := outcome_bind_ok h
  exact ⟨next, hxs, hys⟩

/-- A record that is remembered is deleted from the model that its relation refers to. -/
theorem outcome_orphan_ok (hrelated : store.schema.relatedModel field = .ok related)
    (h : ([(field, victim)].forM fun (field, target) => do
      deleteRecord (← require ((← get).schema.relatedModel field)) target).outcome store =
        (.ok (), last)) : (deleteRecord related victim).outcome store = (.ok (), last) := by
  obtain ⟨⟨⟩, next, hdelete, hdone⟩ := outcome_bind_ok h
  obtain ⟨-, rfl⟩ := Prod.mk.inj hdone
  dsimp only at hdelete
  rw [outcome_bind_get, hrelated] at hdelete
  obtain ⟨found, hfound, hdelete⟩ := outcome_bind_require_ok hdelete
  rw [Except.ok.inj hfound]
  exact hdelete

/-- What is linked to a record through an owned relation when, in an update by a payload, the turn
    of a key comes: the keys before it have been gone through. -/
def linkedAfter (nested : NestedWrites) (model : Model) (current before : Record)
    (linkage : Linkage) (related : Model) (store : Store) : Option Record :=
  match (before.foldlM (fun revision (key, value) => nested.revisionStep model revision key value)
    { next := current }).outcome store with
  | (.ok revision, turn) => linkedRecord turn linkage related revision.next
  | (.error _, _) => none

/-- Keys of plain fields leave the link as it was, unless they name one of its columns. -/
theorem linkedAfter_of_scalar {current before revised : Record}
    (hscalar : model.ScalarPayload before)
    (hapart : ∀ pair ∈ linkage.columns, pair.1 ∉ Entries.keys before)
    (hrevised : model.revised before current = .ok revised) :
    nested.linkedAfter model current before linkage related store =
      linkedRecord store linkage related current := by
  have hscope : linkage.scope revised = linkage.scope current :=
    Linkage.scope_congr fun pair hpair =>
      Model.valueAt_revised_of_notMem (hapart pair hpair) hrevised
  rw [linkedAfter, foldlM_revisionStep_scalar nested hscalar, hrevised]
  show linkedRecord store linkage related revised = _
  rw [linkedRecord, hscope, linkedRecord]

section

variable {depth : Nat} (henforced : store.schema.options.enforceUnique = true)
variable (hunique : store.HoldsUnique) (hmodel : model ∈ store.schema.models)
include henforced hunique hmodel

theorem follows_revisionStep {value : Value} (hthrough : revision.Through model)
    (hrun : ((within depth).revisionStep model revision key value).outcome store =
      (.ok revised, last)) : Follows store last ∧ revised.Through model := by
  have hlaws := lawful_watched henforced
  obtain ⟨hfollows, -, hrevised⟩ := (Upkeep.gives_revisionStep hlaws
    (Upkeep.keeps_within hlaws depth) hmodel trivial hthrough key value).follows hunique hrun
  exact ⟨hfollows, hrevised⟩

theorem follows_foldlM {data : Record} (hthrough : revision.Through model)
    (hrun : (data.foldlM (fun revision (key, value) =>
      (within depth).revisionStep model revision key value) revision).outcome store =
        (.ok revised, last)) : Follows store last ∧ revised.Through model := by
  have hlaws := lawful_watched henforced
  obtain ⟨hfollows, -, hrevised⟩ := (Upkeep.Gives.foldlM
    (I := fun (revision : Revision) _ => (watched store).Admits model revision.next ∧
      revision.Through model) data
    (fun _ entry _ _ hrevision => Upkeep.gives_revisionStep hlaws
      (Upkeep.keeps_within hlaws depth) hmodel hrevision.1 hrevision.2 entry.1 entry.2) revision
    store ⟨trivial, hthrough⟩).follows hunique hrun
  exact ⟨hfollows, hrevised⟩

omit hmodel in
theorem follows_orphans {orphans : List (Field × Record)}
    (hrun : (orphans.forM fun (field, target) => do
      deleteRecord (← require ((← get).schema.relatedModel field)) target).outcome store =
        (.ok (), last)) : Follows store last :=
  (Upkeep.Gives.follows (Upkeep.Keeps.forM _ fun _ _ _ _ => .bind_get fun _ =>
    .bind_require fun related _ => Upkeep.keeps_deleteRecord (lawful_watched henforced) related _)
    hunique hrun).1

theorem follows_settle {written current revised : Record}
    (hrun : (settle model written current revised).outcome store = (.ok record, last)) :
    Follows store last := by
  have hlaws := lawful_watched henforced
  have hkeeps : (watched store).Keeps store (settle model written current revised) := by
    refine .bind (Upkeep.gives_refreshFields hlaws True.intro written) fun next _ _ hnext => ?_
    exact .bind (Upkeep.gives_replaceStored hlaws hmodel True.intro hnext) fun _ _ _ _ =>
      .pure fun _ => True.intro
  exact (hkeeps.follows hunique hrun).1

theorem follows_deferred {deferred : Deferred} (hdeferred : deferred.Through model)
    (hrun : (deferred.forM fun (field, operations) =>
      (within depth).writeRelated model field operations record).outcome store = (.ok (), last)) :
    Follows store last := by
  have hlaws := lawful_watched henforced
  exact (Upkeep.Gives.follows (Upkeep.keeps_deferred hlaws (Upkeep.keeps_within hlaws depth) hmodel
    hdeferred trivial) hunique hrun).1

/-- An update with such a delete comes to a store that has the linked record, later to one from
    which that record is to be removed as it was, and goes on from there. -/
theorem exists_removal {before later current : Record}
    (howns : store.schema.Owns model key field linkage related) (henabled : arg.isEnabled = true)
    (hlinked : (within depth).linkedAfter model current before linkage related store = some victim)
    (hrun : ((within depth).updateStep model current
      (before ++ (key, .object (operations ++ [("delete", arg)])) :: later)).outcome store =
        (.ok record, last)) :
    ∃ found turn gone, Follows store found ∧ victim ∈ found.items related.name ∧
      Follows found turn ∧ (deleteRecord related victim).outcome turn = (.ok (), gone) ∧
      Follows turn gone ∧ Follows gone last := by
  rw [updateStep_eq] at hrun
  obtain ⟨revised, gathered, hgather, hrun⟩ := outcome_bind_ok hrun
  obtain ⟨next, settled, hsettle, hrun⟩ := outcome_bind_ok hrun
  obtain ⟨⟨⟩, cleared, horphans, hrun⟩ := outcome_bind_ok hrun
  obtain ⟨⟨⟩, ended, hdeferred, hreturn⟩ := outcome_bind_ok hrun
  obtain rfl : ended = last := (Prod.mk.inj hreturn).2
  -- the payload: the keys before the relation, the relation, and the keys after it
  rw [List.foldlM_append] at hgather
  obtain ⟨first, found, hfirst, hgather⟩ := outcome_bind_ok hgather
  rw [List.foldlM_cons] at hgather
  obtain ⟨second, taken, hsecond, hthird⟩ := outcome_bind_ok hgather
  obtain ⟨hfound, hfirstThrough⟩ := follows_foldlM henforced hunique hmodel .start hfirst
  rw [linkedAfter, hfirst] at hlinked
  rw [← hfound.schema_eq] at henforced hmodel howns
  obtain ⟨htaken, hsecondThrough⟩ :=
    follows_revisionStep henforced hfound.unique hmodel hfirstThrough hsecond
  have hremembered := revisionStep_delete howns hlinked henabled hsecond
  rw [← htaken.schema_eq] at henforced hmodel howns
  obtain ⟨hgathered, hthrough⟩ :=
    follows_foldlM henforced htaken.unique hmodel hsecondThrough hthird
  rw [← hgathered.schema_eq] at henforced hmodel howns
  have hsettled := follows_settle henforced hgathered.unique hmodel hsettle
  rw [← hsettled.schema_eq] at henforced hmodel howns
  -- the records to be deleted: those remembered before, the linked record, and those after it
  obtain ⟨more, hmore⟩ := orphans_foldlM later hthird
  rw [← hmore, hremembered, List.append_assoc] at horphans
  obtain ⟨turn, hearlier, horphans⟩ := outcome_forM_append_ok horphans
  obtain ⟨gone, hremoved, hrest⟩ := outcome_forM_append_ok horphans
  have hturn := follows_orphans henforced hsettled.unique hearlier
  rw [← hturn.schema_eq] at henforced hmodel howns
  have hgone := follows_orphans henforced hturn.unique hremoved
  rw [← hgone.schema_eq] at henforced hmodel
  have hcleared := follows_orphans henforced hgone.unique hrest
  rw [← hcleared.schema_eq] at henforced hmodel
  have hended := follows_deferred henforced hcleared.unique hmodel hthrough.deferred hdeferred
  exact ⟨found, turn, gone, hfound, mem_of_linkedRecord hlinked,
    ((htaken.trans hgathered).trans hsettled).trans hturn, outcome_orphan_ok howns.related_eq hremoved,
    hgone, hcleared.trans hended⟩

end

end NestedWrites

/-! ## Removing a record as it was -/

namespace Model

instance (model : Model) (record : Record) (id : Value) : Decidable (model.Identifies record id) :=
  inferInstanceAs (Decidable (_ ∧ _))

variable {related : Model} {idField : String} {victim item record : Record}

/-- A record with the id of another one collides with all that equal that one. -/
theorem Identifies.collide (h : related.Identifies victim (related.recordId item))
    (hid : related.idFields = [idField]) (hsame : Record.same record victim = true) :
    Record.Collide [idField] record item := by
  obtain ⟨hnull, hitem⟩ := h
  have hids := related.recordId_of_same hsame
  rw [recordId_of_idFields hid, recordId_of_idFields hid] at hids hitem
  rw [recordId_of_idFields hid] at hnull
  intro field hfield
  rw [List.mem_singleton.mp hfield]
  refine ⟨(Value.isNull_of_same hids).trans hnull, Value.isNull_of_equals hnull hitem, ?_⟩
  exact Value.equalsPlain_symm
    (Value.equalsPlain_trans_same hitem (Value.same_symm _ _ hids))

/-- A record that equals itself has its own id if any record has it. -/
theorem Identifies.self (h : related.Identifies victim (related.recordId item))
    (hself : Record.same victim victim = true) :
    related.Identifies victim (related.recordId victim) :=
  ⟨h.1, Value.equalsPlain_of_same (related.recordId_of_same hself) (Value.equalsPlain_symm h.2)⟩

end Model

namespace Store

variable {store found turn gone last : Store} {model related : Model} {idField : String}
variable {victim : Record}

/-- No record of a model has the id of a record. -/
def IdFree (store : Store) (model : Model) (record : Record) : Prop :=
  ∀ item ∈ store.items model.name, ¬ model.Identifies record (model.recordId item)

/-- Removing a record as it was frees its id, if whatever has the id equals the record. -/
theorem idFree_of_deleteRecord (hunique : turn.HoldsUnique)
    (hrelated : related ∈ turn.schema.models) (hid : related.idFields = [idField])
    (hsame : ∀ item ∈ turn.items related.name,
      related.Identifies victim (related.recordId item) → Record.same item victim = true)
    (hrun : (Write.deleteRecord related victim).outcome turn = (.ok (), gone)) :
    gone.IdFree related victim := by
  obtain ⟨next, left, hnext, hcompleted⟩ := Write.completed_deleteRecord hrelated victim
  obtain rfl : next = gone := congrArg Prod.snd (hnext.symm.trans hrun)
  intro item hitem hholds
  obtain ⟨i, old, hold, hleft, hcleared⟩ := (hcompleted.thinned.remains related.name).origin hitem
  -- the id has not been cleared, so the record has had it before, and is the one to be removed
  have hnull : (related.recordId item).isNull = false := by
    have hequals : Value.equals .plain _ _ = true := hholds.2
    exact Value.isNull_of_equals hholds.1 hequals
  have hkept : related.Identifies victim (related.recordId old) :=
    related.recordId_eq_of_cleared hcleared hid hnull ▸ hholds
  refine hleft ⟨old, hcompleted.seeded _ i old ⟨rfl, ⟨old, hold, hsame old
    (List.mem_of_getElem? hold) hkept⟩, fun j hj record hrecord => ?_⟩ hold⟩
  refine Bool.eq_false_iff.mpr fun hequal => ?_
  exact hunique related hrelated [idField] (Model.mem_uniqueConstraints hid) j i record old
    (Nat.ne_of_lt hj) hrecord hold (hkept.collide hid hequal)

end Store

namespace Notice

/-- What is told of a collection leaves a record alone: whatever is listed under its id is the
    record as it was, and the id has been listed ever before. -/
def Spare (related : Model) (victim : Record) (heard : List Notice) : Prop :=
  ∀ earlier notice later, heard = earlier ++ notice :: later → notice.model = related.name →
    ∀ item ∈ notice.records, related.Identifies victim (related.recordId item) →
      Record.same item victim = true ∧
        ∀ other ∈ earlier, other.model = related.name →
          ∃ kept ∈ other.records, related.Identifies victim (related.recordId kept)

/-- A record is left alone when its id is never listed. -/
theorem spare_of_unlisted {related : Model} {victim : Record} {heard : List Notice}
    (h : ∀ notice ∈ heard, notice.model = related.name → ∀ item ∈ notice.records,
      ¬ related.Identifies victim (related.recordId item)) : Spare related victim heard := by
  rintro earlier notice later rfl hname item hitem hholds
  exact absurd hholds (h notice (List.mem_append_right _ List.mem_cons_self) hname item hitem)

end Notice

namespace Store

variable {store found turn gone last : Store} {model related : Model} {idField : String}
variable {victim : Record} {r₁ r₂ r₃ r₄ : List Notice}

section

variable (hspare : Notice.Spare related victim (r₄ ++ (r₃ ++ (r₂ ++ r₁))).reverse)
variable (hself : Record.same victim victim = true)
variable (hvictim : victim ∈ found.items related.name)
include hspare hself hvictim

/-- When a record is to be removed, what has its id equals it, if the notices have spared it. -/
theorem same_of_spare (hturn : Told found turn r₂) (hunique : turn.HoldsUnique)
    (hrelated : related ∈ turn.schema.models) (hid : related.idFields = [idField]) :
    ∀ item ∈ turn.items related.name, related.Identifies victim (related.recordId item) →
      Record.same item victim = true := by
  intro item hitem hholds
  rcases Notice.listed_cases (found.items related.name) related.name r₂ with
    hunchanged | ⟨later, notice, earlier, rfl, hname, hrecords, -⟩
  · -- the record itself is still there, and no other record has its id
    have hstored : victim ∈ turn.items related.name := by
      rw [hturn.items, hunchanged]
      exact hvictim
    obtain ⟨i, hi⟩ := List.mem_iff_getElem?.mp hitem
    obtain ⟨j, hj⟩ := List.mem_iff_getElem?.mp hstored
    by_cases hij : j = i
    · obtain rfl := Option.some.inj (hi.symm.trans (hij ▸ hj))
      exact hself
    · exact (hunique related hrelated [idField] (Model.mem_uniqueConstraints hid) j i victim item
        hij hj hi (hholds.collide hid hself)).elim
  · rw [← hturn.items] at hrecords
    refine (hspare (r₁.reverse ++ earlier.reverse) notice
      (later.reverse ++ r₃.reverse ++ r₄.reverse) ?_ hname item (hrecords ▸ hitem) hholds).1
    simp

/-- Once its id is free it stays so, if the notices have spared the record. -/
theorem idFree_of_spare (hgone : Told found gone (r₃ ++ r₂)) (hlast : Told gone last r₄)
    (hfree : gone.IdFree related victim) : last.IdFree related victim := by
  intro item hitem hholds
  rcases Notice.listed_cases (gone.items related.name) related.name r₄ with
    hunchanged | ⟨later, notice, earlier, rfl, hname, hrecords, -⟩
  · rw [hlast.items, hunchanged] at hitem
    exact hfree item hitem hholds
  · rw [← hlast.items] at hrecords
    have hbefore := (hspare ((r₃ ++ (r₂ ++ r₁)).reverse ++ earlier.reverse) notice later.reverse
      (by simp) hname item (hrecords ▸ hitem) hholds).2
    -- its removal has been told, and then no later notice lists the id again
    rcases Notice.listed_cases (found.items related.name) related.name (r₃ ++ r₂) with
      hunremoved | ⟨more, removal, rest, hsplit, hremoval, hleft, -⟩
    · rw [← hgone.items] at hunremoved
      exact hfree victim (hunremoved ▸ hvictim) (hholds.self hself)
    · rw [← hgone.items] at hleft
      have hmem : removal ∈ (r₃ ++ (r₂ ++ r₁)).reverse ++ earlier.reverse := by
        rw [← List.append_assoc, hsplit]
        simp
      obtain ⟨kept, hkept, hidentified⟩ := hbefore removal hmem hremoval
      exact hfree kept (hleft ▸ hkept) hidentified

end

/-- With unique groups enforced, an update that deletes through an owned relation frees the id of
    the linked record, provided that the keys before the relation leave the link as it was and that
    the call spares the linked record. -/
theorem owned_delete_frees_id {schema : Schema}
    (henforced : schema.options.enforceUnique = true) (clock : Int) (entropy : Entropy)
    (requests : List Request) {key : String} {field : Field} {linkage : Linkage}
    {data before later operations current record : Record} {arg : Value}
    (hmodel : model ∈ schema.models) (howns : schema.Owns model key field linkage related)
    (hid : related.idFields = [idField])
    (hdata : data = before ++ (key, .object (operations ++ [("delete", arg)])) :: later)
    (henabled : arg.isEnabled = true)
    (hstore : store = (ofSchema schema clock entropy).run requests)
    (hlinked : NestedWrites.linkedRecord store linkage related current = some victim)
    (hrun : (Write.updateRecord model current data).outcome store = (.ok record, last))
    (hkept : (NestedWrites.inPayload data).linkedAfter model current before linkage related store =
      NestedWrites.linkedRecord store linkage related current)
    (hself : Record.same victim victim = true)
    (hspare : Notice.Spare related victim (store.heard last)) : last.IdFree related victim := by
  obtain ⟨hschema, hunique⟩ := holdsUnique_run schema henforced clock entropy requests
  rw [← hstore] at hschema hunique
  subst hschema
  have hupdate : ((NestedWrites.inPayload data).updateStep model current data).outcome store =
      (.ok record, last) := hrun
  rw [hdata] at hupdate hkept
  obtain ⟨found, turn, gone, hfound, hvictim, hturn, hremoved, hgone, hlast⟩ :=
    NestedWrites.exists_removal henforced hunique hmodel howns henabled (hkept.trans hlinked)
      hupdate
  obtain ⟨r₁, htold₁⟩ := hfound.told
  obtain ⟨r₂, htold₂⟩ := hturn.told
  obtain ⟨r₃, htold₃⟩ := hgone.told
  obtain ⟨r₄, htold₄⟩ := hlast.told
  rw [(((htold₁.trans htold₂).trans htold₃).trans htold₄).heard_eq] at hspare
  have hrelated : related ∈ turn.schema.models := by
    rw [hturn.schema_eq, hfound.schema_eq]
    exact Schema.mem_of_relatedModel howns.related_eq
  have hfree : gone.IdFree related victim :=
    idFree_of_deleteRecord hturn.unique hrelated hid
      (same_of_spare hspare hself hvictim htold₂ hturn.unique hrelated hid) hremoved
  exact idFree_of_spare hspare hself hvictim (htold₂.trans htold₃) htold₄ hfree

end Store

namespace Press

open NestedWrites Store Write

/-- Authors, each with a name. -/
def author : Model where
  name := "Author"
  fields := [
    { name := "id", kind := .scalar, typeName := "Int", isId := true },
    { name := "name", kind := .scalar, typeName := "String" },
    { name := "posts", kind := .relation, typeName := "Post", isList := true,
      relationName := some "wrote" }]

/-- Posts, which refer to their authors. -/
def post : Model where
  name := "Post"
  fields := [
    { name := "id", kind := .scalar, typeName := "Int", isId := true },
    { name := "title", kind := .scalar, typeName := "String" },
    { name := "authorId", kind := .scalar, typeName := "Int" },
    { name := "writer", kind := .relation, typeName := "Author", relationName := some "wrote",
      fromFields := ["authorId"], toFields := ["id"] }]

def schema : Schema where
  options := {}
  models := [author, post]
  nodup_names := by decide
  targets_known := by decide

/-- An author, and a post of theirs. -/
def requests : List Request :=
  [.write .create "Author" (.object [("data",
      .object [("id", .integer 1), ("name", .string "a")])]),
    .write .create "Post" (.object [("data",
      .object [("id", .integer 7), ("authorId", .integer 1)])])]

/-- The store with that author and that post. -/
def store : Store := (ofSchema schema 0 ⟨0⟩).run requests

/-- The relation field from posts to their authors. -/
def writerField : Field :=
  { name := "writer", kind := .relation, typeName := "Author", relationName := some "wrote",
    fromFields := ["authorId"], toFields := ["id"] }

/-- Posts refer to their authors by id. -/
def byId : Linkage := ⟨["authorId"], ["id"], true⟩

theorem mem_post : post ∈ schema.models := List.mem_cons_of_mem _ (List.mem_singleton_self _)

theorem owns_author : schema.Owns post "writer" writerField byId author :=
  ⟨rfl, rfl, by decide, rfl, rfl⟩

/-- The author of the post, as stored. -/
def writer : Record := [("id", .integer 1), ("name", .string "a")]

/-- The post, as stored. -/
def article : Record := [("id", .integer 7), ("title", .null), ("authorId", .integer 1)]

/-- The post is given a title, and its author is deleted. -/
def orphaning : Record :=
  [("title", .string "t"), ("writer", .object [("delete", .bool true)])]

/-- Without another operation the author goes. -/
theorem delete_author :
    linkedRecord store byId author article = some writer ∧
      ∃ last, (updateRecord post article orphaning).outcome store =
          (.ok [("id", .integer 7), ("title", .string "t"), ("authorId", .null)], last) ∧
        Notice.Spare author writer (store.heard last) ∧ last.IdFree author writer := by
  have hspare : Notice.Spare author writer
      (store.heard ((updateRecord post article orphaning).after store)) :=
    Notice.spare_of_unlisted (by decide)
  have hdata : orphaning =
      [("title", .string "t")] ++ ("writer", .object ([] ++ [("delete", .bool true)])) :: [] := rfl
  have hlinked : linkedRecord store byId author article = some writer := rfl
  have hkept : (inPayload orphaning).linkedAfter post article [("title", .string "t")] byId author
      store = linkedRecord store byId author article :=
    linkedAfter_of_scalar (by decide) (by decide) rfl
  refine ⟨hlinked, _, rfl, hspare, ?_⟩
  exact owned_delete_frees_id rfl 0 ⟨0⟩ requests mem_post owns_author rfl hdata rfl rfl hlinked rfl
    hkept (by decide) hspare

/-- An author who is given another name first is not the one to be deleted any more: not every
    update that deletes through an owned relation frees the id of the linked record. -/
theorem not_forall_idFree :
    ¬ ∀ (schema : Schema), schema.options.enforceUnique = true →
      ∀ (clock : Int) (entropy : Entropy) (requests : List Request) (model related : Model)
        (key ownId idField : String) (field : Field) (linkage : Linkage),
        model ∈ schema.models → schema.Owns model key field linkage related →
        model.idFields = [ownId] → related.idFields = [idField] →
      ∀ (before later operations current victim record : Record) (arg : Value) (store last : Store),
        arg.isEnabled = true → store = (ofSchema schema clock entropy).run requests →
        current ∈ store.items model.name →
        linkedRecord store linkage related current = some victim →
        (updateRecord model current
          (before ++ (key, .object (operations ++ [("delete", arg)])) :: later)).outcome store =
            (.ok record, last) → last.IdFree related victim := by
  intro h
  let data : Record :=
    [("writer", .object [("update", .object [("name", .string "b")]), ("delete", .bool true)])]
  have hitems : ((updateRecord post article data).after store).items "Author" =
      [[("id", .integer 1), ("name", .string "b")]] := rfl
  have hfree := h schema rfl 0 ⟨0⟩ requests post author "writer" "id" "id" writerField byId mem_post
    owns_author rfl rfl [] [] [("update", .object [("name", .string "b")])] article writer
    [("id", .integer 7), ("title", .null), ("authorId", .null)] (.bool true) store
    ((updateRecord post article data).after store) rfl rfl (List.mem_singleton_self _) rfl rfl
  exact hfree _ (hitems ▸ List.mem_singleton_self _) (by decide)

end Press

end RecordStore
