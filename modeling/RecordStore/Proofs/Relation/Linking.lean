import RecordStore.Proofs.Relation.Local
import RecordStore.Proofs.Write.InPlace

/-!
# Linking records through a relation field

An update whose payload names one relation field refreshes its record first, and then writes the
links.  Links are kept in columns of the linked records or in a join; in both cases connecting goes
filter by filter, and each record is linked before the next one is picked.
-/

namespace RecordStore

namespace Write

/-- Writes one operation through a relation field of a stored record. -/
def relink (model : Model) (field : Field) (item : Record) (operation : String) (arg : Value) :
    Write Record :=
  updateRecord model item [(field.name, .object [(operation, arg)])]

/-- The ids of the records that some filters pick, one each, when every record is linked before the
    next one is picked. -/
def picks (related : Model) (link : Record → Write Unit) : List Record → Store → List Value
  | [], _ => []
  | filter :: rest, store =>
      match store.first? related (some filter) with
      | none => []
      | some target =>
          related.recordId target :: picks related link rest ((link target).after store)

/-- Links the records that some filters pick. -/
def connectEach (related : Model) (link : Record → Write Unit) (filters : List Record) :
    Write Unit :=
  filters.forM fun filter => connectTarget related filter >>= link

variable {related : Model} {link : Record → Write Unit} {store last : Store} {target : Record}

/-- A record is there to be connected when it is the first one that satisfies the filter. -/
theorem connectTarget_ok {filter : Record}
    (h : (connectTarget related filter).outcome store = (.ok target, last)) :
    store.first? related (some filter) = some target ∧ last = store := by
  unfold connectTarget at h
  rw [outcome_bind_get] at h
  cases hfirst : store.first? related (some filter) with
  | none =>
      rw [hfirst] at h
      cases h
  | some found =>
      rw [hfirst] at h
      obtain ⟨hfound, rfl⟩ := Prod.mk.inj h
      exact ⟨congrArg some (Except.ok.inj hfound), rfl⟩

/-- If linking one record adds its id to those that are linked, then connecting adds what the
    filters pick. -/
theorem linked_connectEach (inv : Store → Prop) (linked : Store → Value → Prop)
    (hstep : ∀ store target next, inv store → target ∈ store.items related.name →
      (link target).outcome store = (.ok (), next) →
        inv next ∧ ∀ id, linked next id ↔ linked store id ∨ id = related.recordId target)
    (filters : List Record) : ∀ store, inv store →
      (connectEach related link filters).outcome store = (.ok (), last) →
        inv last ∧ ∀ id, linked last id ↔ linked store id ∨ id ∈ picks related link filters store := by
  induction filters with
  | nil =>
      intro store hinv h
      obtain rfl : store = last := congrArg Prod.snd h
      refine ⟨hinv, fun id => ?_⟩
      simp only [picks, List.not_mem_nil, or_false]
  | cons filter rest ih =>
      intro store hinv h
      obtain ⟨_, next, hfirst, hrest⟩ := outcome_bind_ok h
      obtain ⟨target, found, htarget, hlink⟩ := outcome_bind_ok hfirst
      obtain ⟨hpick, rfl⟩ := connectTarget_ok htarget
      obtain ⟨hnext, hadds⟩ := hstep found target next hinv (List.mem_of_find?_eq_some hpick) hlink
      obtain ⟨hlast, hpicks⟩ := ih next hnext hrest
      have hafter : (link target).after found = next := congrArg Prod.snd hlink
      have hpicked : picks related link (filter :: rest) found =
          related.recordId target :: picks related link rest next := by
        simp only [picks, hpick, hafter]
      refine ⟨hlast, fun id => ?_⟩
      rw [hpicks, hadds, hpicked, List.mem_cons, or_assoc]

end Write

namespace Store

/-- The ids of the records that are linked to a record through a relation field. -/
def relatedIds (store : Store) (model : Model) (field : Field) (related : Model) (item : Record) :
    List Value :=
  (store.related model field item).map related.recordId

variable {model : Model} {written written' : Record}

/-- A record is refreshed in the light of the names that are written, not of the values. -/
theorem refreshFields_congr
    (h : ∀ name, Entries.contains name written = Entries.contains name written')
    (fields : List Field) (record : Record) (store : Store) :
    refreshFields model written fields record store =
      refreshFields model written' fields record store := by
  induction fields generalizing record store with
  | nil => rfl
  | cons field rest ih =>
      have hfield : refreshField model written record field store =
          refreshField model written' record field store := by
        unfold refreshField
        rw [h]
      simp only [refreshFields, hfield, ih]

end Store

namespace NestedWrites

open Write

variable {store last : Store} {model related : Model} {field : Field}
variable {item record target data : Record} {operation : String} {arg : Value}

/-- An update by a payload of plain fields does not depend on the depth that is left. -/
theorem updateRecord_of_scalar (hscalar : model.ScalarPayload data) (depth : Nat)
    (current : Record) :
    (within (depth + 1)).update model current data = Write.updateRecord model current data :=
  (updateStep_of_scalar _ hscalar current).trans (updateStep_of_scalar _ hscalar current).symm

/-- Unless it asks for all, an operation takes its filters one by one. -/
theorem filtersOf_eq_map {narrow : Option Record → Record} (h : arg ≠ .bool true) :
    filtersOf narrow arg = arg.objects.map fun filter => narrow (some filter) := by
  cases arg with
  | bool truth =>
      cases truth with
      | false => rfl
      | true => exact absurd rfl h
  | _ => rfl

/-- What is discarded has been done. -/
theorem outcome_discard_ok {α : Type} {w : Write α}
    (h : (discard w).outcome store = (.ok (), last)) : ∃ a, w.outcome store = (.ok a, last) := by
  have hmap : (discard w).outcome store = ((fun _ => ()) <$> w).outcome store := rfl
  rw [hmap, outcome_map] at h
  rcases hrun : w.outcome store with ⟨_ | a, next⟩
  · rw [hrun] at h
    cases h
  · rw [hrun] at h
    obtain rfl : next = last := congrArg Prod.snd h
    exact ⟨a, rfl⟩

/-- The link of a field is kept elsewhere than in the record itself. -/
structure Waits (schema : Schema) (model : Model) (field : Field) : Prop where
  declared : model.field? field.name = some field
  relation : field.isRelation = true
  elsewhere : ∀ linkage, schema.linkage? model field = some linkage → linkage.owned = false

/-- A write through such a field is gathered, to be run when the record has been refreshed. -/
theorem outcome_revisionStep (hwaits : Waits store.schema model field) (nested : NestedWrites)
    (revision : Revision) (operations : Record) :
    (nested.revisionStep model revision field.name (.object operations)).outcome store =
      (.ok { revision with deferred := revision.deferred ++ [(field, operations)] }, store) := by
  simp only [revisionStep, hwaits.declared, hwaits.relation, if_true]
  rw [outcome_bind_get]
  cases hlinkage : store.schema.linkage? model field with
  | none => rfl
  | some linkage =>
      simp only [hwaits.elsewhere linkage hlinkage, Bool.false_eq_true, if_false]
      rfl

/-- An update through such a field alone refreshes its record, and then writes the links. -/
theorem outcome_relink (hwaits : Waits store.schema model field) (item : Record)
    (operation : String) (arg : Value) :
    ∃ depth, (relink model field item operation arg).outcome store = (do
      let next ← settle model [(field.name, .object [(operation, arg)])] item item
      (within (depth + 1)).writeRelated model field [(operation, arg)] next
      return next : Write Record).outcome store := by
  obtain ⟨depth, hdepth⟩ : ∃ depth, relink model field item operation arg =
      (within (depth + 1)).updateStep model item [(field.name, .object [(operation, arg)])] :=
    ⟨_, rfl⟩
  refine ⟨depth, ?_⟩
  rw [hdepth, updateStep_eq, List.foldlM_cons, bind_assoc, outcome_bind]
  dsimp only
  rw [outcome_revisionStep hwaits]
  simp only [List.foldlM_nil, List.nil_append, List.forM, pure_bind, bind_assoc]

/-- Through key columns of the dependents, one operation is one step. -/
theorem outcome_writeRelated_columns {linkage : Linkage} {scope : Record}
    (hlinkage : store.schema.linkage? model field = some linkage)
    (hrelated : store.schema.relatedModel field = .ok related)
    (hscope : linkage.scope record = some scope) (nested : NestedWrites) (operation : String)
    (arg : Value) :
    (nested.writeRelated model field [(operation, arg)] record).outcome store =
      (nested.dependentStep related scope linkage.detached operation arg).outcome store := by
  rw [writeRelated, outcome_bind_get, hlinkage]
  dsimp only
  rw [writeDependents, outcome_bind_get, outcome_bind, outcome_require, hrelated]
  simp only [hscope, List.forM]
  exact congrArg (outcome · store) (bind_pure _)

/-- Through a join, one operation is one step. -/
theorem outcome_writeRelated_join {joinEnd : JoinEnd}
    (hlinkage : store.schema.linkage? model field = none)
    (hend : NestedWrites.joinEnd store model field record = .ok joinEnd) (nested : NestedWrites)
    (operation : String) (arg : Value) :
    (nested.writeRelated model field [(operation, arg)] record).outcome store =
      (nested.joinStep joinEnd operation arg).outcome store := by
  rw [writeRelated, outcome_bind_get, hlinkage]
  dsimp only
  rw [writeJoin, outcome_bind_get, outcome_bind, outcome_require, hend]
  simp only [List.forM]
  exact congrArg (outcome · store) (bind_pure _)

end NestedWrites

/-- Operations on the links of a record act on the set of the linked ids: connecting adds the ids
    that are picked, setting starts from no links, and disconnecting removes all ids, or those of
    the records that satisfy one of some local filters. -/
structure Store.ActsOnLinks (store : Store) (model : Model) (field : Field) (related : Model)
    (item : Record) (link : Record → Write Unit) (step : String → Value → Write Unit) : Prop where
  connect : ∀ arg last, (step "connect" arg).outcome store = (.ok (), last) → ∀ id,
    id ∈ last.relatedIds model field related item ↔
      id ∈ store.relatedIds model field related item ∨
        id ∈ Write.picks related link arg.objects store
  set : ∀ arg last, (step "set" arg).outcome store = (.ok (), last) →
    ∃ cleared, (step "set" (.array [])).outcome store = (.ok (), cleared) ∧ ∀ id,
      id ∈ last.relatedIds model field related item ↔
        id ∈ Write.picks related link arg.objects cleared
  clear : ∀ last, (step "disconnect" (.bool true)).outcome store = (.ok (), last) → ∀ id,
    id ∉ last.relatedIds model field related item
  disconnect : ∀ arg last, arg ≠ .bool true →
    (∀ filter ∈ arg.objects, Filter.isLocal related filter = true) →
    (step "disconnect" arg).outcome store = (.ok (), last) → ∀ id,
      id ∈ last.relatedIds model field related item ↔
        ∃ other ∈ store.related model field item, related.recordId other = id ∧
          ∀ filter ∈ arg.objects, store.satisfies related other filter = false

/-- Only what the operations come to on the store matters. -/
theorem Store.ActsOnLinks.congr {store : Store} {model related : Model} {field : Field}
    {item : Record} {link : Record → Write Unit} {step step' : String → Value → Write Unit}
    (h : store.ActsOnLinks model field related item link step)
    (hsteps : ∀ operation arg, (step' operation arg).outcome store =
      (step operation arg).outcome store) :
    store.ActsOnLinks model field related item link step' where
  connect arg last hrun := h.connect arg last (hsteps _ _ ▸ hrun)
  set arg last hrun := by
    rw [hsteps]
    exact h.set arg last (hsteps _ _ ▸ hrun)
  clear last hrun := h.clear last (hsteps _ _ ▸ hrun)
  disconnect arg last harg hlocal hrun := h.disconnect arg last harg hlocal (hsteps _ _ ▸ hrun)

end RecordStore
