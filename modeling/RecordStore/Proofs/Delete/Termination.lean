import Mathlib.Data.List.Basic
import RecordStore.Proofs.Collections
import RecordStore.Proofs.Schema
import RecordStore.Proofs.Write.Agreement

/-!
# Deletes come to an end

A cascade starts from a store that has just lost a record, and nothing in it adds one.  The number
of records at the start therefore bounds the nesting of cascades: a delete never runs out of depth,
and there is nothing else on which it could fail.
-/

namespace RecordStore

/-! ## The number of records -/

namespace Entries

/-- Writing a list in place of another trades their lengths. -/
theorem length_flatMap_insert {α : Type} (name : String) (records : List α)
    (entries : Entries (List α)) :
    ((insert name records entries).flatMap (·.2)).length + ((get? name entries).getD []).length =
      (entries.flatMap (·.2)).length + records.length := by
  induction entries with
  | nil => simp [insert]
  | cons entry rest ih =>
      obtain ⟨key, old⟩ := entry
      by_cases h : key = name
      · simp only [insert, get?_cons, if_pos h, List.flatMap_cons, List.length_append,
          Option.getD_some]
        omega
      · simp only [insert, get?_cons, if_neg h, List.flatMap_cons, List.length_append]
        omega

end Entries

namespace Store

/-- Writing a collection trades its records for others. -/
theorem recordCount_replaceCollection (store : Store) (name : String) (records : List Record) :
    (store.replaceCollection name records).recordCount + (store.items name).length =
      store.recordCount + records.length :=
  Entries.length_flatMap_insert name records store.collections

/-- Detaching keeps the number of records. -/
theorem recordCount_detach (store : Store) (model : Model) (scope detached : Record) :
    (store.detach model scope detached).recordCount = store.recordCount := by
  unfold detach
  split
  · have hcount := store.recordCount_replaceCollection model.name
      (store.detachedItems model scope detached)
    have hlength : (store.detachedItems model scope detached).length =
        (store.items model.name).length := by rw [detachedItems, List.length_map]
    omega
  · rfl

/-- Removing links keeps the number of records. -/
theorem recordCount_unlinkAll (store : Store) (model : Model) (record : Record) :
    (store.unlinkAll model record).recordCount = store.recordCount := by
  unfold unlinkAll
  dsimp only
  split <;> rfl

end Store

namespace Write

open Store

/-! ## No delete fails -/

/-- A write that always succeeds, and never adds to a number of records. -/
def Shrinks {α : Type} (bound : Nat) (w : Write α) : Prop :=
  Triple (fun store => store.recordCount ≤ bound) w (fun _ store => store.recordCount ≤ bound)
    fun _ _ => False

/-- Every store has some number of records, so such a write succeeds on every store. -/
theorem Shrinks.succeeds {α : Type} {w : Write α} (h : ∀ bound, Shrinks bound w) (store : Store) :
    ∃ a next, w.outcome store = (.ok a, next) := by
  cases hrun : w.outcome store with
  | mk result next =>
      cases result with
      | ok a => exact ⟨a, next, rfl⟩
      | error e => exact ((h store.recordCount).error (Nat.le_refl _) hrun).elim

/-- Two writes that always succeed, never add to a number of records, and come to the same. -/
def ShrinkAlike {α : Type} (bound : Nat) (w w' : Write α) : Prop :=
  Agree (fun store => store.recordCount ≤ bound) w w' (fun _ store => store.recordCount ≤ bound)
    fun _ _ => False

/-- Cascades that agree deal with the dependents of a record alike. -/
theorem agree_applyPolicy {bound : Nat} {cascade cascade' : Model → Record → Write Unit}
    (hcascade : ∀ model scope, ShrinkAlike bound (cascade model scope) (cascade' model scope))
    (model : Model) (record : Record) (field : Field) :
    ShrinkAlike bound (applyPolicy cascade model record field)
      (applyPolicy cascade' model record field) := by
  refine Agree.bind_get fun current hcount => ?_
  dsimp only
  split
  · exact Agree.pure fun _ hstore => hstore ▸ hcount
  · rename_i linkage hlinkage
    by_cases howned : linkage.owned = true
    · rw [if_pos howned, if_pos howned]
      exact Agree.pure fun _ hstore => hstore ▸ hcount
    · rw [if_neg howned, if_neg howned]
      split
      · obtain ⟨other, hother, -, -⟩ :=
          Schema.reciprocal_of_linkage hlinkage (Bool.not_eq_true _ ▸ howned)
        obtain ⟨related, hrelated, -, -⟩ := Schema.related_of_reciprocal hother
        rw [hrelated]
        refine Agree.bind_require (fun dependents _ => ?_) fun e he => by cases he
        split
        · exact (hcascade dependents _).weaken (fun _ hstore => hstore ▸ hcount) fun _ _ h => h
        · refine .refl (.modify fun store hstore => ?_)
          rw [recordCount_detach]
          exact hstore ▸ hcount
        · exact Agree.pure fun _ hstore => hstore ▸ hcount
      · exact Agree.pure fun _ hstore => hstore ▸ hcount

/-- They do so for all fields of its model. -/
theorem agree_afterDelete {bound : Nat} {cascade cascade' : Model → Record → Write Unit}
    (hcascade : ∀ model scope, ShrinkAlike bound (cascade model scope) (cascade' model scope))
    (model : Model) (record : Record) :
    ShrinkAlike bound (afterDelete cascade model record) (afterDelete cascade' model record) := by
  refine Agree.bind (M := fun _ store => store.recordCount ≤ bound)
    (.refl (.modify fun store hstore => ?_)) fun _ => ?_
  · rw [recordCount_unlinkAll]
    exact hstore
  · exact Agree.forM (fun _ store => store.recordCount ≤ bound) _ fun field _ _ =>
      agree_applyPolicy hcascade model record field

/-- A delete of the records that satisfy a filter, when it is given how cascades run. -/
def deleteStep (cascade : Model → Record → Write Unit) (model : Model) (filter : Option Record) :
    Write (List Record) := do
  let store ← get
  let (gone, kept) := (store.items model.name).partition fun record =>
    filter.all fun filter => store.satisfies model record filter
  if gone.isEmpty then pure []
  else
    set (store.replaceCollection model.name kept)
    gone.forM (afterDelete cascade model)
    pure gone

/-- A level of a cascade is a delete that goes on with the level below. -/
theorem deleteWithin_succ (depth : Nat) (model : Model) (filter : Option Record) :
    deleteWithin (depth + 1) model filter = deleteStep
      (fun dependents scope => discard (deleteWithin depth dependents (some scope))) model filter :=
  rfl

/-- Deletes are alike where their cascades are, and these start from fewer records. -/
theorem agree_deleteStep {bound : Nat} {cascade cascade' : Model → Record → Write Unit}
    (hcascade : ∀ less < bound, ∀ model scope,
      ShrinkAlike less (cascade model scope) (cascade' model scope))
    (model : Model) (filter : Option Record) :
    ShrinkAlike bound (deleteStep cascade model filter) (deleteStep cascade' model filter) := by
  refine Agree.bind_get fun current hcount => ?_
  rw [List.partition_eq_filter_filter]
  dsimp only
  by_cases hgone : ((current.items model.name).filter fun record =>
      filter.all fun filter => current.satisfies model record filter).isEmpty = true
  · rw [if_pos hgone, if_pos hgone]
    exact Agree.pure fun _ hstore => hstore ▸ hcount
  · rw [if_neg hgone, if_neg hgone]
    -- what is left is less than before
    refine Agree.bind (M := fun _ store => ∃ less < bound, store.recordCount ≤ less)
      (.refl (.set fun _ _ => ?_)) fun _ => ?_
    · have hreplaced := current.recordCount_replaceCollection model.name
        ((current.items model.name).filter (not ∘ fun record =>
          filter.all fun filter => current.satisfies model record filter))
      have hlength := List.length_eq_length_filter_add (l := current.items model.name)
        fun record => filter.all fun filter => current.satisfies model record filter
      have hsome := List.length_pos_iff.mpr (mt List.isEmpty_iff.mpr hgone)
      simp only [Function.comp_def] at hreplaced ⊢
      exact ⟨bound - 1, by omega, by omega⟩
    · refine .of_exists fun less => .assuming fun hless => ?_
      refine Agree.bind (Agree.forM (fun _ store => store.recordCount ≤ less) _
        fun record _ _ => ?_) fun _ => ?_
      · exact agree_afterDelete (hcascade less hless) model record
      · exact Agree.pure fun _ hstore => Nat.le_trans hstore (Nat.le_of_lt hless)

/-- A delete whose depth exceeds the number of records succeeds. -/
theorem shrinks_deleteWithin (depth : Nat) :
    ∀ bound < depth, ∀ (model : Model) (filter : Option Record),
      Shrinks bound (deleteWithin depth model filter) := by
  induction depth with
  | zero => exact fun bound hbound => absurd hbound (Nat.not_lt_zero bound)
  | succ depth ih =>
      intro bound hbound model filter
      -- cascades start from fewer records, so the depth that is left is enough for them
      have hcascade (less : Nat) (hless : less < bound) (dependents : Model) (scope : Record) :
          ShrinkAlike less (discard (deleteWithin depth dependents (some scope)))
            (discard (deleteWithin depth dependents (some scope))) :=
        .refl (.discard (ih less (by omega) dependents (some scope)))
      exact (agree_deleteStep hcascade model filter).triple

/-- The number of records tells how deep a delete may go. -/
theorem outcome_deleteMatching (model : Model) (filter : Option Record) (store : Store) :
    (deleteMatching model filter).outcome store =
      (deleteWithin (store.recordCount + 1) model filter).outcome store := by
  rw [deleteMatching, outcome_bind, outcome_get]

/-- A delete of what a filter selects always succeeds. -/
theorem shrinks_deleteMatching (bound : Nat) (model : Model) (filter : Option Record) :
    Shrinks bound (deleteMatching model filter) := by
  refine Triple.bind_get fun current hcount => ?_
  rintro store rfl
  refine (shrinks_deleteWithin _ _ (Nat.lt_succ_self _) model filter).weaken
    (fun _ h => h) (fun _ _ h => Nat.le_trans h hcount) store (Nat.le_refl _)

/-- A delete of one record, when it is given how cascades run below a number of records. -/
def deleteTarget (cascade : Nat → Model → Record → Write Unit) (model : Model) (target : Record) :
    Write Unit := do
  let store ← get
  match removeFirst target (store.items model.name) with
  | none => pure ()
  | some kept =>
      set (store.replaceCollection model.name kept)
      afterDelete (cascade store.recordCount) model target

theorem deleteRecord_eq (model : Model) (target : Record) : deleteRecord model target = deleteTarget
    (fun count dependents scope => discard (deleteWithin (count + 1) dependents (some scope)))
    model target := rfl

/-- A delete of one record starts its cascades from fewer records, too. -/
theorem agree_deleteTarget {bound : Nat} {cascade cascade' : Nat → Model → Record → Write Unit}
    (hcascade : ∀ count ≤ bound, ∀ less < count, ∀ model scope,
      ShrinkAlike less (cascade count model scope) (cascade' count model scope))
    (model : Model) (target : Record) :
    ShrinkAlike bound (deleteTarget cascade model target) (deleteTarget cascade' model target) := by
  refine Agree.bind_get fun current hcount => ?_
  split
  · exact Agree.pure fun _ hstore => hstore ▸ hcount
  · rename_i kept hkept
    refine Agree.bind (M := fun _ store => ∃ less, less < current.recordCount ∧
      store.recordCount ≤ less) (.refl (.set fun _ _ => ?_)) fun _ => ?_
    · have hreplaced := current.recordCount_replaceCollection model.name kept
      have hlength := length_of_removeFirst hkept
      exact ⟨current.recordCount - 1, by omega, by omega⟩
    · refine .of_exists fun less => .assuming fun hless => ?_
      exact (agree_afterDelete (hcascade _ hcount less hless) model target).weaken (fun _ h => h)
        fun _ _ h => Nat.le_trans h (Nat.le_trans (Nat.le_of_lt hless) hcount)

/-- A delete of one record always succeeds, too. -/
theorem shrinks_deleteRecord (bound : Nat) (model : Model) (target : Record) :
    Shrinks bound (deleteRecord model target) := by
  have hcascade (count : Nat) (_ : count ≤ bound) (less : Nat) (hless : less < count)
      (dependents : Model) (scope : Record) :
      ShrinkAlike less (discard (deleteWithin (count + 1) dependents (some scope)))
        (discard (deleteWithin (count + 1) dependents (some scope))) :=
    .refl (.discard (shrinks_deleteWithin _ _ (Nat.lt_succ_of_lt hless) dependents _))
  exact (agree_deleteTarget hcascade model target).triple

end Write

end RecordStore
