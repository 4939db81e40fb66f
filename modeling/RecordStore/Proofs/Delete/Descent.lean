import RecordStore.Proofs.Delete.Termination
import RecordStore.Proofs.Relation.KeyColumns

/-!
# Deletes by recursion on the number of records

A cascade starts from fewer records than the delete that it is part of.  Deletes could therefore be
defined without a bound on their nesting, by recursion on the number of records and running no
cascade that starts from as many or more.  That comes to the same as the bounded delete, and so does
every greater bound, on cyclic schemas and on cyclic data.
-/

namespace RecordStore

namespace Write

/-- A delete on a store of so many records, without a bound on its nesting: its cascades run where
    they start from fewer. -/
def deleteDescending (count : Nat) (model : Model) (filter : Option Record) :
    Write (List Record) :=
  deleteStep
    (fun dependents scope => do
      let fewer := (← get).recordCount
      if _h : fewer < count then discard (deleteDescending fewer dependents (some scope))
      else throw .nestingExceeded)
    model filter
termination_by count

/-- A cascade that runs only where it starts from fewer records than there were. -/
def cascadeBelow (count : Nat) (dependents : Model) (scope : Record) : Write Unit := do
  let fewer := (← get).recordCount
  if fewer < count then discard (deleteDescending fewer dependents (some scope))
  else throw .nestingExceeded

theorem deleteDescending_eq (count : Nat) (model : Model) (filter : Option Record) :
    deleteDescending count model filter = deleteStep (cascadeBelow count) model filter := by
  rw [deleteDescending]
  rfl

/-- A cascade runs where it starts from fewer records, and there it is the bounded one. -/
theorem agree_cascadeBelow {depth count less : Nat} (hdepth : less < depth) (hcount : less < count)
    (h : ∀ fewer ≤ less, ∀ model filter, ShrinkAlike fewer (deleteWithin depth model filter)
      (deleteDescending fewer model filter)) (dependents : Model) (scope : Record) :
    ShrinkAlike less (discard (deleteWithin depth dependents (some scope)))
      (cascadeBelow count dependents scope) where
  triple := .discard (shrinks_deleteWithin depth less hdepth dependents (some scope))
  same store hstore := by
    have halike : ShrinkAlike store.recordCount
        (discard (deleteWithin depth dependents (some scope)))
        (discard (deleteDescending store.recordCount dependents (some scope))) :=
      .discard (h store.recordCount hstore dependents (some scope))
    rw [cascadeBelow, outcome_bind_get, if_pos (Nat.lt_of_le_of_lt hstore hcount)]
    exact halike.same store (Nat.le_refl _)

/-- The bounded delete is the one by recursion on the number of records. -/
theorem agree_deleteDescending (bound : Nat) :
    ∀ depth > bound, ∀ count ≥ bound, ∀ (model : Model) (filter : Option Record),
      ShrinkAlike bound (deleteWithin depth model filter)
        (deleteDescending count model filter) := by
  induction bound using Nat.strong_induction_on with
  | _ bound ih =>
      intro depth hdepth count hcount model filter
      obtain ⟨depth, rfl⟩ := Nat.exists_eq_succ_of_ne_zero (Nat.ne_zero_of_lt hdepth)
      rw [deleteWithin_succ, deleteDescending_eq]
      refine agree_deleteStep (fun less hless dependents scope => ?_) model filter
      have hless' : less < depth := Nat.lt_of_lt_of_le hless (Nat.le_of_lt_succ hdepth)
      refine agree_cascadeBelow hless' (Nat.lt_of_lt_of_le hless hcount)
        (fun fewer hfewer => ?_) dependents scope
      exact ih fewer (Nat.lt_of_le_of_lt hfewer hless) depth (Nat.lt_of_le_of_lt hfewer hless')
        fewer (Nat.le_refl _)

/-- Bounds above the number of records make no difference. -/
theorem agree_deleteWithin {bound depth depth' : Nat} (h : bound < depth) (h' : bound < depth')
    (model : Model) (filter : Option Record) :
    ShrinkAlike bound (deleteWithin depth model filter) (deleteWithin depth' model filter) :=
  (agree_deleteDescending bound depth h bound (Nat.le_refl _) model filter).of_common
    (agree_deleteDescending bound depth' h' bound (Nat.le_refl _) model filter)

/-- **Deletes come to an end** on every schema whose key columns are plain fields, and on every
    store of it.  What is linked is found without following any other link; and a delete succeeds,
    in the same way whether its nesting is bounded, by any number greater than that of the records,
    or its cascades are only asked to start from fewer records than the delete that they are part
    of. -/
theorem deletes_descend (store : Store) (hcolumns : store.schema.ScalarColumns) :
    (∀ model ∈ store.schema.models, ∀ field ∈ model.relationFields, ∀ record links,
      store.linkedBy links model field record = store.related model field record) ∧
    (∀ model filter, ∃ gone next,
      (deleteMatching model filter).outcome store = (.ok gone, next) ∧
      (deleteDescending store.recordCount model filter).outcome store = (.ok gone, next) ∧
      ∀ depth > store.recordCount,
        (deleteWithin depth model filter).outcome store = (.ok gone, next)) ∧
    ∀ model target, ∃ next,
      (deleteRecord model target).outcome store = (.ok (), next) ∧
      (deleteTarget cascadeBelow model target).outcome store = (.ok (), next) ∧
      ∀ depth ≥ store.recordCount,
        (deleteTarget (fun _ dependents scope =>
          discard (deleteWithin depth dependents (some scope))) model target).outcome store =
            (.ok (), next) := by
  refine ⟨fun model hmodel field hfield => Store.linkedBy_eq_related hcolumns hmodel hfield,
    fun model filter => ?_, fun model target => ?_⟩
  · obtain ⟨gone, next, hrun⟩ :=
      Shrinks.succeeds (fun bound => shrinks_deleteMatching bound model filter) store
    have hwithin := (outcome_deleteMatching model filter store).symm.trans hrun
    have hless := Nat.lt_succ_self store.recordCount
    have hdescending := agree_deleteDescending store.recordCount _ hless _ (Nat.le_refl _)
      model filter
    exact ⟨gone, next, hrun, (hdescending.same store (Nat.le_refl _)).trans hwithin,
      fun depth hdepth =>
        ((agree_deleteWithin hless hdepth model filter).same store (Nat.le_refl _)).trans hwithin⟩
  · obtain ⟨_, next, hrun⟩ :=
      Shrinks.succeeds (fun bound => shrinks_deleteRecord bound model target) store
    rw [deleteRecord_eq] at hrun
    refine ⟨next, hrun, ?_, fun depth hdepth => ?_⟩
    · have hcascade (count : Nat) (_ : count ≤ store.recordCount) (less : Nat)
          (hless : less < count) (dependents : Model) (scope : Record) :
          ShrinkAlike less (discard (deleteWithin (count + 1) dependents (some scope)))
            (cascadeBelow count dependents scope) :=
        agree_cascadeBelow (Nat.lt_succ_of_lt hless) hless
          (fun fewer hfewer => agree_deleteDescending fewer _
            (Nat.lt_succ_of_le (Nat.le_trans hfewer (Nat.le_of_lt hless))) fewer (Nat.le_refl _))
          dependents scope
      exact ((agree_deleteTarget hcascade model target).same store (Nat.le_refl _)).trans hrun
    · have hcascade (count : Nat) (hcount : count ≤ store.recordCount) (less : Nat)
          (hless : less < count) (dependents : Model) (scope : Record) :
          ShrinkAlike less (discard (deleteWithin (count + 1) dependents (some scope)))
            (discard (deleteWithin depth dependents (some scope))) :=
        .discard (agree_deleteWithin (Nat.lt_succ_of_lt hless)
          (Nat.lt_of_lt_of_le hless (Nat.le_trans hcount hdepth)) dependents (some scope))
      exact ((agree_deleteTarget hcascade model target).same store (Nat.le_refl _)).trans hrun

end Write

/-! A box that is locked by the key inside it, and a box inside itself. -/

namespace Attic

open Store Write

def box : Model where
  name := "Box"
  fields := [
    { name := "id", kind := .scalar, typeName := "Int", isId := true },
    { name := "insideId", kind := .scalar, typeName := "Int" },
    { name := "inside", kind := .relation, typeName := "Box", relationName := some "nested",
      fromFields := ["insideId"], toFields := ["id"], onDelete := some .cascade },
    { name := "boxes", kind := .relation, typeName := "Box", isList := true,
      relationName := some "nested" },
    { name := "keyId", kind := .scalar, typeName := "Int" },
    { name := "key", kind := .relation, typeName := "Key", relationName := some "locked",
      fromFields := ["keyId"], toFields := ["id"], onDelete := some .cascade },
    { name := "keys", kind := .relation, typeName := "Key", isList := true,
      relationName := some "kept" }]

def key : Model where
  name := "Key"
  fields := [
    { name := "id", kind := .scalar, typeName := "Int", isId := true },
    { name := "boxId", kind := .scalar, typeName := "Int" },
    { name := "box", kind := .relation, typeName := "Box", relationName := some "kept",
      fromFields := ["boxId"], toFields := ["id"], onDelete := some .cascade },
    { name := "locks", kind := .relation, typeName := "Box", isList := true,
      relationName := some "locked" }]

def schema : Schema := ⟨{}, [box, key], by decide, by decide⟩

def attic : Store :=
  { ofSchema schema 0 ⟨0⟩ with
    collections := [
      ("Box", [[("id", .integer 1), ("insideId", .integer 2), ("keyId", .integer 1)],
        [("id", .integer 2), ("insideId", .integer 2), ("keyId", .null)]]),
      ("Key", [[("id", .integer 1), ("boxId", .integer 1)]])] }

/-- The outer box takes the inner one with it, that one takes the key, and then nothing is left. -/
theorem delete_outer_box :
    attic.schema.ScalarColumns ∧
      ((deleteMatching box (some [("id", .integer 2)])).after attic).recordCount = 0 ∧
      ∃ gone next,
        (deleteMatching box (some [("id", .integer 2)])).outcome attic = (.ok gone, next) ∧
        (deleteDescending attic.recordCount box (some [("id", .integer 2)])).outcome attic =
          (.ok gone, next) ∧
        ∀ depth > attic.recordCount,
          (deleteWithin depth box (some [("id", .integer 2)])).outcome attic = (.ok gone, next) := by
  have hcolumns : attic.schema.ScalarColumns := ⟨by decide, by decide, by decide⟩
  exact ⟨hcolumns, by decide, (deletes_descend attic hcolumns).2.1 box (some [("id", .integer 2)])⟩

end Attic

end RecordStore
