import RecordStore.Proofs.Join.Ends
import RecordStore.Proofs.Uniqueness

/-!
# Looking records up again

A record is looked up again by its id, or by equality if the id is null.  An id that has no null in
it tells a record apart wherever unique groups are enforced: a record with the same id would collide
with it.
-/

namespace RecordStore

open Record

/-! ## Records with ids -/

namespace Value

/-- A value that equals itself by quantity equals itself as data. -/
theorem same_self_of_equalsPlain {v : Value} (h : equalsPlain v v = true) : same v v = true := by
  rcases (equalsPlain_iff v v).mp h with ⟨i, hi, -⟩ | ⟨-, ⟨x, y, hx, hy, hxy⟩ | ⟨-, hsame⟩⟩
  · cases v with
    | integer i => exact beq_self_eq_true i
    | _ => cases hi
  · cases v with
    | integer i => exact beq_self_eq_true i
    | double z =>
        obtain rfl := Option.some.inj hx
        obtain rfl := Option.some.inj hy
        exact hxy
    | _ => cases hx
  · exact hsame

end Value

namespace Model

variable {model : Model} {a b record : Record}

/-- A record that has an id: its model has id fields, and in none of them it has null, or a double
    that is not a number and equals nothing. -/
structure HasId (model : Model) (record : Record) : Prop where
  fields : model.idFields ≠ []
  values : ∀ field ∈ model.idFields, (valueAt field record).isNull = false ∧
    Value.equals .plain (valueAt field record) (valueAt field record) = true

instance (model : Model) (record : Record) : Decidable (model.HasId record) :=
  decidable_of_iff (model.idFields ≠ [] ∧ ∀ field ∈ model.idFields,
      (valueAt field record).isNull = false ∧
        Value.equals .plain (valueAt field record) (valueAt field record) = true)
    ⟨fun h => ⟨h.1, h.2⟩, fun h => ⟨h.fields, h.values⟩⟩

/-- The id fields of a model have a unique group among them: each of those that are declared as
    ids, or else the primary key. -/
theorem exists_unique_idFields (h : model.idFields ≠ []) :
    ∃ group ∈ model.uniqueConstraints, group ⊆ model.idFields := by
  cases hdeclared : model.fields.filter (·.isId) with
  | nil =>
      have hids : model.idFields = (model.primaryKey.map (·.fields)).getD [] := by
        rw [idFields, hdeclared]
        rfl
      cases hkey : model.primaryKey with
      | none => exact absurd (hids.trans (by rw [hkey]; rfl)) h
      | some key =>
          rw [hkey] at hids
          refine ⟨key.fields, mem_dedupNeighbours ?_, fun name hname => hids ▸ hname⟩
          simp only [List.mem_append]
          exact Or.inl (Or.inl (Or.inr (Option.mem_toList.mpr (by rw [hkey]; rfl))))
  | cons field rest =>
      have hids : model.idFields = (field :: rest).map (·.name) := by
        rw [idFields, hdeclared]
        rfl
      have hmem : field ∈ model.fields.filter (·.isId) := hdeclared ▸ List.mem_cons_self
      obtain ⟨hfield, hid⟩ := List.mem_filter.mp hmem
      have hgrouped : field ∈ model.fields.filter fun field => field.isId || field.isUnique :=
        List.mem_filter.mpr ⟨hfield, by rw [hid, Bool.true_or]⟩
      refine ⟨[field.name], mem_dedupNeighbours ?_, ?_⟩
      · simp only [List.mem_append]
        exact Or.inl (Or.inl (Or.inl (List.mem_map_of_mem (f := fun field => [field.name]) hgrouped)))
      · rw [hids]
        exact List.cons_subset.mpr ⟨List.mem_cons_self, List.nil_subset _⟩

/-- Records with the same id hold the same in every id field. -/
theorem valueAt_of_same_recordId (h : Value.same (model.recordId a) (model.recordId b) = true) :
    ∀ field ∈ model.idFields, Value.same (valueAt field a) (valueAt field b) = true := by
  intro field hfield
  unfold recordId at h
  split at h
  · rename_i hnone
    rw [hnone] at hfield
    cases hfield
  · rename_i id hid
    rw [hid, List.mem_singleton] at hfield
    rw [hfield]
    exact h
  · have hitems := (Value.sameItems_iff _ _).mp (show Value.sameItems _ _ = true from h)
    rw [List.forall₂_map_left_iff, List.forall₂_map_right_iff, List.forall₂_same] at hitems
    exact hitems field hfield

namespace HasId

/-- An id is not null. -/
theorem isNull_recordId (h : model.HasId record) : (model.recordId record).isNull = false := by
  unfold recordId
  split
  · rename_i hnone
    exact absurd hnone h.fields
  · rename_i id hid
    exact (h.values id (hid ▸ List.mem_singleton_self id)).1
  · rfl

theorem same_self (h : model.HasId record) :
    Value.same (model.recordId record) (model.recordId record) = true := by
  have hvalue : ∀ field ∈ model.idFields,
      Value.same (valueAt field record) (valueAt field record) = true :=
    fun field hfield => Value.same_self_of_equalsPlain (h.values field hfield).2
  unfold recordId
  split
  · rfl
  · rename_i id hid
    exact hvalue id (hid ▸ List.mem_singleton_self id)
  · show Value.sameItems _ _ = true
    rw [Value.sameItems_iff, List.forall₂_map_left_iff, List.forall₂_map_right_iff,
      List.forall₂_same]
    exact hvalue

/-- A record of the same id collides with it on a unique group. -/
theorem collide (h : model.HasId b)
    (hsame : Value.same (model.recordId a) (model.recordId b) = true) :
    ∃ group ∈ model.uniqueConstraints, Collide group a b := by
  obtain ⟨group, hgroup, hsub⟩ := exists_unique_idFields h.fields
  refine ⟨group, hgroup, fun field hfield => ?_⟩
  obtain ⟨hnull, hself⟩ := h.values field (hsub hfield)
  have hvalue := valueAt_of_same_recordId hsame field (hsub hfield)
  refine ⟨(Value.isNull_of_same hvalue).trans hnull, hnull, Value.equalsPlain_symm ?_⟩
  exact Value.equalsPlain_of_same (Value.same_symm _ _ hvalue) hself

end HasId

/-! ## Recognizing records -/

/-- Whether a stored record is taken for another one when this is looked up again. -/
def recognizes (model : Model) (record item : Record) : Bool :=
  if (model.recordId record).isNull then same item record
  else Value.same (model.recordId item) (model.recordId record)

/-- A record is taken for any that it is equal to. -/
theorem recognizes_of_same (model : Model) (h : same a b = true) : model.recognizes b a = true := by
  unfold recognizes
  split
  · exact h
  · exact model.recordId_of_same h

/-- Equal records are taken for the same ones. -/
theorem recognizes_congr (h : same a b = true) : model.recognizes record a = true ↔
    model.recognizes record b = true := by
  unfold recognizes
  split
  · exact ⟨same_trans (same_symm h), same_trans h⟩
  · have hid := model.recordId_of_same h
    exact ⟨Value.same_trans _ _ _ (Value.same_symm _ _ hid), Value.same_trans _ _ _ hid⟩

theorem HasId.recognizes_eq (h : model.HasId record) (item : Record) :
    model.recognizes record item = Value.same (model.recordId item) (model.recordId record) := by
  rw [recognizes, h.isNull_recordId, if_neg Bool.false_ne_true]

end Model

end RecordStore
