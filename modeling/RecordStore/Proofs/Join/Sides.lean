import Mathlib.Data.String.Basic
import Mathlib.Data.List.Nodup
import RecordStore.Proofs.Schema
import RecordStore.Store

/-!
# The joins of a schema

A schema keeps a join for every relation name that exactly two fields have, neither of which names
key columns.  The sides of the join are these two fields, so a field and its reciprocal are the
sides of their join, in one order or the other.
-/

namespace RecordStore

namespace Joins

variable {models : List Model} {join : Join}

/-! ## Names -/

theorem mem_insertName {name other : String} {names : List String} :
    other ∈ insertName name names ↔ other = name ∨ other ∈ names := by
  induction names with
  | nil => simp [insertName]
  | cons first rest ih =>
      rw [insertName]
      split
      · rename_i heq
        rw [heq, List.mem_cons]
        exact ⟨Or.inr, fun h => h.elim Or.inl id⟩
      · split
        · exact List.mem_cons
        · rw [List.mem_cons, List.mem_cons, ih]
          exact or_left_comm

/-- Names stay in their order. -/
theorem pairwise_insertName (name : String) {names : List String}
    (h : names.Pairwise (· < ·)) : (insertName name names).Pairwise (· < ·) := by
  induction names with
  | nil => exact List.pairwise_singleton _ _
  | cons first rest ih =>
      obtain ⟨hfirst, hrest⟩ := List.pairwise_cons.mp h
      rw [insertName]
      split
      · exact h
      · rename_i hne
        split
        · rename_i hlt
          refine List.pairwise_cons.mpr ⟨fun other hother => ?_, h⟩
          rcases List.mem_cons.mp hother with rfl | hmore
          · exact hlt
          · exact lt_trans hlt (hfirst other hmore)
        · rename_i hnot
          refine List.pairwise_cons.mpr ⟨fun other hother => ?_, ih hrest⟩
          rcases mem_insertName.mp hother with rfl | hmore
          · exact lt_of_le_of_ne (not_lt.mp hnot) (Ne.symm hne)
          · exact hfirst other hmore

/-- A name makes a join of two ends, in their order, if neither is keyed. -/
theorem ofEnds?_eq_some {ends : List NamedEnd} {name : String} :
    ofEnds? ends name = some join ↔
    ∃ x y, ends.filter (fun e => e.relation = name) = [x, y] ∧ x.keyed = false ∧
      y.keyed = false ∧
      join = ⟨name, (orderSides x.side y.side).1, (orderSides x.side y.side).2, []⟩ := by
  unfold ofEnds?
  constructor
  · intro h
    split at h
    · rename_i x y hends
      split at h
      · cases h
      · rename_i hkeyed
        obtain ⟨hx, hy⟩ := Bool.or_eq_false_iff.mp (Bool.not_eq_true _ ▸ hkeyed)
        exact ⟨x, y, hends, hx, hy, (Option.some.inj h).symm⟩
    · cases h
  · rintro ⟨x, y, hends, hx, hy, rfl⟩
    rw [hends]
    simp only [hx, hy, Bool.or_self, Bool.false_eq_true, if_false]

/-- A join has the name that its ends were looked up by. -/
theorem name_of_ofEnds? {ends : List NamedEnd} {name : String}
    (h : ofEnds? ends name = some join) : join.name = name := by
  obtain ⟨x, y, -, -, -, rfl⟩ := ofEnds?_eq_some.mp h
  rfl

/-- The names that ends are grouped by come in their order. -/
theorem pairwise_foldl_insertName (ends : List NamedEnd) :
    ∀ names : List String, names.Pairwise (· < ·) →
      (ends.foldl (fun names e => insertName e.relation names) names).Pairwise (· < ·) := by
  induction ends with
  | nil => exact fun _ h => h
  | cons e rest ih => exact fun names h => ih _ (pairwise_insertName e.relation h)

/-- No two joins of a schema have one name. -/
theorem nodup_names_ofModels (models : List Model) :
    ((ofModels models).map (·.name)).Nodup := by
  have hsorted := pairwise_foldl_insertName (namedEnds models) [] .nil
  have hnames := hsorted.imp fun h => ne_of_lt h
  -- joins of different names come from different names
  refine List.pairwise_map.mpr (List.pairwise_filterMap.mpr (hnames.imp ?_))
  intro name other hne x hx y hy
  rw [name_of_ofEnds? hx, name_of_ofEnds? hy]
  exact hne

/-- A name finds a join that has it. -/
theorem get?_spec {joins : Joins} {name : String} (h : joins.get? name = some join) :
    join ∈ joins ∧ join.name = name := by
  unfold get? at h
  exact ⟨List.mem_of_find?_eq_some h, by simpa using List.find?_some h⟩

/-! ## Sides -/

/-- A side finds a join that has it. -/
theorem ofSide?_spec {joins : Joins} {side : Side} (h : joins.ofSide? side = some join) :
    join ∈ joins ∧ side ∈ join.sides := by
  unfold ofSide? at h
  exact ⟨List.mem_reverse.mp (List.mem_of_find?_eq_some h), by simpa using List.find?_some h⟩

/-- The named ends are the relation fields that have a relation name. -/
theorem mem_namedEnds {e : NamedEnd} :
    e ∈ namedEnds models ↔ ∃ model ∈ models, ∃ field ∈ model.relationFields,
      field.relationName = some e.relation ∧ e.side = ⟨field.name, model.name⟩ ∧
        e.keyed = (!field.fromFields.isEmpty || !field.toFields.isEmpty) := by
  unfold namedEnds
  simp only [List.mem_flatMap, List.mem_filterMap, Option.map_eq_some_iff]
  constructor
  · rintro ⟨model, hmodel, field, hfield, relation, hrelation, rfl⟩
    exact ⟨model, hmodel, field, hfield, hrelation, rfl, rfl⟩
  · rintro ⟨model, hmodel, field, hfield, hrelation, hside, hkeyed⟩
    refine ⟨model, hmodel, field, hfield, e.relation, hrelation, ?_⟩
    rw [← hside, ← hkeyed]

/-- A field of a relation name is one of its ends. -/
theorem end_of_field {model : Model} {field : Field} {name : String}
    (hmodel : model ∈ models) (hfield : field ∈ model.relationFields)
    (hrelation : field.relationName = some name) :
    ⟨name, ⟨field.name, model.name⟩, !field.fromFields.isEmpty || !field.toFields.isEmpty⟩ ∈
      (namedEnds models).filter fun e => e.relation = name :=
  List.mem_filter.mpr
    ⟨mem_namedEnds.mpr ⟨model, hmodel, field, hfield, hrelation, rfl, rfl⟩, decide_eq_true rfl⟩

/-- Two sides are ordered by leaving or by exchanging them. -/
theorem orderSides_eq (x y : Side) : orderSides x y = (x, y) ∨ orderSides x y = (y, x) := by
  unfold orderSides
  split
  · exact Or.inr rfl
  · exact Or.inl rfl

/-- The two ends of a join are all ends of its name, and neither names key columns. -/
theorem ends_of_mem_ofModels (h : join ∈ ofModels models) :
    ∃ x y, (namedEnds models).filter (fun e => e.relation = join.name) = [x, y] ∧
      x.keyed = false ∧ y.keyed = false ∧
      (join.a = x.side ∧ join.b = y.side ∨ join.a = y.side ∧ join.b = x.side) := by
  obtain ⟨relation, -, hjoin⟩ := List.mem_filterMap.mp h
  obtain ⟨x, y, hends, hx, hy, rfl⟩ := ofEnds?_eq_some.mp hjoin
  refine ⟨x, y, hends, hx, hy, ?_⟩
  rcases orderSides_eq x.side y.side with horder | horder <;> dsimp only <;> rw [horder]
  · exact Or.inl ⟨rfl, rfl⟩
  · exact Or.inr ⟨rfl, rfl⟩

/-- A side of a join is a field of its relation name without key columns. -/
theorem field_of_side (h : join ∈ ofModels models) {side : Side} (hside : side ∈ join.sides) :
    ∃ model ∈ models, ∃ field ∈ model.relationFields, field.relationName = some join.name ∧
      side = ⟨field.name, model.name⟩ := by
  obtain ⟨x, y, hends, -, -, hsides⟩ := ends_of_mem_ofModels h
  have hfield {e : NamedEnd} (he : e ∈ [x, y]) : ∃ model ∈ models, ∃ field ∈ model.relationFields,
      field.relationName = some join.name ∧ e.side = ⟨field.name, model.name⟩ := by
    obtain ⟨hmem, hname⟩ := List.mem_filter.mp (hends ▸ he)
    obtain ⟨model, hmodel, field, hfield, hrelation, hside, -⟩ := mem_namedEnds.mp hmem
    exact ⟨model, hmodel, field, hfield, of_decide_eq_true hname ▸ hrelation, hside⟩
  have hx := hfield (List.mem_cons_self (a := x))
  have hy := hfield (List.mem_cons_of_mem x (List.mem_singleton_self y))
  rcases List.mem_pair.mp hside with rfl | rfl <;> rcases hsides with ⟨ha, hb⟩ | ⟨ha, hb⟩
  · exact ha ▸ hx
  · exact ha ▸ hy
  · exact hb ▸ hy
  · exact hb ▸ hx

/-- A relation field of the name of a join is one of its sides, and names no key columns. -/
theorem side_of_field (h : join ∈ ofModels models) {model : Model} (hmodel : model ∈ models)
    {field : Field} (hfield : field ∈ model.relationFields)
    (hrelation : field.relationName = some join.name) :
    ⟨field.name, model.name⟩ ∈ join.sides ∧ field.ownsForeignKey = false := by
  obtain ⟨x, y, hends, hx, hy, hsides⟩ := ends_of_mem_ofModels h
  have hmem := end_of_field hmodel hfield hrelation
  rw [hends, List.mem_pair] at hmem
  unfold Join.sides
  rcases hmem with rfl | rfl
  · refine ⟨?_, (Bool.or_eq_false_iff.mp hx).1⟩
    rcases hsides with ⟨ha, -⟩ | ⟨-, hb⟩
    · simp [ha]
    · simp [hb]
  · refine ⟨?_, (Bool.or_eq_false_iff.mp hy).1⟩
    rcases hsides with ⟨-, hb⟩ | ⟨ha, -⟩
    · simp [hb]
    · simp [ha]

end Joins

namespace Schema

variable {schema : Schema} {model related : Model} {field other : Field} {join : Join}

/-- A field and its reciprocal are the sides of their join. -/
theorem sides_of_reciprocal (hmodel : model ∈ schema.models) (hfield : field ∈ model.relationFields)
    (hreciprocal : schema.reciprocal? model field = some other)
    (hrelated : schema.relatedModel field = .ok related)
    (hjoin : join ∈ Joins.ofModels schema.models)
    (hrelation : field.relationName = some join.name) :
    (join.a = ⟨field.name, model.name⟩ ∧ join.b = ⟨other.name, related.name⟩) ∨
      (join.a = ⟨other.name, related.name⟩ ∧ join.b = ⟨field.name, model.name⟩) := by
  obtain ⟨relation, found, hname, hfound, hother, hsame, -, hapart⟩ :=
    reciprocal_spec hreciprocal
  obtain rfl : found = related := Except.ok.inj (hfound.symm.trans hrelated)
  rw [hrelation] at hname
  obtain rfl := Option.some.inj hname
  have hself := (Joins.side_of_field hjoin hmodel hfield hrelation).1
  have hopposite :=
    (Joins.side_of_field hjoin (mem_of_relatedModel hrelated) hother hsame).1
  -- the two fields are different sides, so they are both
  have hne : (⟨field.name, model.name⟩ : Side) ≠ ⟨other.name, found.name⟩ := by
    intro heq
    obtain ⟨hfields, hmodels⟩ := Side.mk.inj heq
    exact hapart ⟨hmodels.symm, hfields.symm⟩
  unfold Join.sides at hself hopposite
  rw [List.mem_pair] at hself hopposite
  rcases hself with ha | hb
  · rcases hopposite with ha' | hb'
    · exact absurd (ha.trans ha'.symm) hne
    · exact Or.inl ⟨ha.symm, hb'.symm⟩
  · rcases hopposite with ha' | hb'
    · exact Or.inr ⟨ha'.symm, hb.symm⟩
    · exact absurd (hb.trans hb'.symm) hne

end Schema

/-- An id equals that of one of some records, as records of the model of a name. -/
def Schema.IdAmong (schema : Schema) (name : String) (records : List Record) (id : Value) : Prop :=
  ∃ model ∈ schema.models, model.name = name ∧
    ∃ record ∈ records, Value.same id (model.recordId record) = true

namespace Store

variable {store : Store} {join : Join} {name : String}

/-- The joins of a store are those that its schema declares, whatever their links. -/
def JoinsDeclared (store : Store) : Prop :=
  store.joins.reset = Joins.ofModels store.schema.models

namespace JoinsDeclared

/-- A join of the store is one of the schema with links. -/
theorem mem (h : store.JoinsDeclared) (hjoin : join ∈ store.joins) :
    { join with links := [] } ∈ Joins.ofModels store.schema.models := by
  unfold JoinsDeclared Joins.reset at h
  rw [← h]
  exact List.mem_map_of_mem hjoin

/-- Joins of the store are known by their names. -/
theorem eq_of_name_eq (h : store.JoinsDeclared) {x y : Join} (hx : x ∈ store.joins)
    (hy : y ∈ store.joins) (hname : x.name = y.name) : x = y := by
  have hnodup := Joins.nodup_names_ofModels store.schema.models
  rw [← show store.joins.reset = _ from h, Joins.reset, List.map_map] at hnodup
  exact List.inj_on_of_nodup_map hnodup hx hy hname

/-- A name finds the join that has it. -/
theorem get?_eq_some (h : store.JoinsDeclared) (hjoin : join ∈ store.joins) :
    store.joins.get? join.name = some join := by
  cases hfound : store.joins.get? join.name with
  | none =>
      have hnot := List.find?_eq_none.mp hfound join hjoin
      exact absurd (decide_eq_true rfl) hnot
  | some found =>
      obtain ⟨hmem, hname⟩ := Joins.get?_spec hfound
      rw [h.eq_of_name_eq hmem hjoin hname]

end JoinsDeclared

/-- An id equals that of a stored record of the model of a name. -/
def HoldsId (store : Store) (name : String) (id : Value) : Prop :=
  store.schema.IdAmong name (store.items name) id

/-- Every link is one between stored records of the models of its sides. -/
def LinksStored (store : Store) : Prop :=
  ∀ join ∈ store.joins, ∀ link ∈ join.links,
    store.HoldsId join.a.model link.a ∧ store.HoldsId join.b.model link.b

end Store

end RecordStore
