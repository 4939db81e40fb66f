import Mathlib.Data.List.Nodup
import RecordStore.Schema.Linkage

/-!
# Models and relations of a schema

What the look-ups of a schema find: models by name, and the two ends of a relation.
-/

namespace RecordStore

/-- A name finds a field that has it. -/
theorem Model.field?_spec {model : Model} {key : String} {field : Field}
    (h : model.field? key = some field) : field ∈ model.fields ∧ field.name = key := by
  unfold Model.field? at h
  exact ⟨List.mem_reverse.mp (List.mem_of_find?_eq_some h), by simpa using List.find?_some h⟩

namespace Model

variable {model : Model} {idField : String}

/-- Leaving out repeated neighbours leaves every group somewhere. -/
theorem mem_dedupNeighbours {group : List String} :
    ∀ {groups : List (List String)}, group ∈ groups → group ∈ dedupNeighbours groups := by
  intro groups
  induction groups with
  | nil => exact fun h => h
  | cons first rest ih =>
      intro h
      rw [dedupNeighbours]
      rcases List.mem_cons.mp h with rfl | hmem
      · split
        · exact List.mem_singleton_self _
        · split
          · rename_i heq
            exact heq ▸ List.mem_cons_self
          · exact List.mem_cons_self
      · have hrest := ih hmem
        split
        · rename_i hnil
          rw [hnil] at hrest
          cases hrest
        · rename_i hcons
          rw [hcons] at hrest
          split
          · exact hrest
          · exact List.mem_cons_of_mem _ hrest

/-- With a single id field, the id of a record is what it holds there. -/
theorem recordId_of_idFields (h : model.idFields = [idField]) (record : Record) :
    model.recordId record = Record.valueAt idField record := by
  rw [recordId, h]

/-- A single id field is a unique group. -/
theorem mem_uniqueConstraints (h : model.idFields = [idField]) :
    [idField] ∈ model.uniqueConstraints := by
  refine mem_dedupNeighbours ?_
  simp only [List.mem_append]
  unfold idFields at h
  split at h
  · -- no field is declared as an id, so the primary key is it
    rename_i hnone
    refine Or.inl (Or.inl (Or.inr ?_))
    cases hkey : model.primaryKey with
    | none =>
        rw [hkey] at h
        cases h
    | some key =>
        rw [hkey] at h
        exact Option.mem_toList.mpr (congrArg some h)
  · rename_i hids
    have hmem : idField ∈ (model.fields.filter (·.isId)).map (·.name) :=
      h ▸ List.mem_singleton_self _
    obtain ⟨field, hfield, rfl⟩ := List.mem_map.mp hmem
    obtain ⟨hdeclared, hid⟩ := List.mem_filter.mp hfield
    have hgrouped : field ∈ model.fields.filter fun field => field.isId || field.isUnique :=
      List.mem_filter.mpr ⟨hdeclared, by rw [hid, Bool.true_or]⟩
    exact Or.inl (Or.inl (Or.inl (List.mem_map_of_mem (f := fun field => [field.name]) hgrouped)))

end Model

namespace Schema

variable {schema : Schema} {model : Model} {field : Field}

/-- Models of a schema are known by their names. -/
theorem eq_of_name_eq {a b : Model} (ha : a ∈ schema.models) (hb : b ∈ schema.models)
    (hname : a.name = b.name) : a = b :=
  List.inj_on_of_nodup_map schema.nodup_names ha hb hname

/-- A name finds a model that has it. -/
theorem model?_spec {name : String} (h : schema.model? name = some model) :
    model ∈ schema.models ∧ model.name = name := by
  unfold model? at h
  exact ⟨List.mem_of_find?_eq_some h, by simpa using List.find?_some h⟩

/-- Every model of the schema is found by its name. -/
theorem model?_of_mem (h : model ∈ schema.models) : schema.model? model.name = some model := by
  cases hfound : schema.model? model.name with
  | none => simpa using List.find?_eq_none.mp hfound model h
  | some other =>
      obtain ⟨hother, hname⟩ := model?_spec hfound
      rw [eq_of_name_eq hother h hname]

/-- What a relation field refers to is found by its name. -/
theorem model?_of_relatedModel {related : Model} (h : schema.relatedModel field = .ok related) :
    schema.model? field.typeName = some related := by
  unfold relatedModel Schema.model at h
  split at h
  · rename_i hfound
    rw [hfound, Except.ok.inj h]
  · cases h

/-- A model that a relation field refers to belongs to the schema. -/
theorem mem_of_relatedModel {related : Model} (h : schema.relatedModel field = .ok related) :
    related ∈ schema.models := (model?_spec (model?_of_relatedModel h)).1

/-- A link that the record owns is made of the columns of its field. -/
theorem linkage_of_owned {linkage : Linkage} (h : schema.linkage? model field = some linkage)
    (howned : linkage.owned = true) : linkage = ⟨field.fromFields, field.toFields, true⟩ := by
  unfold linkage? at h
  split at h
  · exact (Option.some.inj h).symm
  · split at h
    · split at h
      · rw [← Option.some.inj h] at howned
        cases howned
      · cases h
    · cases h

/-- A relation whose links are kept by the dependents is the other end of one of their fields. -/
theorem reciprocal_of_linkage {linkage : Linkage} (h : schema.linkage? model field = some linkage)
    (howned : linkage.owned = false) :
    ∃ other, schema.reciprocal? model field = some other ∧ other.ownsForeignKey = true ∧
      linkage = ⟨other.toFields, other.fromFields, false⟩ := by
  unfold linkage? at h
  split at h
  · rw [← Option.some.inj h] at howned
    cases howned
  · split at h
    · rename_i other hother
      split at h
      · rename_i howns
        exact ⟨other, hother, howns, (Option.some.inj h).symm⟩
      · cases h
    · cases h

/-- The other end of a relation is another field of the related model with the same relation name,
    and it refers back. -/
theorem reciprocal_spec {other : Field} (h : schema.reciprocal? model field = some other) :
    ∃ relation related, field.relationName = some relation ∧
      schema.relatedModel field = .ok related ∧ other ∈ related.relationFields ∧
      other.relationName = some relation ∧ other.typeName = model.name ∧
      ¬ (related.name = model.name ∧ other.name = field.name) := by
  unfold reciprocal? at h
  obtain ⟨relation, hrelation, h⟩ := Option.bind_eq_some_iff.mp h
  obtain ⟨related, hrelated, h⟩ := Option.bind_eq_some_iff.mp h
  have hfound := List.find?_some h
  simp only [Bool.and_eq_true, decide_eq_true_eq, Bool.not_eq_true', Bool.and_eq_false_iff,
    decide_eq_false_iff_not, ← not_and_or] at hfound
  refine ⟨relation, related, hrelation, ?_, List.mem_of_find?_eq_some h, hfound.1.1, hfound.1.2,
    hfound.2⟩
  unfold relatedModel Schema.model
  rw [hrelated]

/-- The other end of a relation is a field of the related model that refers back. -/
theorem related_of_reciprocal {other : Field} (h : schema.reciprocal? model field = some other) :
    ∃ related, schema.relatedModel field = .ok related ∧ other ∈ related.relationFields ∧
      other.typeName = model.name := by
  obtain ⟨_, related, -, hrelated, hmember, -, hback, -⟩ := reciprocal_spec h
  exact ⟨related, hrelated, hmember, hback⟩

/-- The dependents of a relation declare its policy and keep its columns. -/
theorem declared_of_linkage {linkage : Linkage} {dependents : Model}
    (hlinked : schema.linkage? model field = some linkage)
    (helsewhere : linkage.owned = false) (hrelated : schema.relatedModel field = .ok dependents) :
    ∃ other ∈ dependents.relationFields, schema.reciprocal? model field = some other ∧
      other.ownsForeignKey = true ∧ other.typeName = model.name ∧
      linkage = ⟨other.toFields, other.fromFields, false⟩ := by
  obtain ⟨other, hother, howns, rfl⟩ := reciprocal_of_linkage hlinked helsewhere
  obtain ⟨related, hfound, hmember, hback⟩ := related_of_reciprocal hother
  obtain rfl : related = dependents := Except.ok.inj (hfound.symm.trans hrelated)
  exact ⟨other, hmember, hother, howns, hback, rfl⟩

end Schema

end RecordStore
