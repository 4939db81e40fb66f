import RecordStore.Proofs.Relation.Grounded
import RecordStore.Proofs.Schema

/-!
# Key columns that are plain fields

Where the columns of every reference are plain fields, none of them named as a filter names its
connectives, the filter that a scope amounts to looks at one record at a time.  No link then asks
for another, and nothing is followed any deeper than that.
-/

namespace RecordStore

/-- A model has a plain field of a name, and the name has no other meaning in a filter. -/
def Model.HasColumn (model : Model) (name : String) : Prop :=
  (∃ field ∈ model.scalarFields, field.name = name) ∧ name ∉ ["AND", "OR", "NOT", "is"]

instance (model : Model) (name : String) : Decidable (model.HasColumn name) :=
  inferInstanceAs (Decidable (_ ∧ _))

/-- No model has two fields of one name, and every stored reference is made of plain fields: its own
    columns are those of the model that stores it, the others those of the model it refers to. -/
structure Schema.ScalarColumns (schema : Schema) : Prop where
  distinct : ∀ model ∈ schema.models, (model.fields.map (·.name)).Nodup
  own : ∀ model ∈ schema.models, ∀ field ∈ model.relationFields,
    ∀ column ∈ field.fromFields, model.HasColumn column
  referred : ∀ model ∈ schema.models, ∀ field ∈ model.relationFields,
    field.ownsForeignKey = true → ∀ related ∈ schema.models, related.name = field.typeName →
      ∀ column ∈ field.toFields, related.HasColumn column

namespace Model

variable {model : Model} {name : String}

/-- A name that a plain field has is that of no relation. -/
theorem HasColumn.relation? (h : model.HasColumn name)
    (hdistinct : (model.fields.map (·.name)).Nodup) : model.relation? name = none := by
  obtain ⟨⟨field, hscalar, rfl⟩, -⟩ := h
  obtain ⟨hfield, hplain⟩ := List.mem_filter.mp hscalar
  unfold Model.relation?
  cases hfound : model.field? field.name with
  | none => rfl
  | some found =>
      obtain ⟨hmember, hname⟩ := field?_spec hfound
      obtain rfl := List.inj_on_of_nodup_map hdistinct hmember hfield hname
      simp only [Bool.not_eq_true'] at hplain
      rw [Option.filter_some, hplain, if_neg Bool.false_ne_true]

/-- A name that a plain field has is that of no connective. -/
theorem HasColumn.connective? (h : model.HasColumn name) : Connective.ofName? name = none := by
  obtain ⟨-, hreserved⟩ := h
  unfold Connective.ofName?
  split
  · exact absurd (by simp) hreserved
  · exact absurd (by simp) hreserved
  · exact absurd (by simp) hreserved
  · rfl

end Model

namespace Filter

variable {model : Model} {scope : Record}

/-- A filter by plain fields names no relation. -/
theorem isLocal_of_columns (hdistinct : (model.fields.map (·.name)).Nodup)
    (h : ∀ entry ∈ scope, model.HasColumn entry.1) : isLocal model scope = true := by
  induction scope with
  | nil => rfl
  | cons entry rest ih =>
      obtain ⟨key, condition⟩ := entry
      obtain ⟨hcolumn, hrest⟩ := List.forall_mem_cons.mp h
      have hkey : isLocalKey model key condition = true := by
        have hconnective := hcolumn.connective?
        have hrelation := hcolumn.relation? hdistinct
        have hne : key ≠ "is" := fun heq => hcolumn.2 (heq ▸ by simp)
        cases condition <;> simp [isLocalKey, hconnective, hrelation, hne]
      rw [isLocal, hkey, ih hrest]
      rfl

end Filter

namespace Schema

variable {schema : Schema} {model related : Model} {field : Field} {linkage : Linkage}
  {record columns : Record}

/-- A field whose links its own records keep stores the reference. -/
theorem ownsForeignKey_of_owned (h : schema.linkage? model field = some linkage)
    (howned : linkage.owned = true) : field.ownsForeignKey = true := by
  unfold linkage? at h
  split at h
  · assumption
  · split at h
    · split at h
      · rw [← Option.some.inj h] at howned
        cases howned
      · cases h
    · cases h

/-- What a relation field looks for in other records are plain fields of these. -/
theorem ScalarColumns.foreign (h : schema.ScalarColumns) (hmodel : model ∈ schema.models)
    (hfield : field ∈ model.relationFields) (hrelated : schema.relatedModel field = .ok related)
    (hlinkage : schema.linkage? model field = some linkage) :
    ∀ column ∈ linkage.foreign, related.HasColumn column := by
  intro column hcolumn
  by_cases howned : linkage.owned = true
  · have howns := ownsForeignKey_of_owned hlinkage howned
    obtain rfl := linkage_of_owned hlinkage howned
    obtain ⟨hmember, hname⟩ := model?_spec (model?_of_relatedModel hrelated)
    exact h.referred model hmodel field hfield howns related hmember hname column hcolumn
  · obtain ⟨other, hother, -, -, -, rfl⟩ :=
      declared_of_linkage hlinkage (Bool.not_eq_true _ ▸ howned) hrelated
    exact h.own related (mem_of_relatedModel hrelated) other hother column hcolumn

/-- So are the columns of its scopes. -/
theorem ScalarColumns.scope (h : schema.ScalarColumns) (hmodel : model ∈ schema.models)
    (hfield : field ∈ model.relationFields) (hrelated : schema.relatedModel field = .ok related)
    (hlinkage : schema.linkage? model field = some linkage)
    (hscope : linkage.scope record = some columns) :
    ∀ entry ∈ columns, related.HasColumn entry.1 := by
  intro entry hentry
  obtain ⟨column, hpair, -⟩ := Linkage.mem_scope hscope entry hentry
  exact h.foreign hmodel hfield hrelated hlinkage _ (List.of_mem_zip hpair).2

end Schema

namespace Store

variable {store : Store} {model : Model} {field : Field}

/-- What is linked does not depend on what else is taken for linked. -/
theorem linkedBy_congr (h : store.schema.ScalarColumns) (hmodel : model ∈ store.schema.models)
    (hfield : field ∈ model.relationFields) (record : Record) (links links' : Links) :
    store.linkedBy links model field record = store.linkedBy links' model field record := by
  unfold linkedBy
  cases hfound : store.schema.model? field.typeName with
  | none => rfl
  | some related =>
      have hrelated : store.schema.relatedModel field = .ok related := by
        rw [Schema.relatedModel, Schema.model, hfound]
      cases hlinkage : store.schema.linkage? model field with
      | none => rfl
      | some linkage =>
          dsimp only
          cases hscope : linkage.scope record with
          | none => rfl
          | some scope =>
              have hlocal := Filter.isLocal_of_columns
                (h.distinct related (Schema.mem_of_relatedModel hrelated))
                (h.scope hmodel hfield hrelated hlinkage hscope)
              exact List.filter_congr fun other _ => Filter.satisfies_congr scope hlocal

/-- **No link asks for another**: linked records are found in one step, whatever else is taken for
    linked. -/
theorem linkedBy_eq_related (h : store.schema.ScalarColumns) (hmodel : model ∈ store.schema.models)
    (hfield : field ∈ model.relationFields) (record : Record) (links : Links) :
    store.linkedBy links model field record = store.related model field record := by
  unfold related
  rw [linkDepth_eq, linkedWithin_succ]
  exact linkedBy_congr h hmodel hfield record links _

end Store

end RecordStore
