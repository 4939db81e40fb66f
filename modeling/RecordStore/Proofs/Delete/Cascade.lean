import RecordStore.Proofs.Delete.Remains
import RecordStore.Proofs.Delete.Termination

/-!
# What a delete removes

A delete removes the records that were asked for, and with them all that depend on them through
cascading relations, however far away: the least set that is closed under the scopes of its
records.  The set is taken on the store before the delete.  The store changes while the cascade
runs, but no column that a cascade looks at changes, so each scope picks what it would have picked
at the start, apart from what is gone already.
-/

namespace RecordStore

/-! ## Key columns -/

namespace Schema

/-- A column of a collection that a delete may null. -/
def Nullable (schema : Schema) (name column : String) : Prop :=
  ∃ model ∈ schema.models, model.name = name ∧ ∃ field ∈ model.relationFields,
    field.ownsForeignKey = true ∧ field.onDelete = some .setNull ∧ column ∈ field.fromFields

/-- A column by which records of a collection refer to the record that takes them with it. -/
def Referring (schema : Schema) (name column : String) : Prop :=
  ∃ model ∈ schema.models, model.name = name ∧ ∃ field ∈ model.relationFields,
    field.ownsForeignKey = true ∧ field.onDelete = some .cascade ∧ column ∈ field.fromFields

/-- A column of a collection that the records to be taken along refer to. -/
def Referred (schema : Schema) (name column : String) : Prop :=
  ∃ model ∈ schema.models, ∃ field ∈ model.relationFields, field.typeName = name ∧
    field.ownsForeignKey = true ∧ field.onDelete = some .cascade ∧ column ∈ field.toFields

/-- Key columns come in pairs; those of cascading relations are plain, and none of them is ever
    nulled. -/
structure PlainKeys (schema : Schema) : Prop where
  paired : ∀ model ∈ schema.models, ∀ field ∈ model.relationFields, field.ownsForeignKey = true →
    field.fromFields.length = field.toFields.length
  plain : ∀ model ∈ schema.models, ∀ column, schema.Referring model.name column →
    model.IsPlain column
  apart : ∀ name column, schema.Nullable name column →
    ¬ schema.Referring name column ∧ ¬ schema.Referred name column

/-- Deletes cascade through a relation field of a model to its dependents. -/
structure Cascades (schema : Schema) (model : Model) (field : Field) (linkage : Linkage)
    (dependents : Model) : Prop where
  member : field ∈ model.relationFields
  linked : schema.linkage? model field = some linkage
  elsewhere : linkage.owned = false
  policy : (schema.reciprocal? model field).bind (·.onDelete) = some .cascade
  related : schema.relatedModel field = .ok dependents

variable {schema : Schema} {model dependents : Model} {field : Field} {linkage : Linkage}

/-- A cascade compares a referring column with a referred one. -/
theorem Cascades.columns (h : schema.Cascades model field linkage dependents) :
    ∀ pair ∈ linkage.columns,
      schema.Referred model.name pair.1 ∧ schema.Referring dependents.name pair.2 := by
  obtain ⟨other, hmember, hother, howns, hback, rfl⟩ :=
    declared_of_linkage h.linked h.elsewhere h.related
  have hcascade : other.onDelete = some .cascade := by
    have hpolicy := h.policy
    rw [hother] at hpolicy
    exact hpolicy
  have hdependents := mem_of_relatedModel h.related
  intro pair hpair
  obtain ⟨hto, hfrom⟩ := List.of_mem_zip (a := pair.1) (b := pair.2) hpair
  exact ⟨⟨dependents, hdependents, other, hmember, hback, howns, hcascade, hto⟩,
    ⟨dependents, hdependents, rfl, other, hmember, howns, hcascade, hfrom⟩⟩

end Schema

namespace Store

/-- Records hold single values in the columns that others refer to. -/
def ScalarKeys (store : Store) : Prop :=
  ∀ name column, store.schema.Referred name column → ∀ record ∈ store.items name,
    (Record.valueAt column record).isScalar = true

/-- A record takes another one with it when it is deleted. -/
def Takes (store : Store) (model : Model) (record : Record) (dependents : Model) (item : Record) :
    Prop :=
  ∃ field linkage scope, store.schema.Cascades model field linkage dependents ∧
    linkage.scope record = some scope ∧ store.satisfies dependents item scope = true

/-- The positions whose records a delete removes, given those that it starts from. -/
inductive Doomed (store : Store) (seed : String → Nat → Prop) : String → Nat → Prop where
  | seed {name : String} {i : Nat} (h : seed name i) : Doomed store seed name i
  | dependent {model dependents : Model} {i j : Nat} {record item : Record}
      (hmodel : model ∈ store.schema.models) (hdoomed : Doomed store seed model.name i)
      (hrecord : (store.items model.name)[i]? = some record)
      (hitem : (store.items dependents.name)[j]? = some item)
      (htakes : store.Takes model record dependents item) : Doomed store seed dependents.name j

/-! ## Records that cascade alike -/

/-- A record cascades like another one when it has alike values in the columns referred to. -/
def CascadesLike (store : Store) (name : String) (old record : Record) : Prop :=
  ∀ column, store.schema.Referred name column →
    Option.Rel Value.Alike (Entries.get? column old) (Entries.get? column record)

variable {origin : Store} {seed gone next last : String → Nat → Prop}
variable {model dependents : Model} {field : Field} {linkage : Linkage}
variable {old record scope : Record}

/-- Detaching a record does not change how it cascades. -/
theorem cascadesLike_of_detached (hkeys : origin.schema.PlainKeys) {name : String}
    (h : Record.Detached (origin.schema.Nullable name) old record) :
    origin.CascadesLike name old record := by
  intro column hreferred
  -- no column that others refer to is ever nulled
  rw [h.get?_eq fun hnullable => (hkeys.apart name column hnullable).2 hreferred]
  cases Entries.get? column old with
  | none => exact .none
  | some value => exact .some (Or.inl rfl)

/-- Equal records cascade alike. -/
theorem cascadesLike_of_same {name : String} (h : Record.same old record = true) :
    origin.CascadesLike name old record := by
  intro column _
  have hget := Record.get?_of_same h column
  generalize Entries.get? column old = x at hget
  generalize Entries.get? column record = y at hget
  cases hget with
  | none => exact .none
  | some hvalue => exact .some (Or.inr hvalue)

/-- A record that cascades like one with single values in its key columns has single values in
    them too. -/
theorem CascadesLike.isScalar {name column : String} (h : origin.CascadesLike name old record)
    (hreferred : origin.schema.Referred name column)
    (hscalar : (Record.valueAt column old).isScalar = true) :
    (Record.valueAt column record).isScalar = true := by
  have hget := h column hreferred
  unfold Record.valueAt at hscalar ⊢
  generalize Entries.get? column old = x at hget hscalar
  generalize Entries.get? column record = y at hget
  cases hget with
  | none => rfl
  | some halike => exact halike.isScalar_eq ▸ hscalar

/-- The scope of a cascade is plain, and does not look at columns that may be nulled. -/
theorem plain_scope (hkeys : origin.schema.PlainKeys)
    (hcascades : origin.schema.Cascades model field linkage dependents)
    (hscalar : ∀ column, origin.schema.Referred model.name column →
      (Record.valueAt column record).isScalar = true)
    (hscope : linkage.scope record = some scope) :
    Filter.Plain dependents scope ∧
      ∀ entry ∈ scope, ¬ origin.schema.Nullable dependents.name entry.1 := by
  have hdependents := Schema.mem_of_relatedModel hcascades.related
  refine ⟨fun entry hentry => ?_, fun entry hentry hnullable => ?_⟩
  · obtain ⟨column, hpair, hvalue, hnull⟩ := Linkage.mem_scope hscope entry hentry
    obtain ⟨hreferred, hreferring⟩ := hcascades.columns (column, entry.1) hpair
    have hsingle := hscalar column hreferred
    rw [Record.valueAt, hvalue] at hsingle
    exact ⟨hkeys.plain dependents hdependents _ hreferring, hsingle, hnull⟩
  · obtain ⟨column, hpair, -, -⟩ := Linkage.mem_scope hscope entry hentry
    obtain ⟨-, hreferring⟩ := hcascades.columns (column, entry.1) hpair
    exact (hkeys.apart _ _ hnullable).1 hreferring

/-- Records that cascade alike have scopes that pick the same records, or none. -/
theorem CascadesLike.fits_eq (h : origin.CascadesLike model.name old record)
    (hkeys : origin.schema.PlainKeys)
    (hcascades : origin.schema.Cascades model field linkage dependents)
    (hscalar : ∀ column, origin.schema.Referred model.name column →
      (Record.valueAt column old).isScalar = true) :
    Option.Rel (fun x y => ∀ item, Filter.fits dependents x item = Filter.fits dependents y item)
      (linkage.scope old) (linkage.scope record) := by
  -- the scope is made of columns referred to, and those hold alike values
  have halike : Option.Rel Record.Alike (linkage.scope old) (linkage.scope record) :=
    Linkage.scope_alike fun pair hpair => h pair.1 (hcascades.columns pair hpair).1
  generalize hold : linkage.scope old = x at halike
  generalize linkage.scope record = y at halike
  cases halike with
  | none => exact .none
  | some hxy =>
      have hplain := (plain_scope hkeys hcascades hscalar hold).1
      exact .some fun item => Filter.fits_congr hplain hxy item

end Store

end RecordStore
