import RecordStore.Proofs.Delete.Scope
import RecordStore.Proofs.Join.Reading
import RecordStore.Proofs.Join.Sides
import RecordStore.Proofs.Relation.Grounded

/-!
# Linked records

Which records a relation field links to a record.  Through key columns it is those with equal
values, none of them null, in the columns of the link; through a join it is those whose id is the
other one of a link with the id of the record.
-/

namespace RecordStore

namespace Value

/-- Equality under a reading is symmetric. -/
theorem equals_comm (reading : Reading) (a b : Value) :
    equals reading a b = equals reading b a := by
  unfold equals
  cases reading with
  | instant =>
      cases a.timestamp? <;> cases b.timestamp? <;> first | rfl | exact Bool.beq_comm
  | integer =>
      cases a.bigInteger? <;> cases b.bigInteger? <;> first | rfl | exact Bool.beq_comm
  | plain => exact Bool.eq_iff_iff.mpr ⟨equalsPlain_symm, equalsPlain_symm⟩

end Value

/-! ## Key columns -/

namespace Linkage

variable {linkage : Linkage} {related : Model} {record other scope : Record}

/-- Two records hold equal values, none of them null, in the columns of a link. -/
def Matches (linkage : Linkage) (related : Model) (record other : Record) : Prop :=
  ∀ pair ∈ linkage.columns,
    (Record.valueAt pair.1 record).isNull = false ∧ (Record.valueAt pair.2 other).isNull = false ∧
      Value.equals (related.readingOf pair.2) (Record.valueAt pair.2 other)
        (Record.valueAt pair.1 record) = true

/-- A record without nulls in its columns has a scope. -/
theorem exists_scope
    (h : ∀ pair ∈ linkage.columns, (Record.valueAt pair.1 record).isNull = false) :
    ∃ scope, linkage.scope record = some scope := by
  have hfold (pairs : List (String × String)) :
      (∀ pair ∈ pairs, (Record.valueAt pair.1 record).isNull = false) →
      ∀ acc, ∃ scope, pairs.foldlM (addColumn record) acc = some scope := by
    induction pairs with
    | nil => exact fun _ acc => ⟨acc, rfl⟩
    | cons pair rest ih =>
        intro hpairs acc
        obtain ⟨hpair, hrest⟩ := List.forall_mem_cons.mp hpairs
        unfold Record.valueAt at hpair
        cases hvalue : Entries.get? pair.1 record with
        | none => rw [hvalue] at hpair; cases hpair
        | some value =>
            rw [hvalue] at hpair
            have hnext : addColumn record acc pair = some (Entries.insert pair.2 value acc) := by
              unfold addColumn
              rw [hvalue]
              exact if_neg (Bool.eq_false_iff.mp hpair)
            rw [List.foldlM_cons, hnext]
            exact ih hrest _
  exact hfold linkage.columns h []

/-- A scope of single values in plain columns is a filter by them. -/
theorem plain_scope (hplain : ∀ pair ∈ linkage.columns, related.IsPlain pair.2)
    (hscalar : ∀ pair ∈ linkage.columns, (Record.valueAt pair.1 record).isScalar = true)
    (hscope : linkage.scope record = some scope) : Filter.Plain related scope := by
  intro entry hentry
  obtain ⟨column, hpair, hvalue, hnull⟩ := mem_scope hscope entry hentry
  have hsingle := hscalar (column, entry.1) hpair
  rw [Record.valueAt, hvalue] at hsingle
  exact ⟨hplain (column, entry.1) hpair, hsingle, hnull⟩

/-- A record that fits a scope matches column by column, since no column is written twice. -/
theorem matches_of_fits (hplain : Filter.Plain related scope)
    (hapart : (linkage.columns.map Prod.snd).Nodup) (hscope : linkage.scope record = some scope)
    (hfits : Filter.fits related scope other = true) : linkage.Matches related record other := by
  intro pair hpair
  -- the entry of the column comes from a column of the record, and there is only one
  obtain ⟨entry, hentry, hname⟩ := List.mem_map.mp (mem_keys_scope hscope pair hpair)
  obtain ⟨column, hcolumn, hvalue, hnull⟩ := mem_scope hscope entry hentry
  obtain rfl : (column, entry.1) = pair := List.inj_on_of_nodup_map hapart hcolumn hpair hname
  have hholds := List.all_eq_true.mp hfits entry hentry
  obtain ⟨-, hscalar, -⟩ := hplain entry hentry
  rw [Condition.matchesScalar_of_isScalar _ _ hscalar hnull, Bool.and_eq_true,
    Bool.not_eq_true'] at hholds
  have hentryValue : Record.valueAt column record = entry.2 := by
    rw [Record.valueAt, hvalue, Option.getD_some]
  rw [hentryValue]
  exact ⟨hnull, hholds⟩

/-- A record that matches column by column fits the scope. -/
theorem fits_of_matches (hplain : Filter.Plain related scope)
    (hscope : linkage.scope record = some scope) (hmatches : linkage.Matches related record other) :
    Filter.fits related scope other = true := by
  refine List.all_eq_true.mpr fun entry hentry => ?_
  obtain ⟨column, hcolumn, hvalue, hnull⟩ := mem_scope hscope entry hentry
  obtain ⟨-, hother, hequal⟩ := hmatches (column, entry.1) hcolumn
  have hentryValue : Record.valueAt column record = entry.2 := by
    rw [Record.valueAt, hvalue, Option.getD_some]
  obtain ⟨-, hscalar, -⟩ := hplain entry hentry
  rw [Condition.matchesScalar_of_isScalar _ _ hscalar hnull, Bool.and_eq_true, Bool.not_eq_true']
  exact ⟨hother, hentryValue ▸ hequal⟩

end Linkage

namespace Store

variable {store : Store} {model related : Model} {field : Field} {record other : Record}

/-- Links are followed at least once. -/
theorem exists_linkDepth_eq (store : Store) : ∃ depth, store.linkDepth = depth + 1 :=
  ⟨_, store.linkDepth_eq⟩

/-- Through key columns a record is linked to those that satisfy its scope. -/
theorem related_of_scope (hrelated : store.schema.relatedModel field = .ok related)
    {linkage : Linkage} (hlinkage : store.schema.linkage? model field = some linkage)
    {scope : Record} (hscope : linkage.scope record = some scope) :
    ∃ depth, store.related model field record = (store.items related.name).filter fun other =>
      Filter.satisfies store (store.linkedWithin depth) related other scope := by
  obtain ⟨depth, hdepth⟩ := store.exists_linkDepth_eq
  refine ⟨depth, ?_⟩
  simp only [Store.related, hdepth, linkedWithin, Schema.model?_of_relatedModel hrelated, hlinkage,
    hscope]

/-- With plain columns these are the records that fit it. -/
theorem mem_related_of_plain (hrelated : store.schema.relatedModel field = .ok related)
    {linkage : Linkage} (hlinkage : store.schema.linkage? model field = some linkage)
    {scope : Record} (hscope : linkage.scope record = some scope)
    (hplain : Filter.Plain related scope) :
    other ∈ store.related model field record ↔
      other ∈ store.items related.name ∧ Filter.fits related scope other = true := by
  obtain ⟨depth, hread⟩ := related_of_scope hrelated hlinkage hscope
  rw [hread, List.mem_filter, Filter.satisfies_eq_fits hplain]

/-- Through plain key columns a record is linked to those that match it. -/
theorem mem_related_of_linkage (hrelated : store.schema.relatedModel field = .ok related)
    {linkage : Linkage} (hlinkage : store.schema.linkage? model field = some linkage)
    (hapart : (linkage.columns.map Prod.snd).Nodup)
    (hplain : ∀ pair ∈ linkage.columns, related.IsPlain pair.2)
    (hscalar : ∀ pair ∈ linkage.columns, (Record.valueAt pair.1 record).isScalar = true) :
    other ∈ store.related model field record ↔
      other ∈ store.items related.name ∧ linkage.Matches related record other := by
  obtain ⟨depth, hdepth⟩ := store.exists_linkDepth_eq
  cases hscope : linkage.scope record with
  | none =>
      have hread : store.related model field record = [] := by
        simp only [Store.related, hdepth, linkedWithin, Schema.model?_of_relatedModel hrelated,
          hlinkage, hscope]
      rw [hread]
      refine ⟨(nomatch ·), fun ⟨_, hmatches⟩ => ?_⟩
      obtain ⟨scope, hsome⟩ := Linkage.exists_scope fun pair hpair => (hmatches pair hpair).1
      rw [hscope] at hsome
      cases hsome
  | some scope =>
      have hfilter := Linkage.plain_scope hplain hscalar hscope
      rw [mem_related_of_plain hrelated hlinkage hscope hfilter]
      exact and_congr_right fun _ => ⟨Linkage.matches_of_fits hfilter hapart hscope,
        Linkage.fits_of_matches hfilter hscope⟩

/-! ## Joins -/

/-- Without key columns the records are read off the join of the relation. -/
theorem related_of_relationName (hrelated : store.schema.relatedModel field = .ok related)
    (hlinkage : store.schema.linkage? model field = none) {relation : String}
    (hrelation : field.relationName = some relation) :
    store.related model field record = (store.items related.name).filter fun other =>
      (store.joins.counterparts relation model.name (model.recordId record)).any fun id =>
        sameId (related.recordId other) id := by
  obtain ⟨depth, hdepth⟩ := store.exists_linkDepth_eq
  rw [Store.related, hdepth, linkedWithin, Schema.model?_of_relatedModel hrelated, hlinkage,
    hrelation]

/-- Where there is no join nothing is linked. -/
theorem related_of_get?_eq_none (hrelated : store.schema.relatedModel field = .ok related)
    (hlinkage : store.schema.linkage? model field = none) {relation : String}
    (hrelation : field.relationName = some relation)
    (hjoin : store.joins.get? relation = none) : store.related model field record = [] := by
  rw [related_of_relationName hrelated hlinkage hrelation]
  unfold Joins.counterparts
  rw [hjoin]
  exact List.filter_false _

/-- Through a join a record is linked to those whose ids are its counterparts. -/
theorem mem_related_of_join (hrelated : store.schema.relatedModel field = .ok related)
    (hlinkage : store.schema.linkage? model field = none) {join : Join}
    (hrelation : field.relationName = some join.name)
    (hjoin : store.joins.get? join.name = some join)
    (hlinks : ∀ link ∈ join.links, link.a.isId = true ∧ link.b.isId = true)
    (hid : (model.recordId record).isId = true) (hother : (related.recordId other).isId = true) :
    other ∈ store.related model field record ↔ other ∈ store.items related.name ∧
      related.recordId other ∈ join.seenFrom model.name (model.recordId record) := by
  rw [related_of_relationName hrelated hlinkage hrelation, List.mem_filter]
  refine and_congr_right fun _ => ?_
  have hfirst : FirstOf (join.seenFrom model.name (model.recordId record))
      (store.joins.counterparts join.name model.name (model.recordId record)) :=
    Joins.firstOf_counterparts hjoin hlinks hid
  rw [← hfirst.mem_iff, List.any_eq_true]
  have hids : ∀ x ∈ store.joins.counterparts join.name model.name (model.recordId record),
      x.isId = true :=
    fun x hx => Join.isId_of_mem_seenFrom hlinks x ((hfirst.mem_iff x).mp hx)
  constructor
  · rintro ⟨id, hmem, hsame⟩
    rw [(sameId_iff hother (hids id hmem)).mp hsame]
    exact hmem
  · exact fun hmem => ⟨_, hmem, (sameId_iff hother hother).mpr rfl⟩

end Store

end RecordStore
