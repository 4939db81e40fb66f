import RecordStore.Proofs.Entries
import RecordStore.Proofs.Relation.Local

/-!
# What a filter looks up

The verdict of a filter on a record depends only on what the record holds under some names: the
keys of the filter and of the filters that it combines, the members of conditions on compound keys,
and the columns by which relations find what is linked.  Two records that agree there satisfy the
filter both or neither, whatever else they hold.
-/

namespace RecordStore

/-! ## Linked records -/

namespace Schema

/-- The columns of a record that decide what a relation field links to it: those of the key
    linkage, and those of its id. -/
def linkColumns (schema : Schema) (model : Model) (field : Field) : List String :=
  ((schema.linkage? model field).map (·.localColumns)).getD [] ++ model.idFields

end Schema

/-- Records that hold the same under a name show the same there. -/
theorem Record.valueAt_congr {name : String} {a b : Record}
    (h : Entries.get? name a = Entries.get? name b) : valueAt name a = valueAt name b :=
  congrArg (·.getD .null) h

/-- Whether a record holds every value of another is read from the names of the other. -/
theorem Record.holdsAll_congr {subset a b : Record}
    (h : ∀ name ∈ Entries.keys subset, Entries.get? name a = Entries.get? name b) :
    holdsAll a subset = holdsAll b subset := by
  rw [Bool.eq_iff_iff, holdsAll, holdsAll, List.all_eq_true, List.all_eq_true]
  refine forall₂_congr fun entry hentry => ?_
  have hname := h entry.1 (List.mem_map_of_mem hentry)
  obtain ⟨name, expected⟩ := entry
  simp only [hname]

/-- The id of a record is read from its id columns. -/
theorem Model.recordId_congr {model : Model} {a b : Record}
    (h : ∀ column ∈ model.idFields, Entries.get? column a = Entries.get? column b) :
    model.recordId a = model.recordId b := by
  have hvalues : ∀ column ∈ model.idFields, Record.valueAt column a = Record.valueAt column b :=
    fun column hcolumn => Record.valueAt_congr (h column hcolumn)
  unfold recordId
  revert hvalues
  rcases model.idFields with _ | ⟨first, _ | ⟨second, rest⟩⟩
  · exact fun _ => rfl
  · exact fun hvalues => hvalues first List.mem_cons_self
  · exact fun hvalues => congrArg Value.array (List.map_congr_left hvalues)

namespace Store

variable {store : Store} {model : Model} {field : Field} {a b : Record}

/-- What is linked to a record is read from the columns of the link. -/
theorem linkedWithin_congr (h : ∀ column ∈ store.schema.linkColumns model field,
      Entries.get? column a = Entries.get? column b) (depth : Nat) :
    store.linkedWithin depth model field a = store.linkedWithin depth model field b := by
  obtain ⟨hkeys, hid⟩ := List.forall_mem_append.mp h
  cases depth with
  | zero => rfl
  | succ depth =>
      simp only [linkedWithin]
      cases store.schema.model? field.typeName with
      | none => rfl
      | some related =>
          cases hlinkage : store.schema.linkage? model field with
          | none => simp only [Model.recordId_congr hid]
          | some linkage =>
              rw [hlinkage] at hkeys
              have hscope : linkage.scope a = linkage.scope b :=
                Linkage.scope_congr fun pair hpair =>
                  Record.valueAt_congr (hkeys pair.1 (List.of_mem_zip hpair).1)
              simp only [hscope]

end Store

/-! ## Filters -/

namespace Filter

/-- The names that a condition looks up besides its key: the members of a compound key, or the
    columns of a link. -/
def members (schema : Schema) (model : Model) (key : String) (condition : Value) : List String :=
  match model.field? key with
  | some field => if field.isRelation then schema.linkColumns model field else []
  | none =>
      if (model.compoundKey? key).isSome then ((condition.object?).map Entries.keys).getD []
      else []

mutual

/-- The names that a filter looks up in a record: the keys that it has at any depth of its
    connectives, and what they look up besides. -/
def names (schema : Schema) (model : Model) : List (String × Value) → List String
  | [] => []
  | (key, condition) :: rest =>
      (key :: namesUnder schema model key condition) ++ names schema model rest
termination_by structural filter => filter

/-- The names that one key of a filter looks up besides itself. -/
def namesUnder (schema : Schema) (model : Model) (key : String) : Value → List String
  | .array items =>
      match Connective.ofName? key with
      | some _ => namesWithin schema model items
      | none => members schema model key (.array items)
  | .object fields =>
      match Connective.ofName? key with
      | some _ => names schema model fields
      | none =>
          if key = "is" then names schema model fields
          else members schema model key (.object fields)
  | condition =>
      match Connective.ofName? key with
      | some _ => []
      | none => members schema model key condition
termination_by structural condition => condition

/-- The names that the filters in a list look up. -/
def namesWithin (schema : Schema) (model : Model) : List Value → List String
  | [] => []
  | .object filter :: rest => names schema model filter ++ namesWithin schema model rest
  | _ :: rest => namesWithin schema model rest
termination_by structural items => items

end

variable {store : Store} {model : Model} {a b : Record} {key : String} {condition : Value}

theorem mem_names {schema : Schema} {filter : Record} {name : String} :
    name ∈ names schema model filter ↔
      ∃ entry ∈ filter, name = entry.1 ∨ name ∈ namesUnder schema model entry.1 entry.2 := by
  induction filter with
  | nil => simp [names]
  | cons entry rest ih => rw [names, List.mem_append, List.mem_cons, ih, List.exists_mem_cons_iff]

theorem names_singleton {schema : Schema} (key : String) (condition : Value) :
    names schema model [(key, condition)] = key :: namesUnder schema model key condition :=
  List.append_nil _

/-- A filter looks up its keys. -/
theorem keys_subset_names {schema : Schema} (filter : Record) :
    Entries.keys filter ⊆ names schema model filter := by
  intro name hname
  obtain ⟨entry, hentry, rfl⟩ := List.mem_map.mp hname
  exact mem_names.mpr ⟨entry, hentry, Or.inl rfl⟩

/-- Fewer entries of a condition look up fewer names. -/
theorem namesUnder_subset {schema : Schema} {fewer entries : Record}
    (hword : Connective.ofName? key = none) (hfewer : fewer ⊆ entries) :
    namesUnder schema model key (.object fewer) ⊆
      namesUnder schema model key (.object entries) := by
  intro name hname
  rw [namesUnder, hword] at hname ⊢
  dsimp only at hname ⊢
  split at hname
  case isTrue his =>
    rw [if_pos his]
    obtain ⟨entry, hentry, hor⟩ := mem_names.mp hname
    exact mem_names.mpr ⟨entry, hfewer hentry, hor⟩
  case isFalse his =>
    rw [if_neg his]
    unfold members at hname ⊢
    cases hfield : model.field? key with
    | some field =>
        rw [hfield] at hname
        exact hname
    | none =>
        rw [hfield] at hname
        dsimp only at hname ⊢
        split at hname
        · rw [if_pos ‹_›]
          exact List.map_subset Prod.fst hfewer hname
        · cases hname

/-! ## Filters that agree -/

/-- Whether nothing is linked is read from the columns of the link. -/
theorem isUnlinked_congr {field : Field} (h : ∀ column ∈ store.schema.linkColumns model field,
      Entries.get? column a = Entries.get? column b) :
    isUnlinked store store.related model a field =
      isUnlinked store store.related model b field := by
  have hlinked : store.related model field a = store.related model field b :=
    Store.linkedWithin_congr h _
  unfold isUnlinked
  rw [hlinked]
  cases hlinkage : store.schema.linkage? model field with
  | none => rfl
  | some linkage =>
      have hkeys := (List.forall_mem_append.mp h).1
      rw [hlinkage] at hkeys
      have hnull : (linkage.localColumns.any fun column => Record.isNullAt column a) =
          linkage.localColumns.any fun column => Record.isNullAt column b := by
        rw [Bool.eq_iff_iff, List.any_eq_true, List.any_eq_true]
        refine exists_congr fun column => and_congr_right fun hcolumn => ?_
        rw [Record.isNullAt, Record.isNullAt, Record.valueAt_congr (hkeys column hcolumn)]
      simp only [hnull]

theorem members_of_relation {schema : Schema} {field : Field}
    (hfield : model.relation? key = some field) :
    members schema model key condition = schema.linkColumns model field := by
  obtain ⟨hfound, hrelation⟩ := Option.filter_eq_some_iff.mp hfield
  rw [members, hfound]
  exact if_pos hrelation

/-- What links decide by ids alone is read from the columns of the link. -/
theorem decided?_congr {field : Field} {related : Model}
    (h : ∀ column ∈ store.schema.linkColumns model field,
      Entries.get? column a = Entries.get? column b) :
    decided? store model a field related condition =
      decided? store model b field related condition := by
  unfold decided?
  rw [Model.recordId_congr (List.forall_mem_append.mp h).2]

/-- A condition without filters looks up its key and its members. -/
theorem satisfiesPlain_agree (hkey : Entries.get? key a = Entries.get? key b)
    (h : ∀ name ∈ members store.schema model key condition,
      Entries.get? name a = Entries.get? name b) :
    satisfiesPlain store store.related model a key condition =
      satisfiesPlain store store.related model b key condition := by
  have hvalue := Record.valueAt_congr hkey
  unfold satisfiesPlain
  unfold members at h
  cases hfield : model.field? key with
  | some field =>
      cases hrelation : field.isRelation with
      | false => simp only [hrelation, Bool.false_eq_true, if_false, hkey, hvalue]
      | true =>
          simp only [hfield, hrelation, if_true] at h
          simp only [hrelation, if_true, isUnlinked_congr h]
  | none =>
      cases hcompound : (model.compoundKey? key).isSome with
      | false => simp only [Bool.false_eq_true, if_false, hvalue]
      | true =>
          simp only [hfield, hcompound, if_true] at h ⊢
          cases condition with
          | object subset =>
              exact Record.holdsAll_congr h
          | _ => rfl

/-- A single value under a key looks up what the key does. -/
theorem satisfiesKey_agree_of_isScalar (hscalar : condition.isScalar = true)
    (hkey : Entries.get? key a = Entries.get? key b)
    (h : ∀ name ∈ namesUnder store.schema model key condition,
      Entries.get? name a = Entries.get? name b) :
    satisfiesKey store store.related model a key condition =
      satisfiesKey store store.related model b key condition := by
  have hnames : namesUnder store.schema model key condition =
      match Connective.ofName? key with
      | some _ => []
      | none => members store.schema model key condition := by
    cases condition with
    | array _ => cases hscalar
    | object _ => cases hscalar
    | _ => rfl
  rw [satisfiesKey_of_isScalar hscalar, satisfiesKey_of_isScalar hscalar]
  rw [hnames] at h
  cases hconnective : Connective.ofName? key with
  | some connective => rfl
  | none =>
      rw [hconnective] at h
      exact satisfiesPlain_agree hkey h

mutual

/-- Records that hold the same under the names that a filter looks up satisfy it both or
    neither. -/
theorem satisfies_agree : ∀ filter : List (String × Value),
    (∀ name ∈ names store.schema model filter, Entries.get? name a = Entries.get? name b) →
      satisfies store store.related model a filter = satisfies store store.related model b filter
  | [], _ => rfl
  | (key, condition) :: rest, h => by
      obtain ⟨hfirst, hrest⟩ := List.forall_mem_append.mp h
      obtain ⟨hkey, hunder⟩ := List.forall_mem_cons.mp hfirst
      rw [satisfies, satisfies, satisfiesKey_agree condition hkey hunder,
        satisfies_agree rest hrest]
termination_by structural filter => filter

theorem satisfiesKey_agree {key : String} : ∀ condition : Value,
    Entries.get? key a = Entries.get? key b →
    (∀ name ∈ namesUnder store.schema model key condition,
      Entries.get? name a = Entries.get? name b) →
      satisfiesKey store store.related model a key condition =
        satisfiesKey store store.related model b key condition
  | .array items, hkey, h => by
      rw [namesUnder] at h
      rw [satisfiesKey, satisfiesKey]
      cases hconnective : Connective.ofName? key with
      | some connective =>
          rw [hconnective] at h
          exact congrArg connective.combine (verdicts_agree items h)
      | none =>
          rw [hconnective] at h
          exact satisfiesPlain_agree hkey h
  | .object fields, hkey, h => by
      rw [namesUnder] at h
      rw [satisfiesKey, satisfiesKey]
      cases hconnective : Connective.ofName? key with
      | some connective =>
          rw [hconnective] at h
          dsimp only
          rw [satisfies_agree fields h]
      | none =>
          rw [hconnective] at h
          dsimp only at h ⊢
          by_cases his : key = "is"
          · rw [if_pos his] at h ⊢
            rw [if_pos his]
            exact satisfies_agree fields h
          · rw [if_neg his] at h ⊢
            rw [if_neg his]
            cases hfield : model.relation? key with
            | none => exact satisfiesPlain_agree hkey h
            | some field =>
                rw [members_of_relation hfield] at h
                have hlinked : store.related model field a = store.related model field b :=
                  Store.linkedWithin_congr h _
                simp only [decided?_congr h, hlinked]
  | .null, hkey, h => satisfiesKey_agree_of_isScalar rfl hkey h
  | .bool _, hkey, h => satisfiesKey_agree_of_isScalar rfl hkey h
  | .integer _, hkey, h => satisfiesKey_agree_of_isScalar rfl hkey h
  | .double _, hkey, h => satisfiesKey_agree_of_isScalar rfl hkey h
  | .string _, hkey, h => satisfiesKey_agree_of_isScalar rfl hkey h
termination_by structural condition => condition

theorem verdicts_agree : ∀ items : List Value,
    (∀ name ∈ namesWithin store.schema model items, Entries.get? name a = Entries.get? name b) →
      verdicts store store.related model a items = verdicts store store.related model b items
  | [], _ => rfl
  | .object filter :: rest, h => by
      obtain ⟨hfirst, hrest⟩ := List.forall_mem_append.mp h
      rw [verdicts, verdicts, satisfies_agree filter hfirst, verdicts_agree rest hrest]
  | .null :: rest, h => verdicts_agree rest h
  | .bool _ :: rest, h => verdicts_agree rest h
  | .integer _ :: rest, h => verdicts_agree rest h
  | .double _ :: rest, h => verdicts_agree rest h
  | .string _ :: rest, h => verdicts_agree rest h
  | .array _ :: rest, h => verdicts_agree rest h
termination_by structural items => items

end

/-- A key that filters have no meaning for and that a model does not declare is compared as it
    stands. -/
theorem satisfiesKey_undeclared {record : Record} (hword : Connective.ofName? key = none)
    (his : key ≠ "is") (hfield : model.field? key = none)
    (hcompound : model.compoundKey? key = none) (condition : Value) :
    satisfiesKey store store.related model record key condition =
      Condition.matchesScalar .plain (Record.valueAt key record) condition := by
  have hplain : satisfiesPlain store store.related model record key condition =
      Condition.matchesScalar .plain (Record.valueAt key record) condition := by
    unfold satisfiesPlain
    rw [hfield, hcompound]
    rfl
  have hrelation : model.relation? key = none := by rw [Model.relation?, hfield]; rfl
  rw [← hplain]
  cases condition with
  | array items => rw [satisfiesKey, hword]
  | object fields =>
      rw [satisfiesKey, hword]
      dsimp only
      rw [if_neg his, hrelation]
  | _ => rw [satisfiesKey_of_isScalar rfl, hword]

end Filter

end RecordStore
