import RecordStore.Proofs.Relation.BothEnds

/-!
# Conditions on joined records by id alone

A condition that asks for linked records by nothing but their ids is decided by the links of the
join, and the records are not looked at.  The links are compared with the ids that are asked for
as they are, while a record is compared as the declared type of its id field says; where the two
comparisons agree on the linked ids, the links decide what the records would.
-/

namespace RecordStore

namespace Value

variable {reading : Reading} {a b target : Value}

/-- Lists and objects equal no single value. -/
theorem equals_of_not_isScalar (ha : a.isScalar = false) (htarget : target.isScalar = true) :
    equals reading a target = false := by
  have hplain (h : equals .plain a target = true) : False := by
    have hnumber : a.number? = none := by
      cases a with
      | array _ => rfl
      | object _ => rfl
      | _ => cases ha
    rcases (equalsPlain_iff a target).mp h with ⟨i, hi, -⟩ | ⟨-, ⟨x, _, hx, -⟩ | ⟨-, hsame⟩⟩
    · cases a with
      | integer _ => cases ha
      | _ => cases hi
    · rw [hnumber] at hx
      cases hx
    · rw [Alike.isScalar_eq (Or.inr hsame), htarget] at ha
      cases ha
  cases reading with
  | plain => exact Bool.eq_false_iff.mpr hplain
  | _ =>
      cases a with
      | array _ => rfl
      | object _ => rfl
      | _ => cases ha

/-- Values that are equal as data equal the same single values. -/
theorem equals_congr_left (h : same a b = true) (htarget : target.isScalar = true) :
    equals reading a target = equals reading b target := by
  cases ha : a.isScalar with
  | true => rw [equals_comm, equals_congr reading target ha (Or.inr h), equals_comm]
  | false =>
      have hb : b.isScalar = false := Alike.isScalar_eq (Or.inr h) ▸ ha
      rw [equals_of_not_isScalar ha htarget, equals_of_not_isScalar hb htarget]

end Value

/-! ## Filters by id -/

namespace Joins

/-- Whether ids are as conditions ask: one that equals an id that is expected, and none that equals
    one that is not. -/
def answers (equal : Value → Value → Bool) (ids : List Value) (wanted : List (Bool × Value)) :
    Bool :=
  wanted.all fun (expected, target) => (ids.any fun known => equal known target) == expected

variable {idField : String} {filter target : Value} {wanted : List (Bool × Value)}

/-- Ids that hold the same ones of those asked for answer alike. -/
theorem answers_congr {equal : Value → Value → Bool} {ids others : List Value}
    (h : ∀ asked ∈ wanted, (ids.any fun known => equal known asked.2) = true ↔
      (others.any fun known => equal known asked.2) = true) :
    answers equal ids wanted = answers equal others wanted := by
  refine Bool.eq_iff_iff.mpr ?_
  unfold answers
  rw [List.all_eq_true, List.all_eq_true]
  refine forall₂_congr fun asked hasked => ?_
  show ((ids.any fun known => equal known asked.2) == asked.1) = true ↔ _
  rw [Bool.eq_iff_iff.mpr (h asked hasked)]

/-- A filter by id alone holds the id, or an object with the id under `equals`. -/
theorem wantedId?_spec (h : wantedId? idField filter = some target) :
    target.isScalar = true ∧ target.isNull = false ∧
      (filter = .object [(idField, target)] ∨
        filter = .object [(idField, .object [("equals", target)])]) := by
  have hwanted {v : Value}
      (hv : (if v.isScalar && !v.isNull then some v else none) = some target) :
      v = target ∧ target.isScalar = true ∧ target.isNull = false := by
    split at hv
    · rename_i hscalar
      obtain rfl := Option.some.inj hv
      rw [Bool.and_eq_true, Bool.not_eq_true'] at hscalar
      exact ⟨rfl, hscalar⟩
    · cases hv
  cases filter with
  | object fields =>
      rcases fields with _ | ⟨⟨key, operand⟩, _ | ⟨second, rest⟩⟩
      · cases h
      · -- the only field of the filter is the id field
        by_cases hkey : key = idField
        · subst hkey
          simp only [wantedId?, Value.object?, Entries.get?_cons, if_true, List.length_singleton,
            Option.bind_eq_bind, Option.bind_some] at h
          split at h
          · rename_i name value
            split at h
            · rename_i hname
              obtain ⟨rfl, hscalar, hnull⟩ := hwanted h
              exact ⟨hscalar, hnull, Or.inr (by rw [hname])⟩
            · cases h
          · obtain ⟨rfl, hscalar, hnull⟩ := hwanted h
            exact ⟨hscalar, hnull, Or.inl rfl⟩
        · simp [wantedId?, Value.object?, Entries.get?_cons, hkey] at h
      · simp [wantedId?, Value.object?] at h
  | _ => cases h

/-- Conditions by id alone ask for a linked record of an id, or that there is none. -/
theorem wantedIds?_cons_spec {quantifier : String} {rest : Record}
    (h : wantedIds? idField ((quantifier, filter) :: rest) = some wanted) :
    ∃ expected target others, wanted = (expected, target) :: others ∧
      wantedId? idField filter = some target ∧ wantedIds? idField rest = some others ∧
      (quantifier = "some" ∧ expected = true ∨ quantifier = "none" ∧ expected = false) := by
  have hrest {expected : Bool} (h : (do
      let id ← wantedId? idField filter
      let rest ← wantedIds? idField rest
      some ((expected, id) :: rest)) = some wanted) :
      ∃ target others, wanted = (expected, target) :: others ∧
        wantedId? idField filter = some target ∧ wantedIds? idField rest = some others := by
    obtain ⟨target, htarget, h⟩ := Option.bind_eq_some_iff.mp h
    obtain ⟨others, hothers, h⟩ := Option.bind_eq_some_iff.mp h
    exact ⟨target, others, (Option.some.inj h).symm, htarget, hothers⟩
  rw [wantedIds?] at h
  split at h
  · rename_i hsome
    obtain ⟨target, others, hwanted, htarget, hothers⟩ := hrest h
    exact ⟨true, target, others, hwanted, htarget, hothers, Or.inl ⟨hsome, rfl⟩⟩
  · split at h
    · rename_i hnone
      obtain ⟨target, others, hwanted, htarget, hothers⟩ := hrest h
      exact ⟨false, target, others, hwanted, htarget, hothers, Or.inr ⟨hnone, rfl⟩⟩
    · cases h

/-- The ids that conditions ask for are single values. -/
theorem isScalar_of_mem_wantedIds? {conditions : Record}
    (h : wantedIds? idField conditions = some wanted) :
    ∀ asked ∈ wanted, asked.2.isScalar = true := by
  induction conditions generalizing wanted with
  | nil =>
      rw [← Option.some.inj h]
      exact List.forall_mem_nil _
  | cons entry rest ih =>
      obtain ⟨_, target, others, rfl, htarget, hothers, -⟩ := wantedIds?_cons_spec h
      exact List.forall_mem_cons.mpr ⟨(wantedId?_spec htarget).1, ih hothers⟩

/-- A join decides by its links what conditions ask of ids alone. -/
theorem decide?_spec {joins : Joins} {side : Side} {id condition : Value} {verdict : Bool}
    (h : joins.decide? side id idField condition = some verdict) :
    ∃ join conditions wanted, joins.ofSide? side = some join ∧ condition = .object conditions ∧
      wantedIds? idField conditions = some wanted ∧
      verdict = answers sameId (join.counterpartsInto side.model id []) wanted := by
  obtain ⟨join, hjoin, h⟩ := Option.bind_eq_some_iff.mp h
  obtain ⟨conditions, hconditions, h⟩ := Option.bind_eq_some_iff.mp h
  split at h
  · cases h
  · obtain ⟨wanted, hwanted, h⟩ := Option.bind_eq_some_iff.mp h
    refine ⟨join, conditions, wanted, hjoin, ?_, hwanted, (Option.some.inj h).symm⟩
    cases condition with
    | object fields => rw [← Option.some.inj hconditions]
    | _ => cases hconditions

end Joins

namespace Filter

variable {store : Store} {links : Links} {model : Model} {record : Record}
variable {idField : String} {filter target : Value}

/-- The key of a plain field asks for a condition on its value. -/
theorem satisfiesKey_object {fields : Record} (hplain : model.IsPlain idField)
    (hname : idField ≠ "is") :
    satisfiesKey store links model record idField (.object fields) =
      Condition.matchesScalar (model.readingOf idField) (Record.valueAt idField record)
        (.object fields) := by
  obtain ⟨hconnective, field, hfield, hrelation, hlist⟩ := hplain
  have hnot : model.relation? idField = none := by
    unfold Model.relation?
    rw [hfield, Option.filter_some, hrelation]
    rfl
  have hreading : model.readingOf idField = field.reading := by
    rw [Model.readingOf, hfield]
    rfl
  rw [satisfiesKey, hconnective]
  simp only [if_neg hname, hnot, hreading]
  unfold satisfiesPlain
  simp only [hfield, hrelation, hlist, Bool.false_eq_true, if_false]

/-- A value passes `equals` with a single value if it equals it. -/
theorem matchesScalar_equals (reading : Reading) (stored : Value) (hscalar : target.isScalar = true)
    (hnull : target.isNull = false) :
    Condition.matchesScalar reading stored (.object [("equals", target)]) =
      (!stored.isNull && Value.equals reading stored target) := by
  have hfold (v : Value) : v.fold false = v := by cases v <;> rfl
  have hpasses : Condition.passesAll reading false stored [("equals", target)] =
      Value.equals reading stored target := by
    rw [Condition.passesAll, Condition.passesAll, Bool.and_true]
    have hnamed : Condition.passesNamed reading false stored "equals" target =
        Condition.passes reading false (stored.fold false) .equals target := by
      cases target with
      | object _ => cases hscalar
      | _ => rfl
    rw [hnamed, hfold]
    unfold Condition.passes
    rw [hfold, hnull]
    rfl
  show Condition.satisfies reading stored [("equals", target)] = _
  unfold Condition.satisfies
  cases hstored : stored.isNull with
  | true => simp [ScalarOperator.ofName?, Condition.passesNull, hnull]
  | false => simpa [Condition.ignoresCase, Entries.get?_cons] using hpasses

/-- A filter by id alone compares the id of a record. -/
theorem satisfies_of_wantedId? (store : Store) (links : Links) (hplain : model.IsPlain idField)
    (hname : idField ≠ "is") (h : Joins.wantedId? idField filter = some target) :
    ∃ fields, filter = .object fields ∧ ∀ record, satisfies store links model record fields =
      Value.equals (model.readingOf idField) (Record.valueAt idField record) target := by
  obtain ⟨hscalar, hnull, hfilter⟩ := Joins.wantedId?_spec h
  have hequals (stored : Value) :
      (!stored.isNull && Value.equals (model.readingOf idField) stored target) =
        Value.equals (model.readingOf idField) stored target := by
    cases hequal : Value.equals (model.readingOf idField) stored target with
    | true => rw [Value.isNull_of_equals hnull hequal]; rfl
    | false => exact Bool.and_false _
  rcases hfilter with rfl | rfl <;> refine ⟨_, rfl, fun record => ?_⟩ <;> rw [← hequals]
  · rw [satisfies_eq_fits (List.forall_mem_singleton.mpr ⟨hplain, hscalar, hnull⟩), fits,
      List.all_cons, List.all_nil, Bool.and_true,
      Condition.matchesScalar_of_isScalar _ _ hscalar hnull]
  · rw [satisfies, satisfies, Bool.and_true, satisfiesKey_object hplain hname,
      matchesScalar_equals _ _ hscalar hnull]

/-- Quantifiers over filters by id alone compare the ids of the linked records. -/
theorem quantified_of_wantedIds? {related : Model} {linked : List Record}
    (hplain : related.IsPlain idField) (hname : idField ≠ "is") {conditions : Record} :
    ∀ {wanted : List (Bool × Value)}, Joins.wantedIds? idField conditions = some wanted →
      quantified store links related linked conditions =
        Joins.answers (Value.equals (related.readingOf idField))
          (linked.map (Record.valueAt idField)) wanted := by
  induction conditions with
  | nil =>
      intro wanted h
      rw [← Option.some.inj h]
      rfl
  | cons entry rest ih =>
      obtain ⟨quantifier, filter⟩ := entry
      intro wanted h
      obtain ⟨expected, target, others, rfl, htarget, hothers, hquantifier⟩ :=
        Joins.wantedIds?_cons_spec h
      obtain ⟨fields, rfl, htest⟩ := satisfies_of_wantedId? store links hplain hname htarget
      rw [quantified, Joins.answers, List.all_cons, ih hothers]
      congr 1
      -- `some` expects a linked record of the id, and `none` expects that there is none
      rcases hquantifier with ⟨rfl, rfl⟩ | ⟨rfl, rfl⟩
      · show (linked.any fun other => satisfies store links related other fields) = _
        simp only [htest, beq_true, List.any_map, Function.comp_def]
      · show (!linked.any fun other => satisfies store links related other fields) = _
        simp only [htest, beq_false, List.any_map, Function.comp_def]

end Filter

/-! ## Linked ids -/

namespace Join

variable {join : Join} {model : String} {id known : Value}

/-- The ids that a join gives for an id stand at the other ends of links with it. -/
theorem link_of_mem_counterpartsInto {ids : List Value}
    (h : known ∈ join.counterpartsInto model id ids) : known ∈ ids ∨ ∃ link ∈ join.links,
      (join.a.model = model ∧ known = link.b) ∨ (join.b.model = model ∧ known = link.a) := by
  -- each of the two tests of a link adds at most one id
  have hadd {p : Prop} [Decidable p] {x : Value} {ids : List Value}
      (h : known ∈ if p then addId ids x else ids) : known ∈ ids ∨ (p ∧ known = x) := by
    split at h
    · rename_i hp
      unfold addId at h
      split at h
      · exact Or.inl h
      · rw [List.mem_append, List.mem_singleton] at h
        exact h.imp_right fun heq => ⟨hp, heq⟩
    · exact Or.inl h
  unfold counterpartsInto at h
  revert h
  generalize join.links = links
  intro h
  induction links generalizing ids with
  | nil => exact Or.inl h
  | cons link rest ih =>
      rcases ih h with hfirst | ⟨other, hother, hends⟩
      · rcases hadd hfirst with hfirst | ⟨hb, heq⟩
        · rcases hadd hfirst with hfirst | ⟨ha, heq⟩
          · exact Or.inl hfirst
          · exact Or.inr ⟨link, List.mem_cons_self, Or.inl ⟨ha.1, heq⟩⟩
        · exact Or.inr ⟨link, List.mem_cons_self, Or.inr ⟨hb.1, heq⟩⟩
      · exact Or.inr ⟨other, List.mem_cons_of_mem _ hother, hends⟩

end Join

namespace Store

variable {store : Store} {model related : Model} {field other : Field} {record : Record}

/-- The ids that the joins give for a record through a relation field. -/
def linkedIds (store : Store) (model : Model) (field : Field) (record : Record) : List Value :=
  match field.relationName with
  | some name => store.joins.counterparts name model.name (model.recordId record)
  | none => []

/-- A relation field whose links a join keeps: the models are those of the schema, whose fields
    have different names, and there is a field at the other end. -/
structure Joined (store : Store) (model : Model) (field : Field) (related : Model) : Prop where
  declared : store.JoinsDeclared
  member : model ∈ store.schema.models
  distinct : (model.fields.map (·.name)).Nodup
  listed : field ∈ model.relationFields
  target : store.schema.relatedModel field = .ok related
  reciprocal : (store.schema.reciprocal? model field).isSome = true

variable (hjoined : store.Joined model field related) {join : Join}
include hjoined

/-- The join that a field is a side of is that of its relation name. -/
theorem Joined.join_of_ofSide? (hside : store.joins.ofSide? ⟨field.name, model.name⟩ = some join) :
    join ∈ store.joins ∧ field.relationName = some join.name ∧
      store.joins.get? join.name = some join := by
  obtain ⟨hmem, hsides⟩ := Joins.ofSide?_spec hside
  obtain ⟨owner, howner, other, hother, hrelation, heq⟩ :=
    Joins.field_of_side (hjoined.declared.mem hmem) hsides
  obtain ⟨hname, hmodel⟩ := Side.mk.inj heq
  obtain rfl := Schema.eq_of_name_eq hjoined.member howner hmodel
  -- the fields of the model are known by their names
  obtain rfl : field = other := List.inj_on_of_nodup_map hjoined.distinct
    (List.mem_of_mem_filter hjoined.listed) (List.mem_of_mem_filter hother) hname
  exact ⟨hmem, hrelation, hjoined.declared.get?_eq_some hmem⟩

/-- A field of a join has no key columns at either end. -/
theorem Joined.linkage_eq_none (hmem : join ∈ store.joins)
    (hrelation : field.relationName = some join.name) :
    store.schema.linkage? model field = none := by
  have hjoin := hjoined.declared.mem hmem
  obtain ⟨other, hother⟩ := Option.isSome_iff_exists.mp hjoined.reciprocal
  obtain ⟨relation, found, hname, hfound, hmember, hsame, -⟩ := Schema.reciprocal_spec hother
  rw [hrelation] at hname
  have hfield := (Joins.side_of_field hjoin hjoined.member hjoined.listed hrelation).2
  have hopposite := (Joins.side_of_field hjoin (Schema.mem_of_relatedModel hfound) hmember
    (hsame.trans hname.symm)).2
  unfold Schema.linkage?
  rw [hfield, hother]
  simp [hopposite]

/-- A linked id is that of a stored record of the other model. -/
theorem Joined.holdsId (hstored : store.LinksStored) (hmem : join ∈ store.joins)
    (hrelation : field.relationName = some join.name) {id known : Value}
    (hknown : known ∈ join.counterpartsInto model.name id []) :
    ∃ record ∈ store.items related.name, Value.same known (related.recordId record) = true := by
  obtain ⟨other, hother⟩ := Option.isSome_iff_exists.mp hjoined.reciprocal
  have hsides := Schema.sides_of_reciprocal hjoined.member hjoined.listed hother hjoined.target
    (hjoined.declared.mem hmem) hrelation
  have hholds : store.HoldsId related.name known := by
    rcases Join.link_of_mem_counterpartsInto hknown with hnil | ⟨link, hlink, hends⟩
    · cases hnil
    · obtain ⟨ha, hb⟩ := hstored join hmem link hlink
      -- the side across from one of the model belongs to the other model, also in a self-join
      rcases hsides with ⟨hsa, hsb⟩ | ⟨hsa, hsb⟩ <;> rw [hsa] at ha <;> rw [hsb] at hb <;>
        rw [hsa, hsb] at hends <;> dsimp only at ha hb hends <;>
        rcases hends with ⟨hname, rfl⟩ | ⟨hname, rfl⟩
      · exact hb
      · exact hname ▸ ha
      · exact hname ▸ hb
      · exact ha
  obtain ⟨owner, howner, hname, hrecord⟩ := hholds
  obtain rfl := Schema.eq_of_name_eq howner (Schema.mem_of_relatedModel hjoined.target) hname
  exact hrecord

/-- The ids that a join gives for a record with a single id are those of its links. -/
theorem Joined.linkedIds_eq (hmem : join ∈ store.joins)
    (hrelation : field.relationName = some join.name)
    (hsingle : ((model.recordId record).get? "in").bind Value.array? = none) :
    store.linkedIds model field record =
      join.counterpartsInto model.name (model.recordId record) [] := by
  unfold linkedIds Joins.counterparts
  rw [hrelation]
  dsimp only
  rw [hjoined.declared.get?_eq_some hmem]
  dsimp only
  rw [hsingle]

/-- The linked records have the linked ids: of single values both hold the same ones. -/
theorem Joined.any_related (hstored : store.LinksStored) (hmem : join ∈ store.joins)
    (hrelation : field.relationName = some join.name)
    (hsingle : ((model.recordId record).get? "in").bind Value.array? = none)
    (hids : ∀ linked ∈ store.items related.name, ∀ known ∈ store.linkedIds model field record,
      sameId (related.recordId linked) known = Value.same (related.recordId linked) known)
    {reading : Reading} {target : Value} (htarget : target.isScalar = true) :
    ((store.related model field record).any fun linked =>
        Value.equals reading (related.recordId linked) target) = true ↔
      ((store.linkedIds model field record).any fun known =>
        Value.equals reading known target) = true := by
  have hrelated : store.related model field record = (store.items related.name).filter
      fun linked => (store.linkedIds model field record).any
        fun known => sameId (related.recordId linked) known := by
    rw [related_of_relationName hjoined.target (hjoined.linkage_eq_none hmem hrelation) hrelation]
    unfold linkedIds
    rw [hrelation]
  simp only [hrelated, List.any_eq_true, List.mem_filter]
  constructor
  · rintro ⟨linked, ⟨hlinked, known, hknown, hsame⟩, hequal⟩
    rw [hids linked hlinked known hknown] at hsame
    exact ⟨known, hknown, Value.equals_congr_left hsame htarget ▸ hequal⟩
  · rintro ⟨known, hknown, hequal⟩
    obtain ⟨linked, hlinked, hsame⟩ := hjoined.holdsId hstored hmem hrelation
      (hjoined.linkedIds_eq hmem hrelation hsingle ▸ hknown)
    refine ⟨linked, ⟨hlinked, known, hknown, ?_⟩,
      Value.equals_congr_left hsame htarget ▸ hequal⟩
    rw [hids linked hlinked known hknown]
    exact Value.same_symm _ _ hsame

/-- A condition that the links decide asks of the linked ids as data what the linked records are
    asked under the declared type of the id field. -/
theorem Joined.answers_of_decided? (hstored : store.LinksStored) {idField : String}
    (hfield : related.idFields = [idField]) (hplain : related.IsPlain idField)
    (hname : idField ≠ "is")
    (hsingle : ((model.recordId record).get? "in").bind Value.array? = none)
    (hids : ∀ linked ∈ store.items related.name, ∀ known ∈ store.linkedIds model field record,
      sameId (related.recordId linked) known = Value.same (related.recordId linked) known)
    {condition : Value} {verdict : Bool}
    (hdecided : Filter.decided? store model record field related condition = some verdict) :
    ∃ conditions wanted, condition = .object conditions ∧
      Joins.wantedIds? idField conditions = some wanted ∧
      verdict = Joins.answers sameId (store.linkedIds model field record) wanted ∧
      Filter.quantified store store.related related (store.related model field record) conditions =
        Joins.answers (Value.equals (related.readingOf idField))
          (store.linkedIds model field record) wanted := by
  unfold Filter.decided? at hdecided
  rw [hfield] at hdecided
  dsimp only at hdecided
  split at hdecided
  · cases hdecided
  · obtain ⟨join, conditions, wanted, hside, rfl, hwanted, rfl⟩ := Joins.decide?_spec hdecided
    obtain ⟨hmem, hrelation, -⟩ := hjoined.join_of_ofSide? hside
    refine ⟨conditions, wanted, rfl, hwanted, ?_, ?_⟩
    · rw [hjoined.linkedIds_eq hmem hrelation hsingle]
    · have hvalue : related.recordId = Record.valueAt idField := by
        funext linked
        rw [Model.recordId, hfield]
      rw [Filter.quantified_of_wantedIds? hplain hname hwanted, ← hvalue]
      refine Joins.answers_congr fun asked hasked => ?_
      rw [List.any_map]
      exact hjoined.any_related hstored hmem hrelation hsingle hids
        (Joins.isScalar_of_mem_wantedIds? hwanted asked hasked)

/-- A condition on linked records by id alone comes to what the linked records make of it exactly
    when the linked ids answer it as data as they do under the declared type of the id field. -/
theorem decided_eq_quantified_iff (hstored : store.LinksStored) {idField : String}
    (hfield : related.idFields = [idField]) (hplain : related.IsPlain idField)
    (hname : idField ≠ "is")
    (hsingle : ((model.recordId record).get? "in").bind Value.array? = none)
    (hids : ∀ linked ∈ store.items related.name, ∀ known ∈ store.linkedIds model field record,
      sameId (related.recordId linked) known = Value.same (related.recordId linked) known)
    {condition : Value} {verdict : Bool}
    (hdecided : Filter.decided? store model record field related condition = some verdict) :
    ∃ conditions wanted, condition = .object conditions ∧
      Joins.wantedIds? idField conditions = some wanted ∧
      (verdict = Filter.quantified store store.related related (store.related model field record)
          conditions ↔
        Joins.answers sameId (store.linkedIds model field record) wanted =
          Joins.answers (Value.equals (related.readingOf idField))
            (store.linkedIds model field record) wanted) := by
  obtain ⟨conditions, wanted, hcondition, hwanted, hverdict, hquantified⟩ :=
    hjoined.answers_of_decided? hstored hfield hplain hname hsingle hids hdecided
  exact ⟨conditions, wanted, hcondition, hwanted, by rw [hverdict, hquantified]⟩

/-- Where ids are read plainly the links decide as the records do. -/
theorem Joined.decided_eq_quantified (hstored : store.LinksStored) {idField : String}
    (hfield : related.idFields = [idField]) (hplain : related.IsPlain idField)
    (hname : idField ≠ "is") (hreading : related.readingOf idField = .plain)
    (hsingle : ((model.recordId record).get? "in").bind Value.array? = none)
    (hids : ∀ linked ∈ store.items related.name, ∀ known ∈ store.linkedIds model field record,
      sameId (related.recordId linked) known = Value.same (related.recordId linked) known)
    {conditions : Record} {verdict : Bool} (hdecided :
      Filter.decided? store model record field related (.object conditions) = some verdict) :
    verdict = Filter.quantified store store.related related (store.related model field record)
      conditions := by
  obtain ⟨found, wanted, hcondition, -, hverdict, hquantified⟩ :=
    hjoined.answers_of_decided? hstored hfield hplain hname hsingle hids hdecided
  obtain rfl := Value.object.inj hcondition
  rw [hverdict, hquantified, hreading]
  rfl

end Store

namespace Library

open Store

theorem joined_tags : shelf.Joined book tagsField tag where
  declared := rfl
  member := .tail _ (.head _)
  distinct := by decide
  listed := .tail _ (.head _)
  target := rfl
  reciprocal := rfl

/-- The tags of the book are found by their ids without looking at them. -/
theorem decided_tags :
    Filter.decided? shelf book firstBook tagsField tag
        (.object [("some", .object [("id", .string "t")])]) = some true ∧
      Filter.quantified shelf shelf.related tag (shelf.related book tagsField firstBook)
        [("some", .object [("id", .string "t")])] = true := by
  have hdecided : Filter.decided? shelf book firstBook tagsField tag
      (.object [("some", .object [("id", .string "t")])]) = some true := rfl
  have hstored : shelf.LinksStored := by
    refine List.forall_mem_singleton.mpr (List.forall_mem_singleton.mpr ⟨?_, ?_⟩)
    · exact ⟨tag, .tail _ (.tail _ (.head _)), rfl, firstTag, List.mem_singleton_self _, rfl⟩
    · exact ⟨book, .tail _ (.head _), rfl, firstBook, List.mem_singleton_self _, rfl⟩
  obtain ⟨conditions, wanted, hcondition, hwanted, hiff⟩ :=
    decided_eq_quantified_iff joined_tags hstored rfl ⟨rfl, _, rfl, rfl, rfl⟩ (by decide) rfl
      (by decide) hdecided
  obtain rfl := Value.object.inj hcondition
  obtain rfl := Option.some.inj hwanted
  exact ⟨hdecided, (hiff.mpr rfl).symm⟩

end Library

namespace Numbered

open Store

def tagsField : Field :=
  { name := "tags", kind := .relation, typeName := "Tag", isList := true,
    relationName := some "labels" }

def taggedField : Field :=
  { name := "posts", kind := .relation, typeName := "Post", isList := true,
    relationName := some "labels" }

def post : Model where
  name := "Post"
  fields := [{ name := "id", kind := .scalar, typeName := "Int", isId := true }, tagsField]

def tag : Model where
  name := "Tag"
  fields := [{ name := "id", kind := .scalar, typeName := "BigInt", isId := true }, taggedField]

/-- Posts are joined with tags, whose ids are big integers. -/
def schema : Schema where
  options := {}
  models := [post, tag]
  nodup_names := by decide
  targets_known := by decide

def firstPost : Record := [("id", .integer 1)]

def firstTag : Record := [("id", .string "10")]

/-- A post with a tag whose id is stored as a text. -/
def board : Store :=
  { ofSchema schema 0 ⟨0⟩ with
    collections := [("Post", [firstPost]), ("Tag", [firstTag])]
    joins := [⟨"labels", ⟨"posts", "Tag"⟩, ⟨"tags", "Post"⟩, [⟨.string "10", .integer 1⟩]⟩] }

/-- The tag of the post has the big integer 10 for its id, but no link holds the number. -/
theorem decided_ne_quantified : board.Joined post tagsField tag ∧ board.LinksStored ∧
    Filter.decided? board post firstPost tagsField tag
        (.object [("some", .object [("id", .integer 10)])]) = some false ∧
      Filter.quantified board board.related tag (board.related post tagsField firstPost)
        [("some", .object [("id", .integer 10)])] = true := by
  refine ⟨⟨rfl, .head _, by decide, List.mem_singleton_self _, rfl, rfl⟩, ?_, rfl, ?_⟩
  · refine List.forall_mem_singleton.mpr (List.forall_mem_singleton.mpr ⟨?_, ?_⟩)
    · exact ⟨tag, .tail _ (.head _), rfl, firstTag, List.mem_singleton_self _, rfl⟩
    · exact ⟨post, .head _, rfl, firstPost, List.mem_singleton_self _, rfl⟩
  · decide

end Numbered

end RecordStore
