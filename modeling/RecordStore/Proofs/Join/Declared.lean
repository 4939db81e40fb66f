import Mathlib.Data.List.Permutation
import Mathlib.Data.List.Sort
import RecordStore.Proofs.Join.Sides

/-!
# Which joins a schema declares

Whether a relation is kept in a join is read off the whole schema, by the names of its relations,
while its key columns are found field by field, through the other end.  The two never meet: a join
is declared where exactly two fields have a relation name and neither names key columns, and then
neither end leads to any.  The order of declaration plays no part in it.
-/

namespace RecordStore

/-- The same models in another order, each with its fields in another order. -/
def Reordered (models others : List Model) : Prop :=
  ∃ between, List.Forall₂ (fun a b => b.name = a.name ∧ a.fields.Perm b.fields) models between ∧
    between.Perm others

namespace Joins

variable {models others : List Model} {join : Join} {name : String} {side : Side}

/-- A relation field that has a relation name, as a side. -/
def IsEnd (models : List Model) (name : String) (side : Side) : Prop :=
  ∃ model ∈ models, ∃ field ∈ model.relationFields,
    field.relationName = some name ∧ side = ⟨field.name, model.name⟩

/-- No field of a relation name names key columns. -/
def Keyless (models : List Model) (name : String) : Prop :=
  ∀ model ∈ models, ∀ field ∈ model.relationFields, field.relationName = some name →
    field.fromFields = [] ∧ field.toFields = []

/-! ## Joins by name -/

theorem mem_foldl_insertName {ends : List NamedEnd} : ∀ {names : List String},
    name ∈ ends.foldl (fun names e => insertName e.relation names) names ↔
      name ∈ names ∨ ∃ e ∈ ends, e.relation = name := by
  induction ends with
  | nil => simp
  | cons e rest ih =>
      intro names
      rw [List.foldl_cons, ih, mem_insertName, List.exists_mem_cons_iff, eq_comm (a := name),
        or_assoc, or_left_comm]

/-- The joins of a schema are those that the ends of their names make. -/
theorem mem_ofModels : join ∈ ofModels models ↔
    ofEnds? (namedEnds models) join.name = some join := by
  unfold ofModels
  rw [List.mem_filterMap]
  constructor
  · rintro ⟨relation, -, hjoin⟩
    rw [name_of_ofEnds? hjoin]
    exact hjoin
  · intro hjoin
    refine ⟨join.name, mem_foldl_insertName.mpr (Or.inr ?_), hjoin⟩
    -- a name without ends makes no join
    by_contra hnone
    have hends : (namedEnds models).filter (fun e => e.relation = join.name) = [] :=
      List.filter_eq_nil_iff.mpr fun e he hname => hnone ⟨e, he, of_decide_eq_true hname⟩
    unfold ofEnds? at hjoin
    rw [hends] at hjoin
    cases hjoin

theorem get?_ofModels :
    (ofModels models).get? name = some join ↔ join ∈ ofModels models ∧ join.name = name := by
  refine ⟨get?_spec, ?_⟩
  rintro ⟨hmem, rfl⟩
  cases hfound : (ofModels models).get? join.name with
  | none => exact absurd (decide_eq_true rfl) (List.find?_eq_none.mp hfound join hmem)
  | some found =>
      obtain ⟨hfound, hname⟩ := get?_spec hfound
      rw [List.inj_on_of_nodup_map (nodup_names_ofModels models) hfound hmem hname]

/-! ## The order of declaration -/

/-- The order of two sides does not depend on which of them comes first. -/
theorem orderSides_comm (x y : Side) : orderSides x y = orderSides y x := by
  have hswap : (compare y.field x.field).then (compare y.model x.model) =
      ((compare x.field y.field).then (compare x.model y.model)).swap := by
    rw [Ordering.swap_then, ← Std.OrientedCmp.eq_swap, ← Std.OrientedCmp.eq_swap]
  unfold orderSides
  rw [hswap]
  cases horder : (compare x.field y.field).then (compare x.model y.model) with
  | lt => rfl
  | gt => rfl
  | eq =>
      obtain ⟨hfield, hmodel⟩ := Ordering.then_eq_eq.mp horder
      have heq : x = y := by
        obtain ⟨field, model⟩ := x
        obtain ⟨field', model'⟩ := y
        obtain rfl : field = field' := Std.LawfulEqCmp.eq_of_compare hfield
        obtain rfl : model = model' := Std.LawfulEqCmp.eq_of_compare hmodel
        rfl
      rw [heq]
      rfl

/-- Ends make the same join of a name in every order. -/
theorem ofEnds?_of_perm {ends more : List NamedEnd} (h : ends.Perm more) (name : String) :
    ofEnds? ends name = ofEnds? more name := by
  have hends := h.filter fun e => e.relation = name
  unfold ofEnds?
  generalize ends.filter (fun e => decide (e.relation = name)) = xs at hends
  generalize more.filter (fun e => decide (e.relation = name)) = ys at hends
  match xs with
  | [] => rw [hends.nil_eq]
  | [x] => rw [List.singleton_perm.mp hends]
  | [x, y] =>
      rcases List.perm_pair.mp hends.symm with rfl | rfl
      · rfl
      · dsimp only
        rw [Bool.or_comm, orderSides_comm]
  | _ :: _ :: _ :: _ =>
      have hlength := hends.length_eq
      match ys with
      | [] | [_] | [_, _] => simp at hlength
      | _ :: _ :: _ :: _ => rfl

/-- Another order of declaration brings the same ends in another order. -/
theorem namedEnds_perm (h : Reordered models others) :
    (namedEnds models).Perm (namedEnds others) := by
  obtain ⟨between, hfields, hmodels⟩ := h
  refine List.Perm.trans ?_ (hmodels.flatMap_right _)
  clear hmodels
  induction hfields with
  | nil => exact .nil
  | @cons a b _ _ hab _ ih =>
      obtain ⟨hname, hperm⟩ := hab
      refine List.Perm.append ?_ ih
      simp only [hname]
      exact (hperm.filter _).filterMap _

/-- **The order of declaration does not matter**: the same joins are declared, with the same sides
    in the same places. -/
theorem ofModels_of_reordered (h : Reordered models others) :
    ofModels others = ofModels models := by
  have hends := namedEnds_perm h
  have hnames : (namedEnds others).foldl (fun names e => insertName e.relation names) [] =
      (namedEnds models).foldl (fun names e => insertName e.relation names) [] := by
    refine List.Pairwise.eq_of_mem_iff (pairwise_foldl_insertName _ [] .nil)
      (pairwise_foldl_insertName _ [] .nil) fun name => ?_
    simp only [mem_foldl_insertName, hends.mem_iff]
  unfold ofModels
  dsimp only
  rw [hnames, funext (ofEnds?_of_perm hends)]

/-! ## The ends of a relation name -/

/-- Where names tell models and fields apart, sides tell ends apart. -/
theorem pairwise_side_ne (hmodels : (models.map (·.name)).Nodup)
    (hfields : ∀ model ∈ models, (model.fields.map (·.name)).Nodup) :
    (namedEnds models).Pairwise fun x y => x.side ≠ y.side := by
  refine List.pairwise_flatMap.mpr ⟨fun model hmodel => ?_, ?_⟩
  · have hlisted := (List.pairwise_map.mp (hfields model hmodel)).filter (·.isRelation)
    refine List.pairwise_filterMap.mpr (hlisted.imp fun hne x hx y hy heq => hne ?_)
    obtain ⟨_, -, rfl⟩ := Option.map_eq_some_iff.mp hx
    obtain ⟨_, -, rfl⟩ := Option.map_eq_some_iff.mp hy
    exact (Side.mk.inj heq).1
  · refine (List.pairwise_map.mp hmodels).imp fun hne x hx y hy heq => hne ?_
    obtain ⟨_, -, hx⟩ := List.mem_filterMap.mp hx
    obtain ⟨_, -, hy⟩ := List.mem_filterMap.mp hy
    obtain ⟨_, -, rfl⟩ := Option.map_eq_some_iff.mp hx
    obtain ⟨_, -, rfl⟩ := Option.map_eq_some_iff.mp hy
    exact (Side.mk.inj heq).2

/-- The ends of a relation name are where its sides are taken from. -/
theorem isEnd_iff : IsEnd models name side ↔
    side ∈ ((namedEnds models).filter fun e => e.relation = name).map (·.side) := by
  constructor
  · rintro ⟨model, hmodel, field, hfield, hrelation, rfl⟩
    exact List.mem_map.mpr ⟨_, end_of_field hmodel hfield hrelation, rfl⟩
  · intro h
    obtain ⟨e, he, rfl⟩ := List.mem_map.mp h
    obtain ⟨hmem, hname⟩ := List.mem_filter.mp he
    obtain ⟨model, hmodel, field, hfield, hrelation, hside, -⟩ := mem_namedEnds.mp hmem
    exact ⟨model, hmodel, field, hfield, of_decide_eq_true hname ▸ hrelation, hside⟩

theorem keyless_iff : Keyless models name ↔
    ∀ e ∈ (namedEnds models).filter (fun e => e.relation = name), e.keyed = false := by
  constructor
  · intro h e he
    obtain ⟨hmem, hname⟩ := List.mem_filter.mp he
    obtain ⟨model, hmodel, field, hfield, hrelation, -, hkeyed⟩ := mem_namedEnds.mp hmem
    obtain ⟨hfrom, hto⟩ := h model hmodel field hfield (of_decide_eq_true hname ▸ hrelation)
    rw [hkeyed, hfrom, hto]
    rfl
  · intro h model hmodel field hfield hrelation
    simpa using h _ (end_of_field hmodel hfield hrelation)

/-- Two sides in order are the two sides. -/
theorem mem_orderSides {x y : Side} :
    (side = (orderSides x y).1 ∨ side = (orderSides x y).2) ↔ side = x ∨ side = y := by
  rcases orderSides_eq x y with h | h <;> rw [h]
  exact or_comm

/-! ## Declared joins -/

/-- A name finds what its ends make. -/
theorem get?_eq_ofEnds? (models : List Model) (name : String) :
    (ofModels models).get? name = ofEnds? (namedEnds models) name := by
  refine Option.ext fun join => ?_
  rw [get?_ofModels, mem_ofModels]
  constructor
  · rintro ⟨hjoin, rfl⟩
    exact hjoin
  · intro hjoin
    obtain rfl := name_of_ofEnds? hjoin
    exact ⟨hjoin, rfl⟩

section

variable (hmodels : (models.map (·.name)).Nodup)
  (hfields : ∀ model ∈ models, (model.fields.map (·.name)).Nodup)

include hmodels hfields

/-- The sides of a join are the fields of its name: two, without key columns. -/
theorem sides_of_get? (h : (ofModels models).get? name = some join) :
    join.links = [] ∧ join.a ≠ join.b ∧ Keyless models name ∧
      ∀ side, IsEnd models name side ↔ side = join.a ∨ side = join.b := by
  rw [get?_eq_ofEnds?] at h
  obtain ⟨x, y, hends, hx, hy, rfl⟩ := ofEnds?_eq_some.mp h
  have hapart := (pairwise_side_ne hmodels hfields).filter fun e => decide (e.relation = name)
  rw [hends, List.pairwise_pair] at hapart
  refine ⟨rfl, ?_, ?_, fun side => ?_⟩
  · rcases orderSides_eq x.side y.side with horder | horder <;> dsimp only <;> rw [horder]
    · exact hapart
    · exact hapart.symm
  · rw [keyless_iff, hends]
    rintro e he
    rcases List.mem_pair.mp he with rfl | rfl
    · exact hx
    · exact hy
  · rw [isEnd_iff, hends, List.map_cons, List.map_singleton, List.mem_pair]
    exact mem_orderSides.symm

/-- A join is declared of every name that exactly two fields have, neither with key columns. -/
theorem exists_get?_iff : (∃ join, (ofModels models).get? name = some join) ↔
    (∃ x y, x ≠ y ∧ ∀ side, IsEnd models name side ↔ side = x ∨ side = y) ∧
      Keyless models name := by
  constructor
  · rintro ⟨join, h⟩
    obtain ⟨-, hne, hkeyless, hends⟩ := sides_of_get? hmodels hfields h
    exact ⟨⟨join.a, join.b, hne, hends⟩, hkeyless⟩
  · rintro ⟨⟨x, y, hne, hends⟩, hkeyless⟩
    -- sides without repetition and with two members are two
    have hnodup : (((namedEnds models).filter fun e => e.relation = name).map (·.side)).Nodup :=
      List.pairwise_map.mpr ((pairwise_side_ne hmodels hfields).filter _)
    have hpair : [x, y].Nodup := List.pairwise_pair.mpr hne
    have hperm := (List.perm_ext_iff_of_nodup hnodup hpair).mpr fun side => by
      rw [← isEnd_iff, hends, List.mem_pair]
    have hlength := hperm.length_eq
    rw [List.length_map] at hlength
    obtain ⟨e, f, hef⟩ := List.length_eq_two.mp hlength
    rw [keyless_iff, hef] at hkeyless
    rw [get?_eq_ofEnds?]
    exact ⟨_, ofEnds?_eq_some.mpr
      ⟨e, f, hef, hkeyless e (by simp), hkeyless f (by simp), rfl⟩⟩

/-- A field has the relation name of the join that it is a side of. -/
theorem relationName_of_side (hjoin : join ∈ ofModels models) {model : Model} {field : Field}
    (hmodel : model ∈ models) (hfield : field ∈ model.relationFields)
    (hside : ⟨field.name, model.name⟩ ∈ join.sides) : field.relationName = some join.name := by
  obtain ⟨owner, howner, other, hother, hrelation, heq⟩ := field_of_side hjoin hside
  obtain ⟨hname, hmodelName⟩ := Side.mk.inj heq
  obtain rfl := List.inj_on_of_nodup_map hmodels hmodel howner hmodelName
  obtain rfl := List.inj_on_of_nodup_map (hfields model hmodel)
    (List.mem_filter.mp hfield).1 (List.mem_filter.mp hother).1 hname
  exact hrelation

/-- A declared join is found by its sides and by no other. -/
theorem ofSide?_iff (h : (ofModels models).get? name = some join) :
    (ofModels models).ofSide? side = some join ↔ side = join.a ∨ side = join.b := by
  obtain ⟨hjoin, -⟩ := get?_ofModels.mp h
  constructor
  · intro hfound
    exact List.mem_pair.mp (ofSide?_spec hfound).2
  · intro hside
    have hmem : side ∈ join.sides := List.mem_pair.mpr hside
    cases hfound : (ofModels models).ofSide? side with
    | none =>
        unfold ofSide? at hfound
        exact absurd (decide_eq_true hmem)
          (List.find?_eq_none.mp hfound join (List.mem_reverse.mpr hjoin))
    | some found =>
        obtain ⟨hother, hsides⟩ := ofSide?_spec hfound
        obtain ⟨model, hmodel, field, hfield, hrelation, rfl⟩ := field_of_side hother hsides
        have hsame := relationName_of_side hmodels hfields hjoin hmodel hfield hmem
        rw [List.inj_on_of_nodup_map (nodup_names_ofModels models) hother hjoin
          (Option.some.inj (hrelation.symm.trans hsame))]

/-- Neither end of a join leads to key columns. -/
theorem linkage_of_ofSide? {schema : Schema} (hschema : schema.models = models) {model : Model}
    {field : Field} (hmodel : model ∈ models) (hfield : field ∈ model.relationFields)
    (h : (ofModels models).ofSide? ⟨field.name, model.name⟩ = some join) :
    schema.linkage? model field = none := by
  obtain ⟨hjoin, hside⟩ := ofSide?_spec h
  have hrelation := relationName_of_side hmodels hfields hjoin hmodel hfield hside
  have howns := (side_of_field hjoin hmodel hfield hrelation).2
  unfold Schema.linkage?
  rw [howns]
  cases hother : schema.reciprocal? model field with
  | none => rfl
  | some other =>
      obtain ⟨relation, related, hname, hrelated, hmember, hsame, -⟩ :=
        Schema.reciprocal_spec hother
      -- the other end has the same relation name, so it is a side of the join too
      have hopposite := (side_of_field hjoin (hschema ▸ Schema.mem_of_relatedModel hrelated)
        hmember (hsame.trans (hname.symm.trans hrelation))).2
      simp [hopposite]

/-- **What a schema declares as joins**: a relation name has one exactly when two fields have the
    name and neither names key columns.  The order of declaration does not matter, the two fields
    are its sides and lead to it, and nothing else does.  A field that leads to a join is not
    linked by key columns. -/
theorem declared_joins :
    (∀ name, (∃ join, (ofModels models).get? name = some join) ↔
      (∃ x y, x ≠ y ∧ ∀ side, IsEnd models name side ↔ side = x ∨ side = y) ∧
        Keyless models name) ∧
    (∀ others, Reordered models others → ofModels others = ofModels models) ∧
    (∀ name join, (ofModels models).get? name = some join → join.links = [] ∧
      (∀ side, IsEnd models name side ↔ side = join.a ∨ side = join.b) ∧
      ∀ side, (ofModels models).ofSide? side = some join ↔ side = join.a ∨ side = join.b) ∧
    ∀ schema : Schema, schema.models = models → ∀ model ∈ models,
      ∀ field ∈ model.relationFields, ∀ join,
        (ofModels models).ofSide? ⟨field.name, model.name⟩ = some join →
          schema.linkage? model field = none := by
  refine ⟨fun name => exists_get?_iff hmodels hfields, fun others => ofModels_of_reordered,
    fun name join h => ?_, fun schema hschema model hmodel field hfield join h =>
      linkage_of_ofSide? hmodels hfields hschema hmodel hfield h⟩
  obtain ⟨hlinks, -, -, hends⟩ := sides_of_get? hmodels hfields h
  exact ⟨hlinks, hends, fun side => ofSide?_iff hmodels hfields h⟩

end

end Joins

/-! People follow each other, and write pieces that others like: two relations of one pair of
models, one of them kept in key columns. -/

namespace Salon

def liked : Field :=
  { name := "liked", kind := .relation, typeName := "Piece", isList := true
    relationName := some "Likes" }

def person : Model :=
  { name := "Person"
    fields := [
      { name := "id", kind := .scalar, typeName := "Int", isId := true },
      { name := "follows", kind := .relation, typeName := "Person", isList := true,
        relationName := some "Following" },
      { name := "followers", kind := .relation, typeName := "Person", isList := true,
        relationName := some "Following" },
      { name := "pieces", kind := .relation, typeName := "Piece", isList := true,
        relationName := some "Authors" },
      liked] }

def author : Field :=
  { name := "author", kind := .relation, typeName := "Person", relationName := some "Authors"
    fromFields := ["authorId"], toFields := ["id"] }

def piece : Model :=
  { name := "Piece"
    fields := [
      { name := "id", kind := .scalar, typeName := "Int", isId := true },
      { name := "authorId", kind := .scalar, typeName := "Int" },
      author,
      { name := "likedBy", kind := .relation, typeName := "Person", isList := true,
        relationName := some "Likes" }] }

def models : List Model := [person, piece]

def schema : Schema := ⟨{}, models, by decide, by decide⟩

/-- The same models in the other order, the fields of pieces in reverse. -/
def shuffled : List Model := [{ piece with fields := piece.fields.reverse }, person]

theorem reordered : Reordered models shuffled :=
  ⟨[person, { piece with fields := piece.fields.reverse }],
    .cons ⟨rfl, .refl _⟩ (.cons ⟨rfl, (List.reverse_perm _).symm⟩ .nil), .swap _ _ _⟩

/-- Following is a join, in whatever order the models come, and authorship is not.  Likes are not
    looked up by key columns. -/
theorem joins_of_salon :
    (models.map (·.name)).Nodup ∧ (∀ model ∈ models, (model.fields.map (·.name)).Nodup) ∧
      Joins.ofModels shuffled = Joins.ofModels models ∧
      (∀ side, Joins.IsEnd models "Following" side ↔
        side = ⟨"followers", "Person"⟩ ∨ side = ⟨"follows", "Person"⟩) ∧
      (¬ ∃ join, (Joins.ofModels models).get? "Authors" = some join) ∧
      schema.linkage? person liked = none := by
  have hmodels : (models.map (·.name)).Nodup := by decide
  have hfields : ∀ model ∈ models, (model.fields.map (·.name)).Nodup := by decide
  obtain ⟨hdeclared, hreordered, hsides, hlinkage⟩ := Joins.declared_joins hmodels hfields
  refine ⟨hmodels, hfields, hreordered shuffled reordered, ?_, ?_, ?_⟩
  · exact (hsides "Following" _ rfl).2.1
  · rw [hdeclared]
    rintro ⟨-, hkeyless⟩
    have hmem : author ∈ piece.relationFields := .head _
    cases (hkeyless piece (.tail _ (.head _)) author hmem rfl).1
  · have hmem : liked ∈ person.relationFields := .tail _ (.tail _ (.tail _ (.head _)))
    exact hlinkage schema rfl person (.head _) liked hmem
      ⟨"Likes", ⟨"liked", "Person"⟩, ⟨"likedBy", "Piece"⟩, []⟩ rfl

end Salon

end RecordStore
