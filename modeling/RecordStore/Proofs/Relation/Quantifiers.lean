import RecordStore.Proofs.Query.Faults
import RecordStore.Proofs.Relation.ShortCut

/-!
# Quantifiers over linked records

The quantifiers of a relation are dual to each other: what `none` says is what `some` denies, what
`every` says of a filter is what `none` says of its negation, and over at most one linked record
`isNot` denies `is`.  This is so for every way to link records, also where the links of a join
decide `some` and `none` by ids without looking at the records, for they decide both or neither.

A relation whose name is a word of filters cannot be asked about: its quantifiers are read as
filters on the record itself.  A related model whose id has the name `NOT` makes a negation look
like a question for an id.
-/

namespace RecordStore

namespace Joins

variable {joins : Joins} {side : Side} {id operand : Value} {idField quantifier : String}

/-- Links decide nothing but `some` and `none`, of filters by id alone. -/
theorem decide?_eq_none
    (h : ∀ target, wantedId? idField operand = some target →
      quantifier ≠ "some" ∧ quantifier ≠ "none") :
    joins.decide? side id idField (.object [(quantifier, operand)]) = none := by
  cases hdecided : joins.decide? side id idField (.object [(quantifier, operand)]) with
  | none => rfl
  | some verdict =>
      obtain ⟨_, conditions, wanted, _, hconditions, hwanted, _⟩ := decide?_spec hdecided
      obtain rfl := Value.object.inj hconditions
      obtain ⟨_, target, _, _, htarget, _, hquantifier⟩ := wantedIds?_cons_spec hwanted
      obtain ⟨hsome, hnone⟩ := h target htarget
      rcases hquantifier with ⟨heq, -⟩ | ⟨heq, -⟩
      · exact absurd heq hsome
      · exact absurd heq hnone

/-- Links that decide `some` decide `none` the other way. -/
theorem decide?_none_eq (joins : Joins) (side : Side) (id : Value) (idField : String)
    (operand : Value) :
    joins.decide? side id idField (.object [("none", operand)]) =
      (joins.decide? side id idField (.object [("some", operand)])).map not := by
  unfold decide?
  cases joins.ofSide? side with
  | none => rfl
  | some join =>
      cases hwanted : wantedId? idField operand <;> simp [wantedIds?, hwanted, Value.object?]

end Joins

namespace Filter

variable {store : Store} {links : Links} {model related : Model} {field : Field} {record : Record}
  {name quantifier : String} {operand : Value}

/-- The words of filters, which are no names of relations there. -/
def isReserved (name : String) : Bool := (Connective.ofName? name).isSome || name = "is"

/-- A condition of one quantifier is decided by the links of a join, or else asks the linked
    records. -/
theorem satisfies_quantifier (hname : isReserved name = false)
    (hfield : model.relation? name = some field)
    (hrelated : store.schema.model? field.typeName = some related)
    (hquantifier : (Quantifier.ofName? quantifier).isSome = true) :
    satisfies store links model record [(name, .object [(quantifier, operand)])] =
      (decided? store model record field related (.object [(quantifier, operand)])).getD
        (quantified store links related (links model field record) [(quantifier, operand)]) := by
  obtain ⟨hconnective, his⟩ := Bool.or_eq_false_iff.mp hname
  rw [Option.isSome_eq_false_iff, Option.isNone_iff_eq_none] at hconnective
  have hoperators : isOperatorObject Quantifier.ofName? [(quantifier, operand)] = true :=
    Bool.and_eq_true_iff.mpr ⟨rfl, List.all_eq_true.mpr (List.forall_mem_singleton.mpr hquantifier)⟩
  rw [satisfies_singleton, satisfiesKey, hconnective]
  simp only [if_neg (of_decide_eq_false his), hfield, hrelated, hoperators, if_true]
  cases decided? store model record field related (.object [(quantifier, operand)]) <;> rfl

/-- What links do not decide by ids alone is asked of the linked records. -/
theorem decided?_eq_none
    (h : ∀ idField target, related.idFields = [idField] →
      Joins.wantedId? idField operand = some target → quantifier ≠ "some" ∧ quantifier ≠ "none") :
    decided? store model record field related (.object [(quantifier, operand)]) = none := by
  unfold decided?
  split
  · rename_i idField hid
    dsimp only
    split
    · rfl
    · exact Joins.decide?_eq_none fun target htarget => h idField target hid htarget
  · rfl

/-- Links that decide `some` decide `none` the other way. -/
theorem decided?_none_eq (store : Store) (model : Model) (record : Record) (field : Field)
    (related : Model) (operand : Value) :
    decided? store model record field related (.object [("none", operand)]) =
      (decided? store model record field related (.object [("some", operand)])).map not := by
  unfold decided?
  split
  · dsimp only
    split
    · rfl
    · exact Joins.decide?_none_eq _ _ _ _ _
  · rfl

theorem quantified_filter {linked : List Record} {filter : Record} {asked : Quantifier}
    (hasked : Quantifier.ofName? quantifier = some asked) :
    quantified store links related linked [(quantifier, .object filter)] =
      asked.holds linked fun other => satisfies store links related other filter := by
  rw [quantified, quantified, hasked, Bool.and_true]
  rfl

theorem quantified_null {linked : List Record} {asked : Quantifier}
    (hasked : Quantifier.ofName? quantifier = some asked) :
    quantified store links related linked [(quantifier, .null)] = asked.holdsNull linked := by
  rw [quantified, quantified, hasked, Bool.and_true]
  rfl

/-- `NOT` denies a filter. -/
theorem satisfies_not (filter : Record) :
    satisfies store links model record [("NOT", .object filter)] =
      !satisfies store links model record filter := by
  rw [satisfies_singleton, satisfiesKey]
  show (!([satisfies store links model record filter] : List Bool).any id) = _
  rw [List.any_cons, List.any_nil, Bool.or_false, id_eq]

end Filter

/-! ## Duality -/

/-- The records that a relation of a loaded schema links to have a model. -/
theorem Schema.exists_target {schema : Schema} {model : Model} {field : Field} {name : String}
    (hmodel : model ∈ schema.models) (hfield : model.relation? name = some field) :
    ∃ related, schema.model? field.typeName = some related := by
  obtain ⟨hfound, hrelation⟩ := Option.filter_eq_some_iff.mp hfield
  have hmember : field ∈ model.relationFields :=
    List.mem_filter.mpr ⟨List.mem_reverse.mp (List.mem_of_find?_eq_some hfound), hrelation⟩
  obtain ⟨related, -, hrelated⟩ := exists_relatedModel hmodel hmember
  exact ⟨related, model?_of_relatedModel hrelated⟩

namespace Store

variable {store : Store} {model related : Model} {field : Field} {record filter : Record}
  {name : String}

/-- Whether a record satisfies a condition of one quantifier on a relation. -/
def asks (store : Store) (model : Model) (record : Record) (name quantifier : String)
    (operand : Value) : Bool :=
  store.satisfies model record [(name, .object [(quantifier, operand)])]

section Dual

variable (hname : Filter.isReserved name = false) (hfield : model.relation? name = some field)
  (hrelated : store.schema.model? field.typeName = some related)
include hname hfield hrelated

/-- A quantifier that asks more than ids asks the linked records. -/
theorem asks_eq_quantified {quantifier : String} {operand : Value}
    (hquantifier : (Quantifier.ofName? quantifier).isSome = true)
    (hopen : ∀ idField target, related.idFields = [idField] →
      Joins.wantedId? idField operand = some target → quantifier ≠ "some" ∧ quantifier ≠ "none") :
    store.asks model record name quantifier operand =
      Filter.quantified store store.related related (store.related model field record)
        [(quantifier, operand)] := by
  rw [asks, Store.satisfies, Filter.satisfies_quantifier hname hfield hrelated hquantifier,
    Filter.decided?_eq_none hopen, Option.getD_none]

/-- `none` denies `some`, whether the links of a join decide them or the linked records do. -/
theorem asks_none :
    store.asks model record name "none" (.object filter) =
      !store.asks model record name "some" (.object filter) := by
  rw [asks, asks, Store.satisfies, Store.satisfies,
    Filter.satisfies_quantifier hname hfield hrelated rfl,
    Filter.satisfies_quantifier hname hfield hrelated rfl, Filter.decided?_none_eq,
    Filter.quantified_filter rfl, Filter.quantified_filter rfl]
  cases Filter.decided? store model record field related (.object [("some", .object filter)]) <;>
    rfl

/-- `every` says of a filter what `none` says of its negation. -/
theorem asks_every (hid : related.idFields ≠ ["NOT"]) :
    store.asks model record name "every" (.object filter) =
      store.asks model record name "none" (.object [("NOT", .object filter)]) := by
  rw [asks_eq_quantified hname hfield hrelated rfl fun _ _ _ _ => by decide,
    asks_eq_quantified hname hfield hrelated rfl fun idField target hfields htarget => ?_,
    Filter.quantified_filter rfl, Filter.quantified_filter rfl]
  · simp only [Quantifier.holds, Filter.satisfies_not, List.all_eq_not_any_not]
  · -- a negation asks for an id only if that has its name
    refine absurd hfields fun heq => hid ?_
    rcases (Joins.wantedId?_spec htarget).2.2 with h | h <;> cases h <;> exact heq

/-- `is` with null says that no record is linked. -/
theorem asks_is_null :
    store.asks model record name "is" .null = (store.related model field record).isEmpty := by
  rw [asks_eq_quantified hname hfield hrelated rfl fun _ _ _ _ => by decide,
    Filter.quantified_null rfl]
  rfl

/-- `isNot` with null says that a record is linked. -/
theorem asks_isNot_null :
    store.asks model record name "isNot" .null = !(store.related model field record).isEmpty := by
  rw [asks_eq_quantified hname hfield hrelated rfl fun _ _ _ _ => by decide,
    Filter.quantified_null rfl]
  rfl

/-- `none` of the filter that all records satisfy says that no record is linked. -/
theorem asks_none_nil :
    store.asks model record name "none" (.object []) =
      (store.related model field record).isEmpty := by
  have hopen : ∀ idField target, related.idFields = [idField] →
      Joins.wantedId? idField (.object []) = some target → "none" ≠ "some" ∧ "none" ≠ "none" := by
    intro _ _ _ htarget
    rcases (Joins.wantedId?_spec htarget).2.2 with h | h <;> cases h
  rw [asks_eq_quantified hname hfield hrelated rfl hopen, Filter.quantified_filter rfl]
  cases store.related model field record <;> rfl

/-- Over at most one linked record `isNot` denies `is`. -/
theorem asks_isNot (hlinked : (store.related model field record).length ≤ 1) :
    store.asks model record name "isNot" (.object filter) =
      !store.asks model record name "is" (.object filter) := by
  rw [asks_eq_quantified hname hfield hrelated rfl fun _ _ _ _ => by decide,
    asks_eq_quantified hname hfield hrelated rfl fun _ _ _ _ => by decide,
    Filter.quantified_filter rfl, Filter.quantified_filter rfl]
  revert hlinked
  rcases store.related model field record with _ | ⟨first, _ | ⟨second, rest⟩⟩
  · exact fun _ => rfl
  · exact fun _ => by simp [Quantifier.holds]
  · exact fun hlinked => absurd hlinked (by simp)

end Dual

/-- **Quantifiers over linked records are dual.**  Of the quantifiers on a relation `none` denies
    `some`, `every` says of a filter what `none` says of its negation, `is` with null says what
    `none` says of the filter that all records satisfy, and `isNot` with null denies it; where at
    most one record is linked `isNot` denies `is`.  The name of the relation is no word of filters,
    and for `every` the id of the related model has not the name `NOT`. -/
theorem quantifiers_dual (hmodel : model ∈ store.schema.models)
    (hfield : model.relation? name = some field) (hname : Filter.isReserved name = false)
    (record filter : Record) :
    store.asks model record name "none" (.object filter) =
        !store.asks model record name "some" (.object filter) ∧
      ((∀ related, store.schema.model? field.typeName = some related →
          related.idFields ≠ ["NOT"]) →
        store.asks model record name "every" (.object filter) =
          store.asks model record name "none" (.object [("NOT", .object filter)])) ∧
      store.asks model record name "is" .null =
        store.asks model record name "none" (.object []) ∧
      store.asks model record name "is" .null = !store.asks model record name "isNot" .null ∧
      ((store.related model field record).length ≤ 1 →
        store.asks model record name "isNot" (.object filter) =
          !store.asks model record name "is" (.object filter)) := by
  obtain ⟨related, hrelated⟩ := Schema.exists_target hmodel hfield
  have hempty : store.asks model record name "is" .null =
      (store.related model field record).isEmpty := asks_is_null hname hfield hrelated
  refine ⟨asks_none hname hfield hrelated,
    fun hid => asks_every hname hfield hrelated (hid related hrelated), ?_, ?_,
    asks_isNot hname hfield hrelated⟩
  · rw [hempty, asks_none_nil hname hfield hrelated]
  · rw [hempty, asks_isNot_null hname hfield hrelated, Bool.not_not]

end Store

namespace Library

open Store

/-- Whether the book has the tag is decided by its id, and it has no other. -/
theorem asks_tags :
    book ∈ shelf.schema.models ∧ book.relation? "tags" = some tagsField ∧
      Filter.isReserved "tags" = false ∧ tag.idFields ≠ ["NOT"] ∧
      (shelf.related book tagsField firstBook).length ≤ 1 ∧
      Filter.decided? shelf book firstBook tagsField tag
        (.object [("some", .object [("id", .string "t")])]) = some true ∧
      shelf.asks book firstBook "tags" "none" (.object [("id", .string "t")]) = false ∧
      shelf.asks book firstBook "tags" "none" (.object [("NOT", .object [("id", .string "t")])]) =
        true ∧
      shelf.asks book firstBook "tags" "none" (.object []) = false ∧
      shelf.asks book firstBook "tags" "isNot" .null = true ∧
      shelf.asks book firstBook "tags" "isNot" (.object [("id", .string "t")]) = false := by
  have hmodel : book ∈ shelf.schema.models := .tail _ (.head _)
  have hfield : book.relation? "tags" = some tagsField := rfl
  have hname : Filter.isReserved "tags" = false := by decide
  have hid : tag.idFields ≠ ["NOT"] := by decide
  have hlinked : (shelf.related book tagsField firstBook).length ≤ 1 := by decide
  have hsome : shelf.asks book firstBook "tags" "some" (.object [("id", .string "t")]) = true :=
    by decide
  have hevery : shelf.asks book firstBook "tags" "every" (.object [("id", .string "t")]) = true :=
    by decide
  have hnull : shelf.asks book firstBook "tags" "is" .null = false := by decide
  have his : shelf.asks book firstBook "tags" "is" (.object [("id", .string "t")]) = true := by
    decide
  obtain ⟨hnone, hnot, hnil, hisNot, hsingle⟩ :=
    quantifiers_dual hmodel hfield hname firstBook [("id", .string "t")]
  refine ⟨hmodel, hfield, hname, hid, hlinked, rfl, ?_, ?_, hnil.symm.trans hnull, ?_, ?_⟩
  · rw [hnone, hsome]
    rfl
  · rw [← hnot fun related hrelated => ?_, hevery]
    cases hrelated
    exact hid
  · exact Bool.not_inj (hisNot.symm.trans hnull)
  · rw [hsingle hlinked, his]
    rfl

end Library

namespace Words

open Store

/-- The labels of a post under a name. -/
def labelsField (name : String) : Field :=
  { name, kind := .relation, typeName := "Label", isList := true, relationName := some name }

/-- The posts that have a label under a name. -/
def postsField (name : String) : Field :=
  { name := "posts" ++ name, kind := .relation, typeName := "Post", isList := true,
    relationName := some name }

def post : Model where
  name := "Post"
  fields := [{ name := "id", kind := .scalar, typeName := "Int", isId := true }, labelsField "AND",
    labelsField "OR", labelsField "NOT", labelsField "is", labelsField "labels"]

/-- Labels have an id of the name `NOT`. -/
def label : Model where
  name := "Label"
  fields := [{ name := "NOT", kind := .scalar, typeName := "Int", isId := true }, postsField "AND",
    postsField "OR", postsField "NOT", postsField "is", postsField "labels"]

def schema : Schema where
  options := {}
  models := [post, label]
  nodup_names := by decide
  targets_known := by decide

def firstPost : Record := [("id", .integer 1)]

/-- A post with one label. -/
def blog : Store :=
  { ofSchema schema 0 ⟨0⟩ with
    collections := [("Post", [firstPost]), ("Label", [[("NOT", .integer 2)]])]
    joins := (Joins.ofModels schema.models).connect "labels" ⟨"labels", "Post"⟩ (.integer 1)
      (.integer 2) }

theorem joined_labels : ∀ name ∈ ["AND", "OR", "NOT", "is", "labels"],
    post.relation? name = some (labelsField name) ∧ blog.Joined post (labelsField name) label := by
  have hdeclared : blog.JoinsDeclared := rfl
  have hdistinct : (post.fields.map (·.name)).Nodup := by decide
  have hjoined (name : String) (hmember : labelsField name ∈ post.relationFields)
      (hreciprocal : (blog.schema.reciprocal? post (labelsField name)).isSome = true) :
      blog.Joined post (labelsField name) label :=
    ⟨hdeclared, .head _, hdistinct, hmember, rfl, hreciprocal⟩
  simp only [List.forall_mem_cons]
  exact ⟨⟨rfl, hjoined _ (.head _) rfl⟩, ⟨rfl, hjoined _ (.tail _ (.head _)) rfl⟩,
    ⟨rfl, hjoined _ (.tail _ (.tail _ (.head _))) rfl⟩,
    ⟨rfl, hjoined _ (.tail _ (.tail _ (.tail _ (.head _)))) rfl⟩,
    ⟨rfl, hjoined _ (.tail _ (.tail _ (.tail _ (.tail _ (.head _))))) rfl⟩, List.forall_mem_nil _⟩

/-- The quantifiers of a relation are no quantifiers where its name is a word of filters; and where
    the negation of a filter looks like an id, no label has the id although not every label
    satisfies the filter. -/
theorem asks_words :
    (∀ name ∈ ["AND", "OR", "NOT", "is", "labels"],
      post.relation? name = some (labelsField name) ∧ blog.Joined post (labelsField name) label) ∧
      (∀ name ∈ ["AND", "OR", "NOT", "is"],
        blog.asks post firstPost name "none" (.object []) ≠
          !blog.asks post firstPost name "some" (.object [])) ∧
      blog.asks post firstPost "labels" "every" (.object [("equals", .integer 1)]) ≠
        blog.asks post firstPost "labels" "none"
          (.object [("NOT", .object [("equals", .integer 1)])]) := by
  refine ⟨joined_labels, ?_, by decide⟩
  simp only [List.forall_mem_cons]
  exact ⟨by decide, by decide, by decide, by decide, List.forall_mem_nil _⟩

end Words

end RecordStore
