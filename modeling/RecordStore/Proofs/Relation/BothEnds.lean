import RecordStore.Proofs.Relation.Linked

/-!
# Relations from both ends

A relation can be read from either of its fields.  The two readings take different ways: one end
compares its key columns with those of the stored records and the other end the reverse, or both
look into one join, each from its own side.  They agree on which records are linked.
-/

namespace RecordStore

/-- The key columns of a field and the columns that they refer to: as many of the one as of the
    other, each named once and plain, and two that belong together of one declared type. -/
structure Field.PlainKey (field : Field) (model related : Model) : Prop where
  paired : field.fromFields.length = field.toFields.length
  distinct : field.fromFields.Nodup
  referredDistinct : field.toFields.Nodup
  plain : ∀ column ∈ field.fromFields, model.IsPlain column
  referredPlain : ∀ column ∈ field.toFields, related.IsPlain column
  typed : ∀ pair ∈ field.fromFields.zip field.toFields,
    (model.field? pair.1).map (·.typeName) = (related.field? pair.2).map (·.typeName)

/-- A record and a target hold null or a single value in each key column of a field, and in each
    column that these refer to. -/
def Field.HoldsScalars (field : Field) (record target : Record) : Prop :=
  (∀ column ∈ field.fromFields, (Record.valueAt column record).isScalar = true) ∧
    ∀ column ∈ field.toFields, (Record.valueAt column target).isScalar = true

namespace Schema

/-- Two fields are the ends of one relation: each is the reciprocal of the other, and not both
    keep key columns. -/
structure Ends (schema : Schema) (model : Model) (field : Field) (related : Model)
    (other : Field) : Prop where
  member : model ∈ schema.models
  target : schema.relatedModel field = .ok related
  forth : schema.reciprocal? model field = some other
  back : schema.reciprocal? related other = some field
  single : ¬ (field.ownsForeignKey = true ∧ other.ownsForeignKey = true)

namespace Ends

variable {schema : Schema} {model related : Model} {field other : Field}

/-- The other field refers to the model of the first one, and the first is one of its fields. -/
theorem target_back (h : schema.Ends model field related other) :
    schema.relatedModel other = .ok model ∧ field ∈ model.relationFields := by
  obtain ⟨found, hfound, hfield, -⟩ := related_of_reciprocal h.back
  obtain ⟨_, -, -, hname⟩ := related_of_reciprocal h.forth
  have hmodel : found = model := by
    obtain ⟨hmember, hfoundName⟩ := model?_spec (model?_of_relatedModel hfound)
    exact eq_of_name_eq hmember h.member (hfoundName.trans hname)
  exact ⟨hmodel ▸ hfound, hmodel ▸ hfield⟩

theorem symm (h : schema.Ends model field related other) :
    schema.Ends related other model field where
  member := mem_of_relatedModel h.target
  target := h.target_back.1
  forth := h.back
  back := h.forth
  single := fun hboth => h.single hboth.symm

/-- If the one end keeps the key columns, the other end compares the same columns the other way. -/
theorem linkage_of_owns (h : schema.Ends model field related other)
    (howns : field.ownsForeignKey = true) :
    schema.linkage? model field = some ⟨field.fromFields, field.toFields, true⟩ ∧
      schema.linkage? related other = some ⟨field.toFields, field.fromFields, false⟩ := by
  have hother : ¬ other.ownsForeignKey = true := fun hother => h.single ⟨howns, hother⟩
  unfold linkage?
  rw [if_pos howns, if_neg hother, h.back]
  exact ⟨rfl, if_pos howns⟩

/-- Without key columns at either end there is no linkage. -/
theorem linkage_of_not_owns (h : schema.Ends model field related other)
    (hfield : ¬ field.ownsForeignKey = true) (hother : ¬ other.ownsForeignKey = true) :
    schema.linkage? model field = none := by
  unfold linkage?
  rw [if_neg hfield, h.forth]
  exact if_neg hother

end Ends

end Schema

namespace Join

variable {join : Join} {model related : String} {id target : Value}

/-- A counterpart is the other id of some link, on a side that the model has. -/
theorem mem_seenFrom : target ∈ join.seenFrom model id ↔ ∃ link ∈ join.links,
    (join.a.model = model ∧ link.a = id ∧ link.b = target) ∨
      (join.b.model = model ∧ link.b = id ∧ link.a = target) := by
  have hmem {p : Prop} [Decidable p] {x : Value} :
      target ∈ (if p then [x] else []) ↔ p ∧ x = target := by
    by_cases h : p
    · rw [if_pos h, List.mem_singleton]
      exact ⟨fun heq => ⟨h, heq.symm⟩, fun heq => heq.2.symm⟩
    · rw [if_neg h]
      exact ⟨(nomatch ·), fun hp => absurd hp.1 h⟩
  unfold seenFrom Link.seenFrom
  simp only [List.mem_flatMap, List.mem_append, hmem, and_assoc]

/-- Two records of the models of the sides see each other, or neither sees the other. -/
theorem mem_seenFrom_comm (hsides : (join.a.model = model ∧ join.b.model = related) ∨
    (join.a.model = related ∧ join.b.model = model)) :
    target ∈ join.seenFrom model id ↔ id ∈ join.seenFrom related target := by
  rw [mem_seenFrom, mem_seenFrom]
  refine exists_congr fun link => and_congr_right fun _ => ?_
  -- in a join of one model with itself each of the two sees the other on either side
  rcases hsides with ⟨ha, hb⟩ | ⟨ha, hb⟩ <;> rw [ha, hb] <;>
    exact ⟨fun h => h.elim (fun h => by simp [h]) fun h => by simp [h],
      fun h => h.elim (fun h => by simp [h]) fun h => by simp [h]⟩

end Join

namespace Store

variable {store : Store} {model related : Model} {field other : Field} {a b : Record}

/-- A record is linked to the one that its own key columns refer to if and only if that one has it
    among its dependents. -/
theorem mem_related_comm_of_owns (hends : store.schema.Ends model field related other)
    (howns : field.ownsForeignKey = true) (hkey : field.PlainKey model related)
    (hscalar : field.HoldsScalars a b) (ha : a ∈ store.items model.name)
    (hb : b ∈ store.items related.name) :
    b ∈ store.related model field a ↔ a ∈ store.related related other b := by
  obtain ⟨hforth, hback⟩ := hends.linkage_of_owns howns
  have hswap {column referred : String} : (referred, column) ∈ field.toFields.zip field.fromFields ↔
      (column, referred) ∈ field.fromFields.zip field.toFields := by
    rw [← List.zip_swap, List.mem_map]
    constructor
    · rintro ⟨pair, hpair, heq⟩
      obtain rfl : pair = (column, referred) := Prod.swap_injective heq
      exact hpair
    · exact fun hpair => ⟨_, hpair, rfl⟩
  rw [mem_related_of_linkage hends.target hforth
      (by rw [Linkage.columns, List.map_snd_zip hkey.paired.ge]; exact hkey.referredDistinct)
      (fun pair hpair => hkey.referredPlain _ (List.of_mem_zip hpair).2)
      (fun pair hpair => hscalar.1 _ (List.of_mem_zip hpair).1),
    mem_related_of_linkage hends.target_back.1 hback
      (by rw [Linkage.columns, List.map_snd_zip hkey.paired.le]; exact hkey.distinct)
      (fun pair hpair => hkey.plain _ (List.of_mem_zip hpair).2)
      (fun pair hpair => hscalar.2 _ (List.of_mem_zip hpair).1),
    and_iff_right hb, and_iff_right ha]
  -- column by column the two comparisons differ only in their direction
  have hequals {column referred : String}
      (hpair : (column, referred) ∈ field.fromFields.zip field.toFields) :
      Value.equals (related.readingOf referred) (Record.valueAt referred b)
          (Record.valueAt column a) =
        Value.equals (model.readingOf column) (Record.valueAt column a)
          (Record.valueAt referred b) := by
    unfold Model.readingOf
    rw [hkey.typed (column, referred) hpair, Value.equals_comm]
  constructor
  · rintro h ⟨referred, column⟩ hpair
    obtain ⟨hcolumn, hreferred, hequal⟩ := h (column, referred) (hswap.mp hpair)
    exact ⟨hreferred, hcolumn, hequals (hswap.mp hpair) ▸ hequal⟩
  · rintro h ⟨column, referred⟩ hpair
    obtain ⟨hreferred, hcolumn, hequal⟩ := h (referred, column) (hswap.mpr hpair)
    exact ⟨hcolumn, hreferred, (hequals hpair).symm ▸ hequal⟩

/-- Two records are linked by a join if and only if each is linked to the other. -/
theorem mem_related_comm_of_join (hends : store.schema.Ends model field related other)
    (hfield : ¬ field.ownsForeignKey = true) (hother : ¬ other.ownsForeignKey = true)
    (hjoins : store.JoinsDeclared)
    (hids : ∀ join ∈ store.joins, field.relationName = some join.name →
      (model.recordId a).isId = true ∧ (related.recordId b).isId = true ∧
        ∀ link ∈ join.links, link.a.isId = true ∧ link.b.isId = true)
    (ha : a ∈ store.items model.name) (hb : b ∈ store.items related.name) :
    b ∈ store.related model field a ↔ a ∈ store.related related other b := by
  have hforth := hends.linkage_of_not_owns hfield hother
  have hback := hends.symm.linkage_of_not_owns hother hfield
  obtain ⟨relation, found, hrelation, hfound, -, hsame, -⟩ := Schema.reciprocal_spec hends.forth
  cases hjoin : store.joins.get? relation with
  | none =>
      rw [related_of_get?_eq_none hends.target hforth hrelation hjoin,
        related_of_get?_eq_none hends.target_back.1 hback hsame hjoin]
      exact ⟨(nomatch ·), (nomatch ·)⟩
  | some join =>
      obtain ⟨hmem, rfl⟩ := Joins.get?_spec hjoin
      obtain ⟨haId, hbId, hlinks⟩ := hids join hmem hrelation
      have hsides := Schema.sides_of_reciprocal hends.member hends.target_back.2 hends.forth
        hends.target (hjoins.mem hmem) hrelation
      rw [mem_related_of_join hends.target hforth hrelation hjoin hlinks haId hbId,
        mem_related_of_join hends.target_back.1 hback hsame hjoin hlinks hbId haId,
        and_iff_right hb, and_iff_right ha]
      refine Join.mem_seenFrom_comm ?_
      rcases hsides with ⟨hsa, hsb⟩ | ⟨hsa, hsb⟩
      · exact Or.inl ⟨congrArg Side.model hsa, congrArg Side.model hsb⟩
      · exact Or.inr ⟨congrArg Side.model hsa, congrArg Side.model hsb⟩

/-- A relation links the same records whichever of its ends it is read from. -/
theorem mem_related_comm (hends : store.schema.Ends model field related other)
    (hjoins : store.JoinsDeclared)
    (hfield : field.ownsForeignKey = true →
      field.PlainKey model related ∧ field.HoldsScalars a b)
    (hother : other.ownsForeignKey = true →
      other.PlainKey related model ∧ other.HoldsScalars b a)
    (hids : ∀ join ∈ store.joins, field.relationName = some join.name →
      (model.recordId a).isId = true ∧ (related.recordId b).isId = true ∧
        ∀ link ∈ join.links, link.a.isId = true ∧ link.b.isId = true)
    (ha : a ∈ store.items model.name) (hb : b ∈ store.items related.name) :
    b ∈ store.related model field a ↔ a ∈ store.related related other b := by
  by_cases howns : field.ownsForeignKey = true
  · obtain ⟨hkey, hscalar⟩ := hfield howns
    exact mem_related_comm_of_owns hends howns hkey hscalar ha hb
  · by_cases howns' : other.ownsForeignKey = true
    · obtain ⟨hkey, hscalar⟩ := hother howns'
      exact (mem_related_comm_of_owns hends.symm howns' hkey hscalar hb ha).symm
    · exact mem_related_comm_of_join hends howns howns' hjoins hids ha hb

end Store

namespace Library

open Store

def authorField : Field :=
  { name := "author", kind := .relation, typeName := "Author", relationName := some "writes",
    fromFields := ["authorId"], toFields := ["id"] }

def writtenField : Field :=
  { name := "books", kind := .relation, typeName := "Book", isList := true,
    relationName := some "writes" }

def tagsField : Field :=
  { name := "tags", kind := .relation, typeName := "Tag", isList := true,
    relationName := some "labels" }

def taggedField : Field :=
  { name := "books", kind := .relation, typeName := "Book", isList := true,
    relationName := some "labels" }

def author : Model where
  name := "Author"
  fields := [{ name := "id", kind := .scalar, typeName := "Int", isId := true }, writtenField]

def book : Model where
  name := "Book"
  fields := [{ name := "id", kind := .scalar, typeName := "Int", isId := true },
    { name := "authorId", kind := .scalar, typeName := "Int" }, authorField, tagsField]

def tag : Model where
  name := "Tag"
  fields := [{ name := "id", kind := .scalar, typeName := "String", isId := true }, taggedField]

/-- Books refer to their authors by a column, and are joined with tags. -/
def schema : Schema where
  options := {}
  models := [author, book, tag]
  nodup_names := by decide
  targets_known := by decide

def firstAuthor : Record := [("id", .integer 1)]

def firstBook : Record := [("id", .integer 7), ("authorId", .integer 1)]

def firstTag : Record := [("id", .string "t")]

/-- A book with its author and its tag. -/
def shelf : Store :=
  { ofSchema schema 0 ⟨0⟩ with
    collections := [("Author", [firstAuthor]), ("Book", [firstBook]), ("Tag", [firstTag])]
    joins := [⟨"labels", ⟨"books", "Tag"⟩, ⟨"tags", "Book"⟩, [⟨.string "t", .integer 7⟩]⟩] }

theorem ends_writes : schema.Ends book authorField author writtenField :=
  ⟨.tail _ (.head _), rfl, rfl, rfl, by decide⟩

theorem ends_labels : schema.Ends book tagsField tag taggedField :=
  ⟨.tail _ (.head _), rfl, rfl, rfl, by decide⟩

/-- The author has the book among those written, and the tag among those labelled. -/
theorem related_shelf : shelf.related book authorField firstBook = [firstAuthor] ∧
    shelf.related book tagsField firstBook = [firstTag] ∧
    firstBook ∈ shelf.related author writtenField firstAuthor ∧
    firstBook ∈ shelf.related tag taggedField firstTag := by
  have hauthor : shelf.related book authorField firstBook = [firstAuthor] := rfl
  have htag : shelf.related book tagsField firstBook = [firstTag] := rfl
  have hbook : firstBook ∈ shelf.items book.name := List.mem_singleton_self _
  have hjoins : shelf.JoinsDeclared := rfl
  refine ⟨hauthor, htag, ?_, ?_⟩
  · refine (mem_related_comm ends_writes hjoins (fun _ => ⟨⟨rfl, by decide, by decide, ?_, ?_,
      by decide⟩, by decide, by decide⟩) (nomatch ·) (by decide) hbook
      (List.mem_singleton_self _)).mp (hauthor ▸ List.mem_singleton_self _)
    · exact List.forall_mem_singleton.mpr ⟨rfl, _, rfl, rfl, rfl⟩
    · exact List.forall_mem_singleton.mpr ⟨rfl, _, rfl, rfl, rfl⟩
  · exact (mem_related_comm ends_labels hjoins (nomatch ·) (nomatch ·) (by decide) hbook
      (List.mem_singleton_self _)).mp (htag ▸ List.mem_singleton_self _)

end Library

end RecordStore
