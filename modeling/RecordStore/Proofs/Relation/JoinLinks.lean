import RecordStore.Proofs.Relation.BothEnds
import RecordStore.Proofs.Relation.Linking
import RecordStore.Proofs.Relation.ShortCut

/-!
# Links in a join

A join lists directed pairs, and a record sees the counterparts in the pairs that it is in.  Linking
adds one pair and parting removes it, in both directions if the sides of the join belong to one
model; for what the record sees that is one id more, or one less.
-/

namespace RecordStore

/-- Both ends of a link are atoms. -/
def Link.IsAtomic (link : Link) : Prop := link.a.isAtom = true ∧ link.b.isAtom = true

instance (link : Link) : Decidable link.IsAtomic := inferInstanceAs (Decidable (_ ∧ _))

theorem Link.IsAtomic.isId {link : Link} (h : link.IsAtomic) :
    link.a.isId = true ∧ link.b.isId = true :=
  ⟨Value.isId_of_isAtom h.1, Value.isId_of_isAtom h.2⟩

namespace Join

variable {join : Join} {side : Side} {id target x : Value} {new gone link : Link}

/-- An oriented link tells which two records it is between. -/
theorem oriented_inj {id' target' : Value} :
    join.oriented side id target = join.oriented side id' target' ↔ id = id' ∧ target = target' := by
  unfold oriented
  split <;> rw [Link.mk.injEq]
  exact and_comm

theorem isAtomic_oriented (hid : id.isAtom = true) (htarget : target.isAtom = true) :
    (join.oriented side id target).IsAtomic := by
  unfold oriented
  split
  · exact ⟨hid, htarget⟩
  · exact ⟨htarget, hid⟩

/-- As seen from a side, a record sees another one through the link from it to the other, and through
    the link back if the sides belong to one model. -/
theorem mem_seenFrom_side (hside : side ∈ join.sides) :
    x ∈ join.seenFrom side.model id ↔ join.oriented side id x ∈ join.links ∨
      join.isSymmetric = true ∧ join.oriented side x id ∈ join.links := by
  have hlink (link : Link) (a b : Value) : link = ⟨a, b⟩ ↔ link.a = a ∧ link.b = b := by
    cases link
    exact Link.mk.injEq _ _ _ _ ▸ Iff.rfl
  have hsymmetric : join.isSymmetric = true ↔ join.a.model = join.b.model := decide_eq_true_iff
  have hshows (link : Link) :
      ((join.a.model = side.model ∧ link.a = id ∧ link.b = x) ∨
        (join.b.model = side.model ∧ link.b = id ∧ link.a = x)) ↔
      link = join.oriented side id x ∨
        join.isSymmetric = true ∧ link = join.oriented side x id := by
    rw [hsymmetric]
    unfold oriented
    by_cases ha : join.a = side
    · have hmodels : side.model = join.b.model ↔ join.b.model = side.model := eq_comm
      rw [if_pos ha, if_pos ha, hlink, hlink, ha, hmodels]
      simp only [true_and, and_comm (a := link.b = id)]
    · have hb : join.b = side :=
        ((List.mem_pair.mp hside).resolve_left fun heq => ha heq.symm).symm
      rw [if_neg ha, if_neg ha, hlink, hlink, hb, or_comm]
      simp only [true_and, and_comm (a := link.b = id)]
  rw [mem_seenFrom]
  simp only [hshows]
  constructor
  · rintro ⟨link, hlink, rfl | ⟨hsym, rfl⟩⟩
    · exact Or.inl hlink
    · exact Or.inr ⟨hsym, hlink⟩
  · rintro (hlink | ⟨hsym, hlink⟩)
    · exact ⟨_, hlink, Or.inl rfl⟩
    · exact ⟨_, hlink, Or.inr ⟨hsym, rfl⟩⟩

/-- A join has one more link. -/
theorem mem_links_link (hlinks : ∀ link ∈ join.links, link.IsAtomic) (hnew : new.IsAtomic) :
    link ∈ (join.link new).links ↔ link ∈ join.links ∨ link = new := by
  unfold Join.link
  split
  · rename_i hthere
    -- the link is there already
    obtain ⟨old, hold, hsame⟩ := List.any_eq_true.mp hthere
    obtain rfl := (Link.same_iff (hlinks old hold).isId hnew.isId).mp hsame
    exact (or_iff_left_of_imp fun heq => heq ▸ hold).symm
  · exact List.mem_append.trans (or_congr_right List.mem_singleton)

/-- A join has one link less. -/
theorem mem_links_unlink (hlinks : ∀ link ∈ join.links, link.IsAtomic) (hgone : gone.IsAtomic) :
    link ∈ (join.unlink gone).links ↔ link ∈ join.links ∧ link ≠ gone := by
  unfold Join.unlink
  rw [List.mem_filter]
  refine and_congr_right fun hmem => ?_
  rw [Bool.not_eq_true', ← Bool.not_eq_true, Link.same_iff (hlinks link hmem).isId hgone.isId]

/-- A join with a record linked to a target, as seen from a side. -/
def tie (join : Join) (side : Side) (id target : Value) : Join :=
  join.link (join.oriented side id target)

/-- A join without the links between a record and a target: in both directions if its sides belong
    to one model. -/
def part (join : Join) (side : Side) (id target : Value) : Join :=
  if join.isSymmetric then
    (join.unlink (join.oriented side id target)).unlink (join.oriented side target id)
  else join.unlink (join.oriented side id target)

/-- Ties and partings change nothing but the links. -/
theorem tie_eq (join : Join) (side : Side) (id target : Value) :
    join.tie side id target = { join with links := (join.tie side id target).links } := by
  unfold tie Join.link
  split <;> rfl

theorem part_eq (join : Join) (side : Side) (id target : Value) :
    join.part side id target = { join with links := (join.part side id target).links } := by
  unfold part
  split <;> rfl

variable (hlinks : ∀ link ∈ join.links, link.IsAtomic) (hid : id.isAtom = true)
  (htarget : target.isAtom = true)
include hlinks hid htarget

theorem isAtomic_tie : ∀ link ∈ (join.tie side id target).links, link.IsAtomic := by
  intro link hlink
  rcases (mem_links_link hlinks (isAtomic_oriented hid htarget)).mp hlink with hold | rfl
  · exact hlinks link hold
  · exact isAtomic_oriented hid htarget

theorem mem_links_part : link ∈ (join.part side id target).links ↔ link ∈ join.links ∧
    link ≠ join.oriented side id target ∧
      (join.isSymmetric = true → link ≠ join.oriented side target id) := by
  have hforth : (join.oriented side id target).IsAtomic := isAtomic_oriented hid htarget
  have hback : (join.oriented side target id).IsAtomic := isAtomic_oriented htarget hid
  have hfirst (link : Link) : link ∈ (join.unlink (join.oriented side id target)).links ↔
      link ∈ join.links ∧ link ≠ join.oriented side id target := mem_links_unlink hlinks hforth
  unfold part
  split
  · rename_i hsymmetric
    rw [mem_links_unlink (fun link hlink => hlinks link ((hfirst link).mp hlink).1) hback,
      hfirst, and_assoc]
    simp only [hsymmetric, forall_const]
  · rename_i hsymmetric
    rw [hfirst, and_congr_right_iff]
    exact fun _ => (and_iff_left fun htrue => absurd htrue hsymmetric).symm

theorem isAtomic_part : ∀ link ∈ (join.part side id target).links, link.IsAtomic :=
  fun link hlink => hlinks link ((mem_links_part hlinks hid htarget).mp hlink).1

/-- A record sees a target to which it has been linked in addition. -/
theorem mem_seenFrom_tie (hside : side ∈ join.sides) :
    x ∈ (join.tie side id target).seenFrom side.model id ↔
      x ∈ join.seenFrom side.model id ∨ x = target := by
  have hsides : side ∈ (join.tie side id target).sides := by
    rw [tie_eq]
    exact hside
  have hmem (link : Link) : link ∈ (join.tie side id target).links ↔
      link ∈ join.links ∨ link = join.oriented side id target :=
    mem_links_link hlinks (isAtomic_oriented hid htarget)
  rw [mem_seenFrom_side hsides, mem_seenFrom_side hside, hmem, hmem, tie_eq]
  show (join.oriented side id x ∈ join.links ∨ join.oriented side id x = _) ∨
    join.isSymmetric = true ∧ (join.oriented side x id ∈ join.links ∨
      join.oriented side x id = _) ↔ _
  rw [oriented_inj, oriented_inj]
  constructor
  · rintro ((hlink | ⟨-, rfl⟩) | ⟨hsymmetric, hlink | ⟨rfl, rfl⟩⟩)
    · exact Or.inl (Or.inl hlink)
    · exact Or.inr rfl
    · exact Or.inl (Or.inr ⟨hsymmetric, hlink⟩)
    · exact Or.inr rfl
  · rintro ((hlink | ⟨hsymmetric, hlink⟩) | rfl)
    · exact Or.inl (Or.inl hlink)
    · exact Or.inr ⟨hsymmetric, Or.inl hlink⟩
    · exact Or.inl (Or.inr ⟨rfl, rfl⟩)

/-- It sees a target no more from which it has been parted. -/
theorem mem_seenFrom_part (hside : side ∈ join.sides) :
    x ∈ (join.part side id target).seenFrom side.model id ↔
      x ∈ join.seenFrom side.model id ∧ x ≠ target := by
  have hsides : side ∈ (join.part side id target).sides := by
    rw [part_eq]
    exact hside
  rw [mem_seenFrom_side hsides, mem_seenFrom_side hside, mem_links_part hlinks hid htarget,
    mem_links_part hlinks hid htarget, part_eq]
  show (join.oriented side id x ∈ join.links ∧ join.oriented side id x ≠ _ ∧
      (join.isSymmetric = true → join.oriented side id x ≠ _)) ∨
    join.isSymmetric = true ∧ (join.oriented side x id ∈ join.links ∧
      join.oriented side x id ≠ _ ∧ (join.isSymmetric = true → join.oriented side x id ≠ _)) ↔ _
  simp only [ne_eq, oriented_inj, true_and, and_true]
  constructor
  · rintro (⟨hlink, hforth, -⟩ | ⟨hsymmetric, hlink, -, hback⟩)
    · exact ⟨Or.inl hlink, hforth⟩
    · exact ⟨Or.inr ⟨hsymmetric, hlink⟩, hback hsymmetric⟩
  · -- a record parted from itself is the one case where the two directions are one
    rintro ⟨hlink | ⟨hsymmetric, hlink⟩, hne⟩
    · exact Or.inl ⟨hlink, hne, fun _ heq => hne (heq.2.trans heq.1)⟩
    · exact Or.inr ⟨hsymmetric, hlink, fun heq => hne (heq.1.trans heq.2), fun _ => hne⟩

end Join

namespace Join

variable {join : Join} {side : Side} {id target x : Value}

/-- What a record sees are ends of links. -/
theorem isAtom_of_mem_seenFrom {model : String} (hlinks : ∀ link ∈ join.links, link.IsAtomic)
    (hx : x ∈ join.seenFrom model id) : x.isAtom = true := by
  obtain ⟨link, hlink, ⟨-, -, rfl⟩ | ⟨-, -, rfl⟩⟩ := mem_seenFrom.mp hx
  · exact (hlinks link hlink).2
  · exact (hlinks link hlink).1

end Join

/-- An atom stands for itself alone among targets. -/
theorem Value.elements_of_isAtom {v : Value} (h : v.isAtom = true) : v.elements = [v] := by
  cases v with
  | null => cases h
  | array _ => cases h
  | _ => rfl

namespace Joins

variable {joins : Joins} {name : String} {join : Join} {side : Side} {id target : Value}

/-- A change of the join of a name shows in what the name finds. -/
theorem get?_modify {change : Join → Join} (hname : ∀ join, (change join).name = join.name)
    (hjoin : joins.get? name = some join) :
    (joins.modify name change).get? name = some (change join) := by
  have hsame : (fun join : Join => decide ((if join.name = name then change join else join).name = name)) =
      fun join => decide (join.name = name) := by
    funext join
    split
    · rw [hname]
    · rfl
  unfold get? at hjoin
  unfold get? Joins.modify
  rw [List.find?_map]
  show Option.map _ (joins.find? fun join =>
    decide ((if join.name = name then change join else join).name = name)) = _
  rw [hsame, hjoin, Option.map_some, if_pos (get?_spec hjoin).2]

/-- Linking a target shows in the join of the name. -/
theorem get?_connect (hjoin : joins.get? name = some join) (htarget : target.isAtom = true) :
    (joins.connect name side id target).get? name = some (join.tie side id target) := by
  have hname (join : Join) : (join.tie side id target).name = join.name := by rw [Join.tie_eq]
  unfold connect
  rw [Value.elements_of_isAtom htarget]
  exact get?_modify hname hjoin

/-- Removing a link shows in the join of the name. -/
theorem get?_disconnect (hjoin : joins.get? name = some join) (htarget : target.isAtom = true) :
    (joins.disconnect name side id target).get? name =
      some (join.unlink (join.oriented side id target)) := by
  unfold disconnect
  rw [Value.elements_of_isAtom htarget]
  exact get?_modify (fun _ => rfl) hjoin

end Joins

namespace Filter

/-- A condition that the value of a plain column be one of some values compares it with each. -/
theorem satisfies_in_eq {store : Store} {links : Links} {model : Model} {column : String}
    {record : Record} (hplain : model.IsPlain column) (hreading : model.readingOf column = .plain)
    (hname : column ≠ "is") (hnull : (Record.valueAt column record).isNull = false)
    (values : List Value) :
    satisfies store links model record [(column, .object [("in", .array values)])] =
      values.any fun value => sameId (Record.valueAt column record) value := by
  have hfold : Value.fold false = id := funext fun v => by cases v <;> rfl
  have hmember : Condition.matchesScalar .plain (Record.valueAt column record)
      (.object [("in", .array values)]) =
        values.any fun value => sameId (Record.valueAt column record) value := by
    show Condition.satisfies .plain (Record.valueAt column record) [("in", .array values)] = _
    unfold Condition.satisfies
    rw [hnull, if_neg Bool.false_ne_true, Condition.passesAll, Condition.passesAll, Bool.and_true]
    show Condition.isMember .plain false ((Record.valueAt column record).fold false)
      (.array values) = _
    unfold Condition.isMember Condition.foldedItems
    dsimp only
    rw [hfold, List.map_id]
    rfl
  rw [satisfies, satisfies, Bool.and_true, satisfiesKey_object hplain hname, hreading, hmember]

/-- Among atoms that asks for the value itself. -/
theorem satisfies_in {store : Store} {links : Links} {model : Model} {column : String}
    {record : Record} {values : List Value} (hplain : model.IsPlain column)
    (hreading : model.readingOf column = .plain) (hname : column ≠ "is")
    (hatom : (Record.valueAt column record).isAtom = true)
    (hatoms : ∀ value ∈ values, value.isAtom = true) :
    satisfies store links model record [(column, .object [("in", .array values)])] = true ↔
      Record.valueAt column record ∈ values := by
  rw [satisfies_in_eq hplain hreading hname (Value.isNull_of_isAtom hatom), List.any_eq_true]
  constructor
  · rintro ⟨value, hvalue, hsame⟩
    rwa [(sameId_iff (Value.isId_of_isAtom hatom) (Value.isId_of_isAtom (hatoms value hvalue))).mp
      hsame]
  · intro hmem
    exact ⟨_, hmem, (sameId_iff (Value.isId_of_isAtom hatom) (Value.isId_of_isAtom hatom)).mpr rfl⟩

end Filter

namespace Store

open Write NestedWrites

/-- A record as one end of a relation that a join keeps: a field of its model is a side of the join,
    the related model has a single id field, which is a plain column, and the ends of the links are
    texts and 64-bit integers. -/
structure JoinedEnd (store : Store) (model : Model) (field : Field) (related : Model)
    (item : Record) (idField : String) (join : Join) : Prop where
  linkage_eq : store.schema.linkage? model field = none
  related_eq : store.schema.relatedModel field = .ok related
  relation_eq : field.relationName = some join.name
  join_eq : store.joins.get? join.name = some join
  side : (⟨field.name, model.name⟩ : Side) ∈ join.sides
  idFields_eq : related.idFields = [idField]
  plain : related.IsPlain idField ∧ related.readingOf idField = .plain
  named : idField ≠ "is"
  atom : (model.recordId item).isAtom = true
  atomic : ∀ link ∈ join.links, link.IsAtomic

end Store

/-- The end of a join that a field of a model is, for a record. -/
def Join.endAt (join : Join) (model : Model) (field : Field) (related : Model) (item : Record)
    (idField : String) : NestedWrites.JoinEnd where
  name := join.name
  side := ⟨field.name, model.name⟩
  related
  idField
  id := model.recordId item
  symmetric := join.isSymmetric

/-- Parts the records that satisfy a filter. -/
def NestedWrites.JoinEnd.partMatching (joinEnd : NestedWrites.JoinEnd) (filter : Record) :
    Write Unit := do
  let store ← get
  (store.select joinEnd.related (some filter) (store.items joinEnd.related.name)).forM fun target =>
    joinEnd.unlink (joinEnd.related.recordId target)

namespace Store

open Write NestedWrites

variable {store current next : Store} {model related : Model} {field : Field} {item : Record}
variable {idField : String} {join : Join} {target : Record}

namespace JoinedEnd

/-- A write through the field finds this end. -/
theorem joinEnd_eq (h : store.JoinedEnd model field related item idField join) :
    joinEnd store model field item = .ok (join.endAt model field related item idField) := by
  simp only [joinEnd, h.related_eq, h.relation_eq, h.join_eq, Option.any_some, bind, Except.bind,
    h.idFields_eq]
  rfl

/-- The linked records are those whose ids the record sees. -/
theorem mem_related (h : store.JoinedEnd model field related item idField join)
    (hid : store.Identified related) (other : Record) :
    other ∈ store.related model field item ↔ other ∈ store.items related.name ∧
      related.recordId other ∈ join.seenFrom model.name (model.recordId item) := by
  by_cases hother : other ∈ store.items related.name
  · exact mem_related_of_join h.related_eq h.linkage_eq h.relation_eq h.join_eq
      (fun link hlink => (h.atomic link hlink).isId) (Value.isId_of_isAtom h.atom)
      (Value.isId_of_isAtom (hid.isAtom hother))
  · refine iff_of_false (fun hmem => hother ?_) fun hmem => hother hmem.1
    rw [related_of_relationName h.related_eq h.linkage_eq h.relation_eq] at hmem
    exact List.mem_of_mem_filter hmem

theorem mem_relatedIds (h : store.JoinedEnd model field related item idField join)
    (hid : store.Identified related) (id : Value) :
    id ∈ store.relatedIds model field related item ↔ id ∈ store.ids related ∧
      id ∈ join.seenFrom model.name (model.recordId item) := by
  simp only [relatedIds, Store.ids, List.mem_map, h.mem_related hid]
  constructor
  · rintro ⟨other, ⟨hother, hsees⟩, rfl⟩
    exact ⟨⟨other, hother, rfl⟩, hsees⟩
  · rintro ⟨⟨other, hother, rfl⟩, hsees⟩
    exact ⟨other, ⟨hother, hsees⟩, rfl⟩

/-- The ids that a write finds linked are those that the record sees. -/
theorem mem_linkedIds (h : store.JoinedEnd model field related item idField join) (id : Value) :
    id ∈ (join.endAt model field related item idField).linkedIds store ↔
      id ∈ join.seenFrom model.name (model.recordId item) :=
  (Joins.firstOf_counterparts h.join_eq (fun link hlink => (h.atomic link hlink).isId)
    (Value.isId_of_isAtom h.atom)).mem_iff id

end JoinedEnd

/-- A store that has come from another one by links made and removed through one end of a join,
    which now is as it is here. -/
structure Relinked (store current : Store) (model : Model) (field : Field) (related : Model)
    (item : Record) (idField : String) (joinEnd : JoinEnd) (join : Join) : Prop where
  joined : current.JoinedEnd model field related item idField join
  end_eq : join.endAt model field related item idField = joinEnd
  items_eq : ∀ name, current.items name = store.items name

namespace Relinked

variable {joinEnd : JoinEnd}

theorem identified
    (h : store.Relinked current model field related item idField joinEnd join)
    (hid : store.Identified related) : current.Identified related :=
  hid.of_ids_eq (by rw [ids, ids, h.items_eq])

/-- Other links of the join, in which the ends are still atoms, leave all else as it is. -/
theorem rejoin (h : store.Relinked current model field related item idField joinEnd join)
    {joins : Joins} {changed : Join} (hchanged : changed = { join with links := changed.links })
    (hatomic : ∀ link ∈ changed.links, link.IsAtomic)
    (hjoins : joins.get? join.name = some changed) :
    store.Relinked { current with joins } model field related item idField joinEnd changed := by
  have hjoined := h.joined
  have hname : changed.name = join.name := by rw [hchanged]
  have hsides : changed.sides = join.sides := by rw [hchanged]; rfl
  refine ⟨⟨hjoined.linkage_eq, hjoined.related_eq, hname ▸ hjoined.relation_eq, hname ▸ hjoins,
    hsides ▸ hjoined.side, hjoined.idFields_eq, hjoined.plain, hjoined.named, hjoined.atom, hatomic⟩, ?_,
    h.items_eq⟩
  rw [hchanged]
  exact h.end_eq

/-- Linking a target makes the record see it. -/
theorem link (h : store.Relinked current model field related item idField joinEnd join)
    (htarget : (related.recordId target).isAtom = true)
    (hrun : (joinEnd.link target).outcome current = (.ok (), next)) :
    ∃ changed, store.Relinked next model field related item idField joinEnd changed ∧
      ∀ x, x ∈ changed.seenFrom model.name (model.recordId item) ↔
        x ∈ join.seenFrom model.name (model.recordId item) ∨ x = related.recordId target := by
  obtain rfl := h.end_eq
  obtain rfl := congrArg Prod.snd hrun
  have hjoined := h.joined
  refine ⟨_, h.rejoin (Join.tie_eq _ _ _ _) (Join.isAtomic_tie hjoined.atomic hjoined.atom htarget)
    (Joins.get?_connect hjoined.join_eq htarget), fun x => ?_⟩
  exact Join.mem_seenFrom_tie hjoined.atomic hjoined.atom htarget hjoined.side

/-- Parting a target makes the record see it no more. -/
theorem unlink (h : store.Relinked current model field related item idField joinEnd join)
    {id : Value} (htarget : id.isAtom = true)
    (hrun : (joinEnd.unlink id).outcome current = (.ok (), next)) :
    ∃ changed, store.Relinked next model field related item idField joinEnd changed ∧
      ∀ x, x ∈ changed.seenFrom model.name (model.recordId item) ↔
        x ∈ join.seenFrom model.name (model.recordId item) ∧ x ≠ id := by
  obtain rfl := h.end_eq
  obtain rfl := congrArg Prod.snd hrun
  have hjoined := h.joined
  refine ⟨join.part ⟨field.name, model.name⟩ (model.recordId item) id,
    h.rejoin (Join.part_eq _ _ _ _) (Join.isAtomic_part hjoined.atomic hjoined.atom htarget) ?_,
    fun x => ?_⟩
  · have hforth : (current.joins.disconnect join.name ⟨field.name, model.name⟩
        (model.recordId item) id).get? join.name = _ :=
      Joins.get?_disconnect hjoined.join_eq htarget
    show (if join.isSymmetric = true then _ else _ : Joins).get? join.name = _
    unfold Join.part
    split
    · exact Joins.get?_disconnect hforth hjoined.atom
    · exact hforth
  · exact Join.mem_seenFrom_part hjoined.atomic hjoined.atom htarget hjoined.side

/-- Parting several targets makes the record see none of them. -/
theorem unlink_each {ι : Type} (idOf : ι → Value) {targets : List ι}
    (hatoms : ∀ target ∈ targets, (idOf target).isAtom = true) :
    ∀ {current : Store} {join : Join},
      store.Relinked current model field related item idField joinEnd join →
      (targets.forM fun target => joinEnd.unlink (idOf target)).outcome current = (.ok (), next) →
      ∃ changed, store.Relinked next model field related item idField joinEnd changed ∧
        ∀ x, x ∈ changed.seenFrom model.name (model.recordId item) ↔
          x ∈ join.seenFrom model.name (model.recordId item) ∧ x ∉ targets.map idOf := by
  induction targets with
  | nil =>
      intro current join h hrun
      obtain rfl : current = next := congrArg Prod.snd hrun
      exact ⟨join, h, fun x => (and_iff_left (List.not_mem_nil)).symm⟩
  | cons target rest ih =>
      intro current join h hrun
      obtain ⟨htarget, hrest⟩ := List.forall_mem_cons.mp hatoms
      obtain ⟨_, mid, hfirst, hrun⟩ := outcome_bind_ok hrun
      obtain ⟨parted, hparted, hsees⟩ := h.unlink htarget hfirst
      obtain ⟨changed, hchanged, hsees'⟩ := ih hrest hparted hrun
      refine ⟨changed, hchanged, fun x => ?_⟩
      rw [hsees', hsees, List.map_cons, List.mem_cons, not_or, and_assoc]

/-- A filter narrowed to some ids asks for one of them, and for the filter. -/
theorem satisfies_narrow (h : store.Relinked current model field related item idField joinEnd join)
    (hid : store.Identified related) {linked : List Value}
    (hlinked : ∀ id ∈ linked, id.isAtom = true) {filter other : Record}
    (hlocal : Filter.isLocal related filter = true) (hother : other ∈ store.items related.name) :
    current.satisfies related other (Filter.narrow
        [(idField, .object [("in", .array linked)])] (some filter)) = true ↔
      store.satisfies related other filter = true ∧ related.recordId other ∈ linked := by
  have hatom := hid.isAtom hother
  rw [Model.recordId_of_idFields h.joined.idFields_eq] at hatom ⊢
  have hcongr : current.satisfies related other filter = store.satisfies related other filter :=
    Filter.satisfies_congr filter hlocal
  rw [← hcongr, satisfies, Filter.satisfies_narrow, Bool.and_eq_true,
    Filter.satisfies_in h.joined.plain.1 h.joined.plain.2 h.joined.named hatom hlinked, satisfies]

/-- Parting by a local filter makes the record see no more the records that satisfy it, among those
    of some ids. -/
theorem part_matching (h : store.Relinked current model field related item idField joinEnd join)
    (hid : store.Identified related) {linked : List Value}
    (hlinked : ∀ id ∈ linked, id.isAtom = true) {filter : Record}
    (hlocal : Filter.isLocal related filter = true)
    (hrun : (joinEnd.partMatching (Filter.narrow [(idField, .object [("in", .array linked)])]
      (some filter))).outcome current = (.ok (), next)) :
    ∃ changed, store.Relinked next model field related item idField joinEnd changed ∧
      ∀ x, x ∈ changed.seenFrom model.name (model.recordId item) ↔
        x ∈ join.seenFrom model.name (model.recordId item) ∧
          ∀ other ∈ store.items related.name, related.recordId other = x → x ∈ linked →
            store.satisfies related other filter = false := by
  obtain hrelated : joinEnd.related = related := h.end_eq ▸ rfl
  rw [JoinEnd.partMatching, outcome_bind_get, hrelated] at hrun
  have hatoms : ∀ target ∈ current.select related (some (Filter.narrow
      [(idField, .object [("in", .array linked)])] (some filter))) (current.items related.name),
      (related.recordId target).isAtom = true :=
    fun target htarget => (h.identified hid).isAtom (List.mem_of_mem_filter htarget)
  obtain ⟨changed, hchanged, hsees⟩ := unlink_each related.recordId hatoms h hrun
  refine ⟨changed, hchanged, fun x => (hsees x).trans (and_congr_right fun _ => ?_)⟩
  rw [select, h.items_eq, List.mem_map]
  constructor
  · rintro hnone other hother rfl hmem
    by_contra hsatisfies
    exact hnone ⟨other, List.mem_filter.mpr ⟨hother, (h.satisfies_narrow hid hlinked hlocal
      hother).mpr ⟨Bool.not_eq_false _ ▸ hsatisfies, hmem⟩⟩, rfl⟩
  · rintro hfails ⟨other, hother, rfl⟩
    obtain ⟨hstored, hpick⟩ := List.mem_filter.mp hother
    obtain ⟨hsatisfies, hmem⟩ := (h.satisfies_narrow hid hlinked hlocal hstored).mp hpick
    rw [hfails other hstored rfl hmem] at hsatisfies
    cases hsatisfies

/-- Parting by local filters, one after the other, makes the record see no more the records that
    satisfy one of them. -/
theorem part_filters (hid : store.Identified related) {linked : List Value}
    (hlinked : ∀ id ∈ linked, id.isAtom = true) {filters : List Record}
    (hlocal : ∀ filter ∈ filters, Filter.isLocal related filter = true) :
    ∀ {current : Store} {join : Join},
      store.Relinked current model field related item idField joinEnd join →
      ((filters.map fun filter => Filter.narrow [(idField, .object [("in", .array linked)])]
        (some filter)).forM joinEnd.partMatching).outcome current = (.ok (), next) →
      ∃ changed, store.Relinked next model field related item idField joinEnd changed ∧
        ∀ x, x ∈ changed.seenFrom model.name (model.recordId item) ↔
          x ∈ join.seenFrom model.name (model.recordId item) ∧
            ∀ other ∈ store.items related.name, related.recordId other = x → x ∈ linked →
              ∀ filter ∈ filters, store.satisfies related other filter = false := by
  induction filters with
  | nil =>
      intro current join h hrun
      obtain rfl : current = next := congrArg Prod.snd hrun
      exact ⟨join, h, fun x => (and_iff_left fun _ _ _ _ => List.forall_mem_nil _).symm⟩
  | cons filter rest ih =>
      intro current join h hrun
      obtain ⟨hfilter, hrest⟩ := List.forall_mem_cons.mp hlocal
      obtain ⟨_, mid, hfirst, hrun⟩ := outcome_bind_ok hrun
      obtain ⟨parted, hparted, hsees⟩ := h.part_matching hid hlinked hfilter hfirst
      obtain ⟨changed, hchanged, hsees'⟩ := ih hrest hparted hrun
      refine ⟨changed, hchanged, fun x => ?_⟩
      rw [hsees', hsees, and_assoc]
      refine and_congr_right fun _ => ?_
      simp only [List.forall_mem_cons]
      constructor
      · rintro ⟨hfirst, hmore⟩ other hother hx hmem
        exact ⟨hfirst other hother hx hmem, hmore other hother hx hmem⟩
      · exact fun hall => ⟨fun other hother hx hmem => (hall other hother hx hmem).1,
          fun other hother hx hmem => (hall other hother hx hmem).2⟩

/-- The linked ids are those of stored records that the record sees. -/
theorem mem_relatedIds (h : store.Relinked current model field related item idField joinEnd join)
    (hid : store.Identified related) (id : Value) :
    id ∈ current.relatedIds model field related item ↔ id ∈ store.ids related ∧
      id ∈ join.seenFrom model.name (model.recordId item) := by
  rw [h.joined.mem_relatedIds (h.identified hid), ids, h.items_eq, ids]

/-- Connecting links what the filters pick. -/
theorem connect (h : store.Relinked current model field related item idField joinEnd join)
    (hid : store.Identified related) {filters : List Record}
    (hrun : (joinEnd.connect filters).outcome current = (.ok (), next)) (id : Value) :
    id ∈ next.relatedIds model field related item ↔
      id ∈ current.relatedIds model field related item ∨
        id ∈ picks related joinEnd.link filters current := by
  obtain hrelated : joinEnd.related = related := h.end_eq ▸ rfl
  have hsame : joinEnd.connect filters = connectEach related joinEnd.link filters :=
    hrelated ▸ rfl
  rw [hsame] at hrun
  refine (linked_connectEach
    (fun current => ∃ join, store.Relinked current model field related item idField joinEnd join)
    (fun current id => id ∈ current.relatedIds model field related item)
    (fun before target after hinv htarget hlink => ?_) filters current ⟨join, h⟩ hrun).2 id
  obtain ⟨joinBefore, hbefore⟩ := hinv
  obtain ⟨joinAfter, hafter, hsees⟩ := hbefore.link ((hbefore.identified hid).isAtom htarget) hlink
  refine ⟨⟨joinAfter, hafter⟩, fun id => ?_⟩
  have hstored : related.recordId target ∈ store.ids related :=
    List.mem_map_of_mem (hbefore.items_eq related.name ▸ htarget)
  rw [hafter.mem_relatedIds hid, hbefore.mem_relatedIds hid, hsees, and_or_left]
  exact or_congr_right (and_iff_right_of_imp fun heq => heq ▸ hstored)

end Relinked

namespace JoinedEnd

variable {joinEnd : JoinEnd}

/-- Nothing has been linked or parted yet. -/
theorem relinked (h : store.JoinedEnd model field related item idField join)
    (hend : join.endAt model field related item idField = joinEnd) :
    store.Relinked store model field related item idField joinEnd join :=
  ⟨h, hend, fun _ => rfl⟩

theorem isAtom_linkedIds (h : store.JoinedEnd model field related item idField join)
    (hend : join.endAt model field related item idField = joinEnd) :
    ∀ id ∈ joinEnd.linkedIds store, id.isAtom = true :=
  hend ▸ fun id hlinked => Join.isAtom_of_mem_seenFrom h.atomic ((h.mem_linkedIds id).mp hlinked)

/-- Parting everything that is linked leaves nothing linked. -/
theorem part_all (h : store.JoinedEnd model field related item idField join)
    (hend : join.endAt model field related item idField = joinEnd)
    (hid : store.Identified related)
    (hrun : ((joinEnd.linkedIds store).forM joinEnd.unlink).outcome store = (.ok (), next)) :
    ∃ changed, store.Relinked next model field related item idField joinEnd changed ∧
      ∀ id, id ∉ next.relatedIds model field related item := by
  obtain ⟨changed, hchanged, hsees⟩ :=
    (h.relinked hend).unlink_each (fun id => id) (h.isAtom_linkedIds hend) hrun
  refine ⟨changed, hchanged, fun id hmem => ?_⟩
  obtain ⟨-, hseen⟩ := (hchanged.mem_relatedIds hid id).mp hmem
  rw [hsees, List.map_id'] at hseen
  exact hseen.2 (hend ▸ (h.mem_linkedIds id).mpr hseen.1)

/-- Parting by local filters leaves the linked records that satisfy none. -/
theorem part_filters (h : store.JoinedEnd model field related item idField join)
    (hend : join.endAt model field related item idField = joinEnd)
    (hid : store.Identified related) {filters : List Record}
    (hlocal : ∀ filter ∈ filters, Filter.isLocal related filter = true)
    (hrun : ((filters.map fun filter => joinEnd.narrow store (some filter)).forM
      joinEnd.partMatching).outcome store = (.ok (), next)) (id : Value) :
    id ∈ next.relatedIds model field related item ↔
      ∃ other ∈ store.related model field item, related.recordId other = id ∧
        ∀ filter ∈ filters, store.satisfies related other filter = false := by
  obtain hidField : joinEnd.idField = idField := hend ▸ rfl
  simp only [JoinEnd.narrow, hidField] at hrun
  obtain ⟨changed, hchanged, hsees⟩ :=
    Relinked.part_filters hid (h.isAtom_linkedIds hend) hlocal (h.relinked hend) hrun
  rw [hchanged.mem_relatedIds hid, hsees]
  constructor
  · rintro ⟨hstored, hseen, hfails⟩
    obtain ⟨other, hother, rfl⟩ := List.mem_map.mp hstored
    exact ⟨other, (h.mem_related hid other).mpr ⟨hother, hseen⟩, rfl,
      hfails other hother rfl (hend ▸ (h.mem_linkedIds _).mpr hseen)⟩
  · rintro ⟨other, hother, rfl, hfails⟩
    obtain ⟨hstored, hseen⟩ := (h.mem_related hid other).mp hother
    refine ⟨List.mem_map_of_mem hstored, hseen, fun found hfound hsame _ => ?_⟩
    obtain rfl := hid.eq_of_id_eq hfound hstored hsame
    exact hfails

/-- Through a join, the operations act on the set of the linked ids. -/
theorem actsOnLinks (h : store.JoinedEnd model field related item idField join)
    (hend : join.endAt model field related item idField = joinEnd)
    (hid : store.Identified related) (nested : NestedWrites) :
    store.ActsOnLinks model field related item joinEnd.link (nested.joinStep joinEnd) := by
  constructor
  · exact fun arg last hrun id => (h.relinked hend).connect hid hrun id
  · intro arg last hrun
    have hset (arg : Value) : nested.joinStep joinEnd "set" arg =
        ((do (joinEnd.linkedIds (← get)).forM joinEnd.unlink) >>=
          fun _ => joinEnd.connect arg.objects) := rfl
    rw [hset] at hrun
    obtain ⟨_, cleared, hclear, hrun⟩ := outcome_bind_ok hrun
    obtain ⟨changed, hchanged, hnone⟩ := h.part_all hend hid hclear
    refine ⟨cleared, ?_, fun id => ?_⟩
    · rw [hset, outcome_bind, hclear]
      rfl
    · rw [hchanged.connect hid hrun, or_iff_right (hnone id)]
  · intro last hrun id hmember
    -- to part all is to part what satisfies the empty filter
    have hlocal : ∀ filter ∈ [([] : Record)], Filter.isLocal related filter = true :=
      List.forall_mem_singleton.mpr rfl
    obtain ⟨other, -, -, hfails⟩ := (h.part_filters hend hid hlocal hrun id).mp hmember
    cases hfails [] (List.mem_singleton_self _)
  · intro arg last harg hlocal hrun id
    refine h.part_filters hend hid hlocal ?_ id
    have hparted : ((filtersOf (joinEnd.narrow store) arg).forM joinEnd.partMatching).outcome
        store = (.ok (), last) := hrun
    rwa [filtersOf_eq_map harg] at hparted

end JoinedEnd

end Store

end RecordStore
