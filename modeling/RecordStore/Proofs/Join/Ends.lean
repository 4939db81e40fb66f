import RecordStore.Proofs.Collections
import RecordStore.Proofs.Columns
import RecordStore.Proofs.Delete.Scope
import RecordStore.Proofs.Join.Sides

/-!
# The ends of links

Each end of a link is an id of the model of a side.  What holds of every end is kept when links are
removed, and when one is made between two ends of which it holds.  Ids that are keys name their
records by themselves: they are links' ends one at a time, and equal themselves.
-/

namespace RecordStore

/-! ## Keys -/

namespace Value

variable {a b : Value}

/-- A value that names a record by itself: it is not null, no list, and equal to itself as an
    id. -/
def isKey (v : Value) : Bool := !v.isNull && v.array?.isNone && sameId v v

/-- The test for keys says just that. -/
theorem isKey_iff : a.isKey = true ↔ a.isNull = false ∧ a.array? = none ∧ sameId a a = true := by
  unfold isKey
  rw [Bool.and_eq_true, Bool.and_eq_true, Bool.not_eq_true', Option.isNone_iff_eq_none, and_assoc]

/-- What equals itself as an id equals itself as data. -/
theorem same_self_of_sameId (h : sameId a a = true) : same a a = true := by
  rcases (equalsPlain_iff a a).mp h with ⟨i, hi, -⟩ | ⟨-, ⟨x, y, hx, hy, hxy⟩ | ⟨-, hsame⟩⟩
  · cases a with
    | integer _ => exact beq_self_eq_true _
    | _ => cases hi
  · cases a with
    | integer _ => exact beq_self_eq_true _
    | double z =>
        rw [← Option.some.inj hx, ← Option.some.inj hy] at hxy
        exact hxy
    | _ => cases hx
  · exact hsame

/-- Data that equals a key equals it as an id. -/
theorem sameId_of_same (ha : a.isKey = true) (h : same a b = true) : sameId a b = true :=
  equalsPlain_of_same h (isKey_iff.mp ha).2.2

/-- Data that equals a key is one. -/
theorem isKey_of_same (hb : b.isKey = true) (h : same a b = true) : a.isKey = true := by
  obtain ⟨hnull, harray, hself⟩ := isKey_iff.mp hb
  refine isKey_iff.mpr ⟨isNull_of_same h ▸ hnull, ?_, ?_⟩
  · cases a with
    | array _ =>
        cases b with
        | array _ => cases harray
        | _ => cases h
    | _ => rfl
  · have hback : sameId a b = true := equalsPlain_symm (sameId_of_same hb (same_symm _ _ h))
    exact equalsPlain_of_same (same_trans _ _ _ h (same_symm _ _ h)) hback

/-- A key stands for itself alone among targets. -/
theorem elements_of_isKey (ha : a.isKey = true) : a.elements = [a] := by
  obtain ⟨hnull, harray, -⟩ := isKey_iff.mp ha
  cases a with
  | null => cases hnull
  | array _ => cases harray
  | _ => rfl

/-- A value like a key equals it as data. -/
theorem same_of_alike (hb : b.isKey = true) (h : Alike a b) : same a b = true := by
  rcases h with rfl | hsame
  · exact same_self_of_sameId (isKey_iff.mp hb).2.2
  · exact hsame

end Value

namespace Model

variable {model : Model} {a b record : Record}

/-- Equal records have equal ids. -/
theorem recordId_of_same (model : Model) (h : Record.same a b = true) :
    Value.same (model.recordId a) (model.recordId b) = true := by
  unfold recordId
  split
  · rfl
  · exact Record.valueAt_of_same h _
  · rw [Value.same, Value.sameItems_iff, List.forall₂_map_left_iff, List.forall₂_map_right_iff]
    exact List.forall₂_same.mpr fun id _ => Record.valueAt_of_same h id

/-- Only the value of a single id field is a key. -/
theorem recordId_eq_valueAt (h : (model.recordId record).isKey = true) :
    ∃ id, model.recordId = Record.valueAt id := by
  have hids := (Value.isKey_iff.mp h)
  unfold recordId at hids ⊢
  split at hids
  · cases hids.1
  · rename_i id _
    exact ⟨id, rfl⟩
  · cases hids.2.1

/-- Nulls in some columns leave an id as it was, or leave none. -/
theorem recordId_insertAll_unbind {columns : List String}
    (h : (model.recordId (Entries.insertAll record (Record.unbind columns []))).isKey = true) :
    model.recordId (Entries.insertAll record (Record.unbind columns [])) =
      model.recordId record := by
  obtain ⟨id, hid⟩ := recordId_eq_valueAt h
  rw [hid] at h ⊢
  unfold Record.valueAt at h ⊢
  rw [Record.get?_insertAll_unbind] at h ⊢
  split at h
  · cases h
  · rename_i hcolumn
    rw [if_neg hcolumn]

end Model

/-! ## What holds of every end -/

namespace Joins

variable {joins : Joins} {P Q : String → Value → Prop}

/-- Every end of a link has a property, with the name of the model that its side belongs to. -/
def EachEnd (joins : Joins) (P : String → Value → Prop) : Prop :=
  ∀ join ∈ joins, ∀ link ∈ join.links, P join.a.model link.a ∧ P join.b.model link.b

/-- A weaker property holds of every end as well. -/
theorem EachEnd.imp (h : joins.EachEnd P) (hpq : ∀ name id, P name id → Q name id) :
    joins.EachEnd Q :=
  fun join hjoin link hlink => (h join hjoin link hlink).imp (hpq _ _) (hpq _ _)

/-- A change of joins keeps them but for their links. -/
def KeepsSides (change : Join → Join) : Prop :=
  ∀ join, { change join with links := [] } = { join with links := [] }

/-- Several changes that keep the sides keep them one after the other. -/
theorem KeepsSides.foldl {step : Join → Value → Join}
    (h : ∀ target, KeepsSides fun join => step join target) (targets : List Value) :
    KeepsSides fun join => targets.foldl step join := by
  induction targets with
  | nil => exact fun _ => rfl
  | cons target rest ih => exact fun join => (ih (step join target)).trans (h target join)

/-- Without its links a join shows nothing of such a change. -/
theorem KeepsSides.reset_map {change : Join → Join} (h : KeepsSides change) (joins : Joins) :
    Joins.reset (joins.map change) = joins.reset := by
  unfold Joins.reset
  rw [List.map_map]
  exact List.map_congr_left fun join _ => h join

/-- It may be made of one join only. -/
theorem KeepsSides.ite {change : Join → Join} (h : KeepsSides change) (name : String) :
    KeepsSides fun join => if join.name = name then change join else join := by
  intro join
  dsimp only
  split
  · exact h join
  · rfl

/-- Linking, unlinking and clearing away an id all keep the sides. -/
theorem keepsSides_link (side : Side) (id target : Value) :
    KeepsSides fun join => join.link (join.oriented side id target) := by
  intro join
  dsimp only [Join.link]
  split <;> rfl

theorem keepsSides_unlink (side : Side) (id target : Value) :
    KeepsSides fun join => join.unlink (join.oriented side id target) := fun _ => rfl

theorem keepsSides_strip (model : String) (id : Value) :
    KeepsSides fun join => join.strip model id := fun _ => rfl

/-- So the joins are the same without their links, whatever is done to these. -/
theorem reset_connect (joins : Joins) (name : String) (side : Side) (id targets : Value) :
    (joins.connect name side id targets).reset = joins.reset :=
  ((KeepsSides.foldl (keepsSides_link side id) targets.elements).ite name).reset_map joins

theorem reset_disconnect (joins : Joins) (name : String) (side : Side) (id targets : Value) :
    (joins.disconnect name side id targets).reset = joins.reset :=
  ((KeepsSides.foldl (keepsSides_unlink side id) targets.elements).ite name).reset_map joins

theorem reset_cleanup (joins : Joins) (model : String) (id : Value) :
    (joins.cleanup model id).reset = joins.reset :=
  (keepsSides_strip model id).reset_map joins

theorem reset_reset (joins : Joins) : joins.reset.reset = joins.reset :=
  List.map_map

/-- What holds of the ends of all links holds of those that are left, and of new ones as far as it
    holds of them. -/
theorem EachEnd.map (h : joins.EachEnd P) {change : Join → Join} (hsides : KeepsSides change)
    (hlinks : ∀ join ∈ joins, ∀ link ∈ (change join).links,
      link ∈ join.links ∨ (P join.a.model link.a ∧ P join.b.model link.b)) :
    EachEnd (joins.map change) P := by
  intro join hjoin link hlink
  obtain ⟨old, hold, rfl⟩ := List.mem_map.mp hjoin
  have ha : (change old).a = old.a := (Join.mk.inj (hsides old)).2.1
  have hb : (change old).b = old.b := (Join.mk.inj (hsides old)).2.2.1
  rw [ha, hb]
  exact (hlinks old hold link hlink).elim (h old hold link) id

/-- What holds of every end holds of those that are left when records are parted. -/
theorem EachEnd.disconnect (h : joins.EachEnd P) (name : String) (side : Side)
    (id targets : Value) : (joins.disconnect name side id targets).EachEnd P := by
  have hfold (targets : List Value) : ∀ join : Join, (targets.foldl (fun join target =>
      join.unlink (join.oriented side id target)) join).links ⊆ join.links := by
    induction targets with
    | nil => exact fun _ => List.Subset.refl _
    | cons target rest ih =>
        exact fun join link hlink => List.mem_of_mem_filter (ih _ hlink)
  refine h.map ((KeepsSides.foldl (keepsSides_unlink side id) targets.elements).ite name)
    fun join _ link hlink => Or.inl ?_
  dsimp only at hlink
  split at hlink
  · exact hfold _ join hlink
  · exact hlink

/-- A link to a key is made between two ends of which the property holds. -/
theorem EachEnd.connect (h : joins.EachEnd P) {name : String} {side : Side} {id target : Value}
    (hnew : ∀ join ∈ joins, join.name = name → target.isKey = true ∧
      P join.a.model (join.oriented side id target).a ∧
        P join.b.model (join.oriented side id target).b) :
    (joins.connect name side id target).EachEnd P := by
  refine h.map ((KeepsSides.foldl (keepsSides_link side id) target.elements).ite name)
    fun join hjoin link hlink => ?_
  dsimp only at hlink
  split at hlink
  · rename_i hname
    obtain ⟨hkey, hends⟩ := hnew join hjoin hname
    rw [Value.elements_of_isKey hkey] at hlink
    dsimp only [List.foldl, Join.link] at hlink
    split at hlink
    · exact Or.inl hlink
    · rcases List.mem_append.mp hlink with hold | hlast
      · exact Or.inl hold
      · obtain rfl := List.mem_singleton.mp hlast
        exact Or.inr hends
  · exact Or.inl hlink

/-- What holds of all ends but those of a record holds of all ends once the links of the record are
    removed. -/
theorem EachEnd.cleanup {model : String} {id : Value}
    (h : joins.EachEnd fun name known => P name known ∨ (name = model ∧ sameId known id = true)) :
    (joins.cleanup model id).EachEnd P := by
  intro join hjoin link hlink
  obtain ⟨old, hold, rfl⟩ := List.mem_map.mp hjoin
  obtain ⟨hmem, hkept⟩ := List.mem_filter.mp hlink
  simp only [Bool.and_eq_true, Bool.not_eq_true', Bool.and_eq_false_iff,
    decide_eq_false_iff_not] at hkept
  obtain ⟨ha, hb⟩ := h old hold link hmem
  constructor
  · refine ha.resolve_right fun ⟨hname, hsame⟩ => ?_
    exact hkept.1.elim (fun hne => hne hname) fun hdiffers => nomatch hsame ▸ hdiffers
  · refine hb.resolve_right fun ⟨hname, hsame⟩ => ?_
    exact hkept.2.elim (fun hne => hne hname) fun hdiffers => nomatch hsame ▸ hdiffers

/-- Without links there is nothing that it has to hold of. -/
theorem EachEnd.reset (joins : Joins) : joins.reset.EachEnd P := by
  intro join hjoin link hlink
  obtain ⟨old, -, rfl⟩ := List.mem_map.mp hjoin
  cases hlink

end Joins

end RecordStore
