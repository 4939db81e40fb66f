import RecordStore.Proofs.Delete.Cascade
import RecordStore.Proofs.Join.Ends

/-!
# Cleared columns and stripped links

What a delete does to the records that it leaves, and to the joins.  A record loses values to null
in columns that may be nulled, a column that was not there included, so unlike a detached record it
may have new names; column by column it can still be told what it was.  A join loses links by the
ids at their ends, whatever the order in which the ids went.
-/

namespace RecordStore

/-! ## Cleared columns -/

namespace Record

/-- A record that shows what it did, but for columns that show null. -/
def Cleared (columns : String → Prop) (before after : Record) : Prop :=
  ∀ name, Entries.get? name after = Entries.get? name before ∨
    columns name ∧ Entries.get? name after = some .null

variable {columns : String → Prop} {a b c scope : Record}

theorem Cleared.refl (record : Record) : Cleared columns record record := fun _ => Or.inl rfl

theorem Cleared.trans (hab : Cleared columns a b) (hbc : Cleared columns b c) :
    Cleared columns a c := by
  intro name
  rcases hbc name with hkept | hnull
  · rw [hkept]
    exact hab name
  · exact Or.inr hnull

/-- Nulling columns clears them, whether they were there or not. -/
theorem cleared_insertAll_unbind {names : List String} (h : ∀ name ∈ names, columns name)
    (record : Record) : Cleared columns record (Entries.insertAll record (unbind names [])) := by
  intro name
  rw [get?_insertAll_unbind]
  split
  · exact Or.inr ⟨h name ‹_›, rfl⟩
  · exact Or.inl rfl

/-- What a cleared record shows besides null it has shown before. -/
theorem Cleared.get?_eq_some (h : Cleared columns a b) {name : String} {value : Value}
    (hvalue : Entries.get? name b = some value) (hnull : value.isNull = false) :
    Entries.get? name a = some value := by
  rcases h name with hkept | ⟨-, hcleared⟩
  · exact hkept.symm.trans hvalue
  · cases hcleared.symm.trans hvalue
    cases hnull

/-- All other columns hold what they held. -/
theorem Cleared.get?_eq (h : Cleared columns a b) {name : String} (hname : ¬ columns name) :
    Entries.get? name b = Entries.get? name a :=
  (h name).resolve_right fun hcleared => hname hcleared.1

/-- A cleared record holds no more of a scope than before. -/
theorem Cleared.holdsAll (h : Cleared columns a b)
    (hscope : ∀ entry ∈ scope, entry.2.isNull = false) (hb : Record.holdsAll b scope = true) :
    Record.holdsAll a scope = true := by
  refine List.all_eq_true.mpr fun entry hentry => ?_
  have hholds := List.all_eq_true.mp hb entry hentry
  dsimp only at hholds ⊢
  cases hvalue : Entries.get? entry.1 b with
  | none =>
      rw [hvalue] at hholds
      cases (hscope entry hentry).symm.trans hholds
  | some value =>
      rw [hvalue] at hholds
      have hequals : Value.equals .plain value entry.2 = true := hholds
      have hnull : value.isNull = false := Value.isNull_of_equals (hscope entry hentry) hequals
      rw [h.get?_eq_some hvalue hnull]
      exact hholds

/-- What fits a plain scope shows values in all of its columns, equal to those of the scope as the
    types of the columns ask for. -/
theorem exists_value_of_fits {model : Model} (hplain : Filter.Plain model scope)
    (hfits : Filter.fits model scope b = true) {entry : String × Value} (hentry : entry ∈ scope) :
    ∃ value, Entries.get? entry.1 b = some value ∧ value.isNull = false ∧
      Value.equals (model.readingOf entry.1) value entry.2 = true := by
  obtain ⟨-, hscalar, hnull⟩ := hplain entry hentry
  have hfits := List.all_eq_true.mp hfits entry hentry
  rw [Condition.matchesScalar_of_isScalar _ _ hscalar hnull, Bool.and_eq_true, Bool.not_eq_true',
    valueAt] at hfits
  cases hvalue : Entries.get? entry.1 b with
  | none =>
      rw [hvalue] at hfits
      cases hfits.1
  | some value =>
      rw [hvalue] at hfits
      exact ⟨value, rfl, hfits⟩

/-- A cleared record fits a plain scope only if it has fitted it before. -/
theorem Cleared.fits (h : Cleared columns a b) {model : Model}
    (hplain : Filter.Plain model scope) (hb : Filter.fits model scope b = true) :
    Filter.fits model scope a = true := by
  refine List.all_eq_true.mpr fun entry hentry => ?_
  obtain ⟨-, hscalar, hnull⟩ := hplain entry hentry
  obtain ⟨value, hvalue, hsome, hequals⟩ := exists_value_of_fits hplain hb hentry
  rw [Condition.matchesScalar_of_isScalar _ _ hscalar hnull, valueAt,
    h.get?_eq_some hvalue hsome, Bool.and_eq_true, Bool.not_eq_true']
  exact ⟨hsome, hequals⟩

/-- A cleared record that still fits a scope holds as much of it as before. -/
theorem Cleared.holdsAll_of_fits (h : Cleared columns a b) {model : Model}
    (hplain : Filter.Plain model scope) (hb : Filter.fits model scope b = true)
    (ha : Record.holdsAll a scope = true) : Record.holdsAll b scope = true := by
  refine List.all_eq_true.mpr fun entry hentry => ?_
  obtain ⟨value, hvalue, hsome, -⟩ := exists_value_of_fits hplain hb hentry
  have hheld := List.all_eq_true.mp ha entry hentry
  dsimp only at hheld ⊢
  rw [h.get?_eq_some hvalue hsome] at hheld
  rw [hvalue]
  exact hheld

end Record

namespace Value

/-- Next to what is no number, equality by quantity is equality of data. -/
theorem same_of_equalsPlain {a b : Value} (hint : b.int64? = none) (hnumber : b.number? = none)
    (h : equalsPlain a b = true) : same a b = true := by
  rcases (equalsPlain_iff a b).mp h with ⟨_, -, hsome⟩ | ⟨-, ⟨_, _, -, hsome, -⟩ | ⟨-, hsame⟩⟩
  · cases hint.symm.trans hsome
  · cases hnumber.symm.trans hsome
  · exact hsame

/-- What equals a value by quantity equals all that is the same data. -/
theorem equalsPlain_trans_same {a b c : Value} (hab : equalsPlain a b = true)
    (hbc : same b c = true) : equalsPlain a c = true := by
  have hdata (hint : b.int64? = none) (hnumber : b.number? = none) (hint' : c.int64? = none)
      (hnumber' : c.number? = none) : equalsPlain a c = true :=
    (equalsPlain_iff a c).mpr <| Or.inr ⟨Or.inr hint', Or.inr ⟨Or.inr hnumber',
      same_trans _ _ _ (same_of_equalsPlain hint hnumber hab) hbc⟩⟩
  cases b with
  | array _ =>
      cases c with
      | array _ => exact hdata rfl rfl rfl rfl
      | _ => cases hbc
  | object _ =>
      cases c with
      | object _ => exact hdata rfl rfl rfl rfl
      | _ => cases hbc
  | _ => exact (equals_congr .plain a rfl (Or.inr hbc)).symm.trans hab

end Value

namespace Model

/-- An id is that of a record, and the record has one. -/
def Identifies (model : Model) (record : Record) (id : Value) : Prop :=
  (model.recordId record).isNull = false ∧ sameId id (model.recordId record) = true

variable {model : Model} {a b : Record}

/-- A record keeps its id if no column of the id is cleared. -/
theorem recordId_of_cleared {columns : String → Prop} (h : Record.Cleared columns a b)
    (hids : ∀ name ∈ model.idFields, ¬ columns name) : model.recordId b = model.recordId a := by
  have hvalue : ∀ name ∈ model.idFields, Record.valueAt name b = Record.valueAt name a := by
    intro name hname
    rw [Record.valueAt, Record.valueAt, h.get?_eq (hids name hname)]
  unfold recordId
  split
  · rfl
  · rename_i id hid
    exact hvalue id (hid ▸ List.mem_singleton_self id)
  · exact congrArg Value.array (List.map_congr_left hvalue)

/-- A single id that is still there is the one that the record has had before. -/
theorem recordId_eq_of_cleared {columns : String → Prop} {idField : String}
    (h : Record.Cleared columns a b) (hid : model.idFields = [idField])
    (hnull : (model.recordId b).isNull = false) : model.recordId a = model.recordId b := by
  rw [recordId_of_idFields hid] at hnull ⊢
  rw [recordId_of_idFields hid]
  unfold Record.valueAt at hnull ⊢
  cases hvalue : Entries.get? idField b with
  | none =>
      rw [hvalue] at hnull
      cases hnull
  | some value =>
      rw [hvalue] at hnull
      rw [h.get?_eq_some hvalue hnull]

/-- Equal records are identified by the same ids. -/
theorem identifies_of_same (h : Record.same a b = true) {id : Value}
    (hid : model.Identifies b id) : model.Identifies a id := by
  obtain ⟨hnull, hsame⟩ := hid
  have hids := model.recordId_of_same h
  refine ⟨(Value.isNull_of_same hids).trans hnull, ?_⟩
  exact Value.equalsPlain_trans_same hsame (Value.same_symm _ _ hids)

end Model

/-! ## Stripped links -/

/-- One of the ends of a link has a property, with the name of the model of its side. -/
def Join.Touches (join : Join) (P : String → Value → Prop) (link : Link) : Prop :=
  P join.a.model link.a ∨ P join.b.model link.b

namespace Joins

open Classical in
/-- Joins without the links that have an end with a property; the others stay in order. -/
noncomputable def without (joins : Joins) (P : String → Value → Prop) : Joins :=
  joins.map fun join =>
    { join with links := join.links.filter fun link => ¬ join.Touches P link }

variable {joins : Joins} {P Q : String → Value → Prop}

/-- Filters that agree on the links of each join leave the same joins. -/
theorem map_filter_congr {test other : Join → Link → Bool}
    (h : ∀ join ∈ joins, ∀ link ∈ join.links, test join link = other join link) :
    (joins.map fun join => { join with links := join.links.filter (test join) }) =
      joins.map fun join => { join with links := join.links.filter (other join) } :=
  List.map_congr_left fun join hjoin =>
    congrArg (Join.mk join.name join.a join.b) (List.filter_congr (h join hjoin))

/-- Without links that nothing is, the joins are as they were. -/
theorem without_false (joins : Joins) : joins.without (fun _ _ => False) = joins := by
  classical
  have hall : (joins.map fun join => { join with links := join.links.filter fun _ => true }) =
      joins := by simp
  conv_rhs => rw [← hall]
  exact map_filter_congr fun join _ link _ => decide_eq_true (not_or.mpr ⟨id, id⟩)

/-- Stripping joins twice strips them of both kinds of links. -/
theorem without_without (joins : Joins) (P Q : String → Value → Prop) :
    (joins.without P).without Q = joins.without fun name id => P name id ∨ Q name id := by
  classical
  unfold without
  rw [List.map_map]
  simp only [Function.comp_def, List.filter_filter]
  refine map_filter_congr fun join _ link _ => ?_
  rw [Bool.eq_iff_iff, Bool.and_eq_true, decide_eq_true_eq, decide_eq_true_eq, decide_eq_true_eq]
  show ¬ (_ ∨ _) ∧ ¬ (_ ∨ _) ↔ ¬ ((_ ∨ _) ∨ _ ∨ _)
  tauto

/-- Removing the links of a record strips the joins of its id, on the sides of its model. -/
theorem cleanup_eq_without (joins : Joins) (model : String) (id : Value) :
    joins.cleanup model id =
      joins.without fun name known => name = model ∧ sameId known id = true := by
  classical
  refine map_filter_congr fun join _ link _ => ?_
  rw [Bool.eq_iff_iff, decide_eq_true_eq, Join.Touches, not_or, Bool.and_eq_true,
    Bool.not_eq_true', Bool.not_eq_true', ← Bool.not_eq_true, ← Bool.not_eq_true,
    Bool.and_eq_true, Bool.and_eq_true, decide_eq_true_eq, decide_eq_true_eq]

/-- What holds of each end holds of each end that is left. -/
theorem EachEnd.without (h : joins.EachEnd Q) : (joins.without P).EachEnd Q := by
  intro join hjoin link hlink
  obtain ⟨whole, hwhole, rfl⟩ := List.mem_map.mp hjoin
  exact h whole hwhole link (List.mem_of_mem_filter hlink)

/-- No id that joins are stripped of is left at an end. -/
theorem eachEnd_without (joins : Joins) (P : String → Value → Prop) :
    (joins.without P).EachEnd fun name id => ¬ P name id := by
  classical
  intro join hjoin link hlink
  obtain ⟨whole, hwhole, rfl⟩ := List.mem_map.mp hjoin
  have hspared := of_decide_eq_true (List.mem_filter.mp hlink).2
  exact not_or.mp hspared

/-- Joins that are stripped of some ids, and in which none of certain more is left, are stripped
    of all of these. -/
theorem without_congr (hpq : ∀ name id, P name id → Q name id)
    (h : (joins.without P).EachEnd fun name id => ¬ Q name id) :
    joins.without P = joins.without Q := by
  classical
  refine map_filter_congr fun join hjoin link hlink => ?_
  rw [decide_eq_decide]
  refine ⟨fun hkept => ?_, mt (Or.imp (hpq _ _) (hpq _ _))⟩
  exact not_or.mpr (h _ (List.mem_map_of_mem hjoin) link
    (List.mem_filter.mpr ⟨hlink, decide_eq_true hkept⟩))

end Joins

end RecordStore
