import RecordStore.Proofs.Delete.Scope

/-!
# What is left of a collection

After some deletes, a collection holds the records at the positions that are not gone, in their
old order, each as it was but for nulls in some columns.
-/

namespace RecordStore

/-- In related lists, each item of the first has its counterpart in the second. -/
theorem exists_of_forall₂_left {α β : Type} {R : α → β → Prop} {xs : List α} {ys : List β}
    (h : List.Forall₂ R xs ys) {x : α} (hx : x ∈ xs) : ∃ y ∈ ys, R x y := by
  induction h with
  | nil => cases hx
  | cons hxy _ ih =>
      rcases List.mem_cons.mp hx with rfl | hrest
      · exact ⟨_, List.mem_cons_self, hxy⟩
      · obtain ⟨y, hy, h⟩ := ih hrest
        exact ⟨y, List.mem_cons_of_mem _ hy, h⟩

/-- The records at all positions but those that are gone, in order; each stands in a relation to
    the record that was there. -/
def Remains (stands : Record → Record → Prop) (gone : Nat → Prop) (before now : List Record) :
    Prop :=
  ∃ kept : List Nat, kept.Pairwise (· < ·) ∧ (∀ i, i ∈ kept ↔ i < before.length ∧ ¬ gone i) ∧
    List.Forall₂ (fun i record => ∃ old, before[i]? = some old ∧ stands old record) kept now

namespace Remains

variable {stands stands' : Record → Record → Prop} {gone gone' : Nat → Prop}
variable {before now : List Record}

/-- At first everything is there. -/
theorem all (h : ∀ record, stands record record) (records : List Record) :
    Remains stands (fun _ => False) records records := by
  refine ⟨List.range records.length, List.pairwise_lt_range, fun i => ?_, ?_⟩
  · rw [List.mem_range]
    exact ⟨fun hi => ⟨hi, id⟩, And.left⟩
  · rw [List.forall₂_iff_get]
    refine ⟨List.length_range, fun i hi hrecord => ⟨records[i], ?_, ?_⟩⟩
    · simp
    · exact h _

/-- Without the record at one position, all others are there. -/
theorem without (h : ∀ record, stands record record) (first later : List Record) (old : Record) :
    Remains stands (fun i => i = first.length) (first ++ old :: later) (first ++ later) := by
  -- the positions before the record, and those after it, which now stand one place earlier
  refine ⟨List.range first.length ++ List.range' (first.length + 1) later.length, ?_, ?_, ?_⟩
  · rw [List.pairwise_append]
    refine ⟨List.pairwise_lt_range, List.pairwise_lt_range', fun i hi j hj => ?_⟩
    have hi := List.mem_range.mp hi
    have hj := List.mem_range'_1.mp hj
    omega
  · intro i
    rw [List.mem_append, List.mem_range, List.mem_range'_1, List.length_append, List.length_cons]
    omega
  · refine List.rel_append ?_ ?_
    · rw [List.forall₂_iff_get]
      refine ⟨List.length_range, fun i hi hrecord => ⟨first[i], ?_, h _⟩⟩
      simp [List.getElem?_append_left hrecord]
    · rw [List.forall₂_iff_get]
      refine ⟨List.length_range', fun i hi hrecord => ⟨later[i], ?_, h _⟩⟩
      have hposition : first.length ≤ first.length + 1 + i := by omega
      simp only [List.get_eq_getElem, List.getElem_range', Nat.one_mul]
      rw [List.getElem?_append_right hposition,
        show first.length + 1 + i - first.length = i + 1 from by omega]
      exact List.getElem?_eq_getElem hrecord

theorem weaken (h : Remains stands gone before now)
    (hstands : ∀ old record, stands old record → stands' old record)
    (hgone : ∀ i, i < before.length → (gone i ↔ gone' i)) : Remains stands' gone' before now := by
  obtain ⟨kept, horder, hkept, hrecords⟩ := h
  refine ⟨kept, horder, fun i => ?_, hrecords.imp fun i record hrecord => ?_⟩
  · rw [hkept]
    exact and_congr_right fun hi => not_congr (hgone i hi)
  · obtain ⟨old, hold, h⟩ := hrecord
    exact ⟨old, hold, hstands old record h⟩

/-- Every record that is left comes from a position that is not gone. -/
theorem origin (h : Remains stands gone before now) {record : Record} (hrecord : record ∈ now) :
    ∃ i old, before[i]? = some old ∧ ¬ gone i ∧ stands old record := by
  obtain ⟨kept, -, hkept, hrecords⟩ := h
  obtain ⟨i, hi, old, hold, h⟩ :=
    exists_of_forall₂_left (R := fun record i => ∃ old, before[i]? = some old ∧ stands old record)
      hrecords.flip hrecord
  exact ⟨i, old, hold, ((hkept i).mp hi).2, h⟩

/-- At every position that is not gone, there is a record left. -/
theorem present (h : Remains stands gone before now) {i : Nat} {old : Record}
    (hold : before[i]? = some old) (hgone : ¬ gone i) : ∃ record ∈ now, stands old record := by
  obtain ⟨kept, -, hkept, hrecords⟩ := h
  have hlength : i < before.length := (List.getElem?_eq_some_iff.mp hold).1
  obtain ⟨record, hrecord, found, hfound, h⟩ :=
    exists_of_forall₂_left hrecords ((hkept i).mpr ⟨hlength, hgone⟩)
  obtain rfl := Option.some.inj (hold.symm.trans hfound)
  exact ⟨record, hrecord, h⟩

/-- Taking records out adds their positions to those that are gone. -/
theorem filter (h : Remains stands gone before now) {test : Record → Bool}
    (htest : ∀ old record, stands old record → test record = test old) :
    Remains stands (fun i => gone i ∨ ∃ old, before[i]? = some old ∧ test old = true) before
      (now.filter fun record => !test record) := by
  obtain ⟨kept, horder, hkept, hrecords⟩ := h
  refine ⟨kept.filter fun i => !before[i]?.any test, horder.filter _, fun i => ?_, ?_⟩
  · rw [List.mem_filter, hkept, not_or, ← and_assoc]
    refine and_congr_right fun _ => ?_
    cases before[i]? <;> simp
  · refine List.rel_filter ?_ hrecords
    rintro i record ⟨old, hold, h⟩
    show (!before[i]?.any test) = true ↔ (!test record) = true
    rw [hold, Option.any_some, htest old record h]

/-- What remains are records with their positions, in order. -/
theorem exists_pairs (h : Remains stands gone before now) : ∃ pairs : List (Nat × Record),
    now = pairs.map Prod.snd ∧ (pairs.map Prod.fst).Pairwise (· < ·) ∧
      (∀ i, i ∈ pairs.map Prod.fst ↔ i < before.length ∧ ¬ gone i) ∧
      ∀ pair ∈ pairs, ∃ old, before[pair.1]? = some old ∧ stands old pair.2 := by
  obtain ⟨kept, horder, hkept, hrecords⟩ := h
  have hfst : (kept.zip now).map Prod.fst = kept := List.map_fst_zip hrecords.length_eq.le
  have hsnd : (kept.zip now).map Prod.snd = now := List.map_snd_zip hrecords.length_eq.ge
  exact ⟨kept.zip now, hsnd.symm, hfst.symm ▸ horder, fun i => hfst.symm ▸ hkept i,
    fun pair hpair => List.forall₂_zip hrecords hpair⟩

theorem of_pairs {pairs : List (Nat × Record)} (horder : (pairs.map Prod.fst).Pairwise (· < ·))
    (hkept : ∀ i, i ∈ pairs.map Prod.fst ↔ i < before.length ∧ ¬ gone i)
    (hpairs : ∀ pair ∈ pairs, ∃ old, before[pair.1]? = some old ∧ stands old pair.2) :
    Remains stands gone before (pairs.map Prod.snd) := by
  refine ⟨pairs.map Prod.fst, horder, hkept, ?_⟩
  rw [List.forall₂_map_left_iff, List.forall₂_map_right_iff]
  exact List.forall₂_same.mpr hpairs

/-- Taking records out, each as it is by then, adds the positions that they stood at. -/
theorem take (h : Remains stands gone before now) (test : Record → Bool) :
    ∃ taken : Nat → Record → Prop,
      (∀ i record, taken i record → ¬ gone i ∧ record ∈ now ∧ test record = true ∧
        ∃ old, before[i]? = some old ∧ stands old record) ∧
      (∀ record ∈ now, test record = true → ∃ i, taken i record) ∧
      Remains stands (fun i => gone i ∨ ∃ record, taken i record) before
        (now.filter fun record => !test record) := by
  obtain ⟨pairs, rfl, horder, hkept, hpairs⟩ := h.exists_pairs
  refine ⟨fun i record => (i, record) ∈ pairs ∧ test record = true, ?_, ?_, ?_⟩
  · rintro i record ⟨hmem, htest⟩
    have hposition : i ∈ pairs.map Prod.fst := List.mem_map_of_mem hmem
    have hrecord : record ∈ pairs.map Prod.snd := List.mem_map_of_mem hmem
    exact ⟨((hkept i).mp hposition).2, hrecord, htest, hpairs _ hmem⟩
  · intro record hrecord htest
    obtain ⟨⟨i, _⟩, hmem, rfl⟩ := List.mem_map.mp hrecord
    exact ⟨i, hmem, htest⟩
  · have hleft := List.filter_sublist (p := fun pair : Nat × Record => !test pair.2) (l := pairs)
    rw [List.filter_map]
    refine of_pairs (horder.sublist (hleft.map Prod.fst)) (fun i => ?_)
      fun pair hpair => hpairs pair (hleft.subset hpair)
    rw [not_or, ← and_assoc, ← hkept, List.mem_map, List.mem_map]
    constructor
    · rintro ⟨pair, hpair, rfl⟩
      obtain ⟨hmem, hfails⟩ := List.mem_filter.mp hpair
      refine ⟨⟨pair, hmem, rfl⟩, fun ⟨record, htaken, htest⟩ => ?_⟩
      -- no position is there twice, so each shows one record
      have hone : (pair.1, record) = pair := List.inj_on_of_nodup_map
        (horder.imp fun hlt => Nat.ne_of_lt hlt) htaken hmem rfl
      have hpasses : test pair.2 = true := hone ▸ htest
      rw [Function.comp_apply, hpasses] at hfails
      cases hfails
    · rintro ⟨⟨pair, hmem, rfl⟩, huntaken⟩
      refine ⟨pair, List.mem_filter.mpr ⟨hmem, ?_⟩, rfl⟩
      rw [Function.comp_apply, Bool.not_eq_true', ← Bool.not_eq_true]
      exact fun htest => huntaken ⟨pair.2, hmem, htest⟩

/-- Changing records in place leaves all of them where they are. -/
theorem map (h : Remains stands gone before now) {change : Record → Record}
    (hchange : ∀ old record, stands old record → stands old (change record)) :
    Remains stands gone before (now.map change) := by
  obtain ⟨kept, horder, hkept, hrecords⟩ := h
  refine ⟨kept, horder, hkept, List.forall₂_map_right_iff.mpr (hrecords.imp ?_)⟩
  rintro i record ⟨old, hold, h⟩
  exact ⟨old, hold, hchange old record h⟩

end Remains

end RecordStore
