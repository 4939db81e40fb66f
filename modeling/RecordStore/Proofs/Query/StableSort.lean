import RecordStore.Query.Order
import Mathlib.Data.List.Induction
import Mathlib.Data.List.Pairwise
import Mathlib.Order.Compare

/-!
# Stable sorting

Under a comparison that is a total preorder, sorting gives a permutation that stands in order and
keeps elements that tie in the order in which they came.  No other list does the same, and so a
sort by one comparison after another, the least important one first, is a sort by all of them.
-/

namespace RecordStore.StableSort

open Std

variable {α β : Type} {cmp next : α → α → Ordering} {x y : α} {xs ys zs : List α}

/-- Sorts by a comparison, smaller elements first. -/
def ordered (cmp : α → α → Ordering) (xs : List α) : List α :=
  sort (fun a b => cmp a b == .lt) xs

/-- The elements that tie with a given one. -/
def ties (cmp : α → α → Ordering) (x : α) (xs : List α) : List α :=
  xs.filter fun y => cmp x y == .eq

/-- A list is another one in order, with all ties left as they came. -/
structure IsStable (cmp : α → α → Ordering) (xs ys : List α) : Prop where
  perm : ys.Perm xs
  ascends : ys.Pairwise fun a b => (cmp a b).isLE = true
  stable : ∀ x, ties cmp x ys = ties cmp x xs

/-- The items that tie with one are those of the list that compare equal to it. -/
theorem mem_ties : y ∈ ties cmp x xs ↔ y ∈ xs ∧ cmp x y = .eq := by
  rw [ties, List.mem_filter, beq_iff_eq]

theorem ties_cons_of_tie (h : cmp x y = .eq) : ties cmp x (y :: xs) = y :: ties cmp x xs :=
  List.filter_cons_of_pos (beq_iff_eq.mpr h)

theorem ties_cons_of_apart (h : cmp x y ≠ .eq) : ties cmp x (y :: xs) = ties cmp x xs :=
  List.filter_cons_of_neg (mt beq_iff_eq.mp h)

/-! ## What an insertion does -/

/-- To insert an item changes nothing but the order. -/
theorem perm_insertDescending (before : α → α → Bool) (x : α) (xs : List α) :
    (insertDescending before x xs).Perm (x :: xs) := by
  induction xs with
  | nil => exact .refl _
  | cons y rest ih =>
      rw [insertDescending]
      split
      · exact (ih.cons y).trans (.swap x y rest)
      · exact .refl _

/-- Nothing that a new element has to stand behind comes before it in a descending list. -/
theorem descends_insertDescending [TransCmp cmp]
    (h : xs.Pairwise fun a b => (cmp b a).isLE = true) (x : α) :
    (insertDescending (fun a b => cmp a b == .lt) x xs).Pairwise
      fun a b => (cmp b a).isLE = true := by
  induction h with
  | nil => exact List.pairwise_singleton _ _
  | @cons y rest hy hrest ih =>
      rw [insertDescending]
      cases hcmp : cmp x y == .lt with
      | true =>
          have hlt : cmp x y = .lt := beq_iff_eq.mp hcmp
          refine .cons (fun other hother => ?_) ih
          rcases List.mem_cons.mp ((perm_insertDescending _ _ _).mem_iff.mp hother) with
            rfl | hmem
          · rw [hlt]; rfl
          · exact hy other hmem
      | false =>
          have hle : (cmp y x).isLE = true := by
            cases hxy : cmp x y with
            | lt => rw [hxy] at hcmp; cases hcmp
            | eq => rw [OrientedCmp.eq_comm.mp hxy]; rfl
            | gt => rw [OrientedCmp.lt_of_gt hxy]; rfl
          refine .cons (fun other hother => ?_) (.cons hy hrest)
          rcases List.mem_cons.mp hother with rfl | hmem
          · exact hle
          · exact TransCmp.isLE_trans (hy other hmem) hle

/-- An element goes in front of all elements that it ties with. -/
theorem ties_insertDescending [TransCmp cmp] (x y : α) (xs : List α) :
    ties cmp y (insertDescending (fun a b => cmp a b == .lt) x xs) = ties cmp y (x :: xs) := by
  induction xs with
  | nil => rfl
  | cons z rest ih =>
      rw [insertDescending]
      cases hcmp : cmp x z == .lt with
      | false => rfl
      | true =>
          -- the two do not tie, so that at most one of them is kept
          have hone : cmp y x = .eq → cmp y z ≠ .eq := by
            intro hx hz
            have htie := TransCmp.eq_trans (OrientedCmp.eq_symm hx) hz
            rw [beq_iff_eq.mp hcmp] at htie
            cases htie
          rw [if_pos rfl]
          by_cases hz : cmp y z = .eq
          · have hx : cmp y x ≠ .eq := fun hx => hone hx hz
            rw [ties_cons_of_tie hz, ih, ties_cons_of_apart hx, ties_cons_of_apart hx,
              ties_cons_of_tie hz]
          · rw [ties_cons_of_apart hz, ih]
            by_cases hx : cmp y x = .eq
            · rw [ties_cons_of_tie hx, ties_cons_of_tie hx, ties_cons_of_apart hz]
            · rw [ties_cons_of_apart hx, ties_cons_of_apart hx, ties_cons_of_apart hz]

/-! ## What a sort does -/

/-- The last element is inserted into what the others have been sorted into. -/
theorem sort_append_singleton (before : α → α → Bool) (xs : List α) (x : α) :
    (sort before (xs ++ [x])).reverse =
      insertDescending before x (sort before xs).reverse := by
  rw [sort, sort, List.reverse_reverse, List.reverse_reverse, List.foldl_append]
  rfl

/-- **Sorting is stable**: it gives a permutation in order, and keeps the order of ties. -/
theorem isStable_ordered (cmp : α → α → Ordering) [TransCmp cmp] (xs : List α) :
    IsStable cmp xs (ordered cmp xs) := by
  -- each insertion keeps the reversed list descending, with the reversed ties
  have hreversed : (ordered cmp xs).reverse.Perm xs.reverse ∧
      ((ordered cmp xs).reverse.Pairwise fun a b => (cmp b a).isLE = true) ∧
      ∀ y, ties cmp y (ordered cmp xs).reverse = ties cmp y xs.reverse := by
    induction xs using List.reverseRecOn with
    | nil => exact ⟨.refl _, .nil, fun _ => rfl⟩
    | append_singleton xs x ih =>
        obtain ⟨hperm, hdescends, hties⟩ := ih
        rw [ordered, sort_append_singleton, List.reverse_append]
        refine ⟨(perm_insertDescending _ x _).trans (hperm.cons x),
          descends_insertDescending hdescends x, fun y => ?_⟩
        rw [ties_insertDescending, List.reverse_singleton, List.singleton_append]
        by_cases hx : cmp y x = .eq
        · rw [ties_cons_of_tie hx, ties_cons_of_tie hx]
          exact congrArg _ (hties y)
        · rw [ties_cons_of_apart hx, ties_cons_of_apart hx]
          exact hties y
  obtain ⟨hperm, hdescends, hties⟩ := hreversed
  constructor
  case perm => exact (List.reverse_perm _).symm.trans (hperm.trans (List.reverse_perm _))
  case ascends => exact List.pairwise_reverse.mp hdescends
  case stable =>
    intro y
    have hrev := hties y
    rw [ties, ties, List.filter_reverse, List.filter_reverse] at hrev
    exact List.reverse_inj.mp hrev

/-- There is one way only to put a list in order and to keep its ties. -/
theorem IsStable.unique [TransCmp cmp] (hy : IsStable cmp xs ys) (hz : IsStable cmp xs zs) :
    ys = zs := by
  have hties : ∀ x, ties cmp x ys = ties cmp x zs := fun x =>
    (hy.stable x).trans (hz.stable x).symm
  have hself : ∀ (x : α) (xs : List α), ties cmp x (x :: xs) = x :: ties cmp x xs :=
    fun _ _ => ties_cons_of_tie ReflCmp.compare_self
  have hascends := hz.ascends
  replace hy := hy.ascends
  clear hz
  induction hy generalizing zs with
  | nil =>
      cases zs with
      | nil => rfl
      | cons z rest =>
          have hnone := hties z
          rw [hself] at hnone
          cases hnone
  | @cons y ys hle _ ih =>
      cases hascends with
      | nil =>
          have hnone := hties y
          rw [hself] at hnone
          cases hnone
      | @cons z zs hle' hascends =>
          -- each head is an element of the other list, so that neither comes before the other
          have hmem (x : α) : x ∈ y :: ys ↔ x ∈ z :: zs := by
            constructor <;> intro h <;>
              have htie := mem_ties.mpr ⟨h, (ReflCmp.compare_self : cmp x x = .eq)⟩
            · exact (mem_ties.mp (hties x ▸ htie)).1
            · exact (mem_ties.mp ((hties x).symm ▸ htie)).1
          have hrefl (x : α) : (cmp x x).isLE = true :=
            (ReflCmp.compare_self : cmp x x = .eq).symm ▸ rfl
          have hyz : (cmp y z).isLE = true := by
            rcases List.mem_cons.mp ((hmem z).mpr List.mem_cons_self) with rfl | hlater
            · exact hrefl z
            · exact hle z hlater
          have hzy : (cmp z y).isLE = true := by
            rcases List.mem_cons.mp ((hmem y).mp List.mem_cons_self) with rfl | hlater
            · exact hrefl y
            · exact hle' y hlater
          have hheads := hties y
          rw [hself, ties_cons_of_tie (OrientedCmp.isLE_antisymm hyz hzy)] at hheads
          obtain rfl : y = z := (List.cons.inj hheads).1
          refine congrArg (y :: ·) (ih (fun x => ?_) hascends)
          have htails := hties x
          by_cases hx : cmp x y = .eq
          · rw [ties_cons_of_tie hx, ties_cons_of_tie hx] at htails
            exact (List.cons.inj htails).2
          · rwa [ties_cons_of_apart hx, ties_cons_of_apart hx] at htails

/-! ## One comparison after another -/

/-- A list in order by a less important comparison, sorted by a more important one, is in order by
    both. -/
theorem IsStable.then [TransCmp cmp] [TransCmp next] (hnext : IsStable next xs ys)
    (hfirst : IsStable cmp ys zs) : IsStable (compareLex cmp next) xs zs := by
  have hties : ∀ x (xs : List α),
      ties (compareLex cmp next) x xs = ties cmp x (ties next x xs) := by
    intro x xs
    rw [ties, ties, ties, List.filter_filter]
    refine List.filter_congr fun y _ => ?_
    rw [Bool.eq_iff_iff, Bool.and_eq_true, beq_iff_eq, beq_iff_eq, beq_iff_eq]
    exact Ordering.then_eq_eq
  have hcomm : ∀ x (xs : List α), ties cmp x (ties next x xs) = ties next x (ties cmp x xs) := by
    intro x xs
    rw [ties, ties, ties, ties, List.filter_filter, List.filter_filter]
    exact List.filter_congr fun y _ => Bool.and_comm _ _
  constructor
  case perm => exact hfirst.perm.trans hnext.perm
  case ascends =>
    rw [List.pairwise_iff_forall_sublist]
    intro a b hsub
    refine Ordering.isLE_then_iff_or.mpr ?_
    have hle : (cmp a b).isLE = true := List.pairwise_iff_forall_sublist.mp hfirst.ascends hsub
    cases hcmp : cmp a b with
    | lt => exact .inl rfl
    | gt => rw [hcmp] at hle; cases hle
    | eq =>
        -- the two stand in the order that the first sort has left them in
        refine .inr ⟨rfl, ?_⟩
        have hkept : [a, b].Sublist (ties cmp a zs) := by
          have := hsub.filter fun y => cmp a y == .eq
          rwa [← ties, ← ties, ties_cons_of_tie ReflCmp.compare_self, ties_cons_of_tie hcmp] at this
        rw [hfirst.stable] at hkept
        exact List.pairwise_iff_forall_sublist.mp hnext.ascends
          (hkept.trans List.filter_sublist)
  case stable =>
    intro x
    rw [hties, hties, hcomm, hfirst.stable, ← hcomm, hnext.stable]

/-- Comparisons in order of importance; the first one that does not tie decides. -/
def lexicographic (cmps : List (α → α → Ordering)) : α → α → Ordering :=
  cmps.foldr compareLex fun _ _ => .eq

instance transCmp_lexicographic_nil : TransCmp (lexicographic ([] : List (α → α → Ordering))) where
  eq_swap := rfl
  isLE_trans _ _ := rfl

/-- Orders that are transitive one by one are so one after the other. -/
theorem transCmp_lexicographic {cmps : List (α → α → Ordering)}
    (h : ∀ cmp ∈ cmps, TransCmp cmp) : TransCmp (lexicographic cmps) := by
  induction cmps with
  | nil => infer_instance
  | cons cmp rest ih =>
      obtain ⟨hcmp, hrest⟩ := List.forall_mem_cons.mp h
      have := ih hrest
      exact inferInstanceAs (TransCmp (compareLex cmp (lexicographic rest)))

/-- Sorting by all comparisons is sorting by one after another, from the last to the first. -/
theorem ordered_lexicographic {cmps : List (α → α → Ordering)} (h : ∀ cmp ∈ cmps, TransCmp cmp)
    (xs : List α) :
    ordered (lexicographic cmps) xs = cmps.foldr (fun cmp sorted => ordered cmp sorted) xs := by
  induction cmps with
  | nil =>
      refine (isStable_ordered (lexicographic []) xs).unique ⟨.refl _, ?_, fun _ => rfl⟩
      exact List.pairwise_of_forall fun _ _ => rfl
  | cons cmp rest ih =>
      obtain ⟨hcmp, hrest⟩ := List.forall_mem_cons.mp h
      have := transCmp_lexicographic h
      have := transCmp_lexicographic hrest
      rw [List.foldr_cons, ← ih hrest]
      exact (isStable_ordered (lexicographic (cmp :: rest)) xs).unique
        ((isStable_ordered (lexicographic rest) xs).then (isStable_ordered cmp _))

/-! ## Elements that show others -/

/-- What orders others orders all that shows them. -/
theorem transCmp_comap (cmp : β → β → Ordering) [TransCmp cmp] (f : α → β) :
    TransCmp fun a b => cmp (f a) (f b) where
  eq_swap := OrientedCmp.eq_swap
  isLE_trans := TransCmp.isLE_trans

/-- To insert and to map come to the same in either order. -/
theorem insertDescending_map (before : β → β → Bool) (f : α → β) (x : α) (xs : List α) :
    insertDescending before (f x) (xs.map f) =
      (insertDescending (fun a b => before (f a) (f b)) x xs).map f := by
  induction xs with
  | nil => rfl
  | cons y rest ih =>
      rw [List.map_cons, insertDescending, insertDescending, ih]
      split <;> rfl

/-- Elements are sorted as what they show is. -/
theorem sort_map (before : β → β → Bool) (f : α → β) (xs : List α) :
    sort before (xs.map f) = (sort (fun a b => before (f a) (f b)) xs).map f := by
  induction xs using List.reverseRecOn with
  | nil => rfl
  | append_singleton xs x ih =>
      refine List.reverse_inj.mp ?_
      rw [List.map_append, List.map_singleton, sort_append_singleton, ih, ← List.map_reverse,
        insertDescending_map, ← sort_append_singleton, List.map_reverse]

/-- What ties after a map ties under the order that the map gives. -/
theorem ties_map (cmp : β → β → Ordering) (f : α → β) (x : α) (xs : List α) :
    ties cmp (f x) (xs.map f) = (ties (fun a b => cmp (f a) (f b)) x xs).map f :=
  List.filter_map

theorem lexicographic_map (cmps : List (β → β → Ordering)) (f : α → β) (a b : α) :
    lexicographic cmps (f a) (f b) =
      lexicographic (cmps.map fun cmp a b => cmp (f a) (f b)) a b := by
  induction cmps with
  | nil => rfl
  | cons cmp rest ih => exact congrArg (cmp (f a) (f b)).then ih

/-! ## Elements that can be compared with each other -/

/-- Sorting by comparisons that order the elements of a list gives a permutation in order, keeps
    the order of ties, and is sorting by one comparison after another. -/
structure Sorts (cmps : List (α → α → Ordering)) (xs ys : List α) : Prop where
  perm : ys.Perm xs
  ascends : ys.Pairwise fun a b => (lexicographic cmps a b).isLE = true
  stable : ∀ x ∈ xs, ties (lexicographic cmps) x ys = ties (lexicographic cmps) x xs
  successive : ys = cmps.foldr (fun cmp sorted => ordered cmp sorted) xs

/-- It is enough that the comparisons order what is sorted. -/
theorem sorts_ordered {cmps : List (α → α → Ordering)}
    (h : ∀ cmp ∈ cmps, TransCmp fun a b : { x // x ∈ xs } => cmp a b) :
    Sorts cmps xs (ordered (lexicographic cmps) xs) := by
  -- the elements with the fact that they are in the list are all comparable
  let inside : List ({ x // x ∈ xs } → { x // x ∈ xs } → Ordering) :=
    cmps.map fun cmp a b => cmp a b
  have hinside : ∀ cmp ∈ inside, TransCmp cmp := by
    intro cmp hcmp
    obtain ⟨outer, houter, rfl⟩ := List.mem_map.mp hcmp
    exact h outer houter
  let both (a b : { x // x ∈ xs }) : Ordering := lexicographic cmps a b
  have hlex : both = lexicographic inside :=
    funext fun a => funext fun b => lexicographic_map cmps Subtype.val a b
  have : TransCmp both := hlex ▸ transCmp_lexicographic hinside
  have hlist : xs.attach.map Subtype.val = xs := List.attach_map_subtype_val xs
  have hsort : ordered (lexicographic cmps) xs = (ordered both xs.attach).map Subtype.val := by
    rw [ordered, ordered, ← sort_map (fun a b => lexicographic cmps a b == .lt), hlist]
  obtain ⟨hperm, hascends, hstable⟩ := isStable_ordered both xs.attach
  rw [hsort]
  constructor
  case perm =>
    have := hperm.map Subtype.val
    rwa [hlist] at this
  case ascends => exact List.pairwise_map.mpr hascends
  case stable =>
    intro x hx
    have htie := congrArg (List.map Subtype.val) (hstable ⟨x, hx⟩)
    rwa [← ties_map (lexicographic cmps), ← ties_map (lexicographic cmps), hlist] at htie
  case successive =>
    have hfold : ∀ (cmps : List (α → α → Ordering)) (ys : List { x // x ∈ xs }),
        ((cmps.map fun cmp (a b : { x // x ∈ xs }) => cmp a b).foldr
          (fun cmp sorted => ordered cmp sorted) ys).map Subtype.val =
            cmps.foldr (fun cmp sorted => ordered cmp sorted) (ys.map Subtype.val) := by
      intro cmps ys
      induction cmps with
      | nil => rfl
      | cons cmp rest ih =>
          rw [List.map_cons, List.foldr_cons, List.foldr_cons, ← ih, ordered, ordered,
            sort_map]
    rw [hlex, ordered_lexicographic hinside, hfold, hlist]

end RecordStore.StableSort
