import Mathlib
import RecordStore.Proofs.Comparison
import RecordStore.Proofs.Query.Statistics

/-!
# Least and greatest values

The least value of a field is found in one pass that keeps the best value so far, and so is the
greatest.  What is kept comes before all values that were seen earlier than it and after none that
were seen later, in the order of values of one kind.  So it is the first bound of all of them, and
the bound of the bounds of some parts ties with the bound of the whole.
-/

namespace RecordStore

open Std

namespace Statistic

variable {statistic : Statistic} {wanted : Ordering} {reading : Reading}
variable {cmp : Value → Value → Ordering} {all seen values : List Value} {best v : Value}
variable {model : Model} {name : String} {rows part : List Record} {parts : List (List Record)}

/-- How a value has to compare to the best so far in order to take its place. -/
def wanted? : Statistic → Option Ordering
  | .min => some .lt
  | .max => some .gt
  | _ => none

/-- Whether a value compares to all values, and none of them surpasses it. -/
def isBound (wanted : Ordering) (reading : Reading) (values : List Value) (v : Value) : Bool :=
  values.all fun w => (Value.compare reading v w).any (· != wanted.swap)

/-- The records that hold the statistics of some parts in their field. -/
def ofParts (statistic : Statistic) (model : Model) (parts : List (List Record)) (name : String) :
    List Record :=
  parts.map fun part => [(name, statistic.ofField model part name)]

/-! ## The order of what is wanted -/

/-- An order of some values in which a value surpasses those that it comes before. -/
structure RanksBy (wanted : Ordering) (reading : Reading) (values : List Value)
    (cmp : Value → Value → Ordering) : Prop where
  surpasses : ∀ a ∈ values, ∀ b ∈ values,
    (Value.compare reading a b = some wanted ↔ cmp a b = .lt)
  bounds : ∀ a ∈ values, ∀ b ∈ values,
    ((Value.compare reading a b).any (· != wanted.swap) = true ↔ (cmp a b).isLE = true)
  ties : ∀ a ∈ values, ∀ b ∈ values,
    (Value.compare reading a b = some .eq ↔ cmp a b = .eq)

/-- Least values come first in the order of their kind, and greatest ones in its reverse. -/
theorem exists_ranksBy (hwanted : statistic.wanted? = some wanted)
    (hkind : reading.OfOneKind values) (hpresent : ∀ v ∈ values, v.isNull = false) :
    ∃ cmp, TransCmp cmp ∧ RanksBy wanted reading values cmp := by
  obtain ⟨cmp, _, hcmp⟩ := hkind.exists_transCmp
  have hcompare {a b : Value} (ha : a ∈ values) (hb : b ∈ values) :
      Value.compare reading a b = some (cmp a b) :=
    (hcmp a ha (hpresent a ha) b hb (hpresent b hb)).1
  cases statistic with
  | min =>
      obtain rfl := Option.some.inj hwanted
      refine ⟨cmp, inferInstance, ?_, ?_, ?_⟩
      all_goals
        intro a ha b hb
        rw [hcompare ha hb]
        cases cmp a b <;> decide
  | max =>
      obtain rfl := Option.some.inj hwanted
      have hswap (a b : Value) : cmp a b = (cmp b a).swap := OrientedCmp.eq_swap
      refine ⟨fun a b => cmp b a, inferInstance, ?_, ?_, ?_⟩
      all_goals
        intro a ha b hb
        rw [hcompare ha hb, hswap a b]
        cases cmp b a <;> decide
  | _ => cases hwanted

/-! ## One pass -/

/-- A value that stands among others, comes before all that it follows, and does not come after
    any that follows it. -/
def Foremost (cmp : Value → Value → Ordering) (best : Value) (values : List Value) : Prop :=
  ∃ before after, values = before ++ best :: after ∧
    (∀ u ∈ before, cmp best u = .lt) ∧ ∀ w ∈ after, (cmp best w).isLE = true

theorem Foremost.mem (h : Foremost cmp best values) : best ∈ values := by
  obtain ⟨before, after, rfl, -⟩ := h
  exact List.mem_append_right before List.mem_cons_self

/-- What is foremost comes after no value at all. -/
theorem Foremost.isLE [TransCmp cmp] (h : Foremost cmp best values) :
    ∀ w ∈ values, (cmp best w).isLE = true := by
  obtain ⟨before, after, rfl, hbefore, hafter⟩ := h
  intro w hw
  rcases List.mem_append.mp hw with hw | hw
  · exact Ordering.isLE_of_eq_lt (hbefore w hw)
  · rcases List.mem_cons.mp hw with rfl | hw
    · exact ReflCmp.isLE_rfl
    · exact hafter w hw

/-- What is foremost among some of the values ties with what is foremost among all, if one of the
    former is as good. -/
theorem Foremost.eq_of_subset [TransCmp cmp] {bests : List Value} {a b : Value}
    (ha : Foremost cmp a bests) (hb : Foremost cmp b values) (hsubset : bests ⊆ values)
    (hbests : ∃ u ∈ bests, (cmp u b).isLE = true) : cmp a b = .eq := by
  obtain ⟨u, hu, hle⟩ := hbests
  exact OrientedCmp.isLE_antisymm (TransCmp.isLE_trans (ha.isLE u hu) hle)
    (hb.isLE a (hsubset ha.mem))

/-- One more value takes the place of the foremost one if it surpasses it. -/
theorem Foremost.step [TransCmp cmp] (hranks : RanksBy wanted reading all cmp)
    (h : Foremost cmp best seen) (hbest : best ∈ all) (hv : v ∈ all) :
    Foremost cmp (if Value.compare reading v best == some wanted then v else best)
      (seen ++ [v]) := by
  by_cases hsurpass : Value.compare reading v best = some wanted
  · rw [if_pos (beq_iff_eq.mpr hsurpass)]
    have hlt := (hranks.surpasses v hv best hbest).mp hsurpass
    exact ⟨seen, [], rfl, fun u hu => TransCmp.lt_of_lt_of_isLE hlt (h.isLE u hu), nofun⟩
  · rw [if_neg fun heq => hsurpass (beq_iff_eq.mp heq)]
    rw [hranks.surpasses v hv best hbest] at hsurpass
    obtain ⟨before, after, rfl, hbefore, hafter⟩ := h
    refine ⟨before, after ++ [v], by simp, hbefore, fun w hw => ?_⟩
    rcases List.mem_append.mp hw with hw | hw
    · exact hafter w hw
    · obtain rfl := List.mem_singleton.mp hw
      have hswap : cmp best w = (cmp w best).swap := OrientedCmp.eq_swap
      rw [hswap, Ordering.isLE_swap]
      cases horder : cmp w best with
      | lt => exact absurd horder hsurpass
      | eq | gt => rfl

/-- The best of some values is the foremost one. -/
theorem foremost_extreme [TransCmp cmp] (hranks : RanksBy wanted reading all cmp)
    (hall : values ⊆ all) (hne : values ≠ []) :
    Foremost cmp (extreme wanted reading values) values := by
  -- what has been seen grows by one value a turn, and the best so far is foremost in it
  have hpass : ∀ (rest seen : List Value) (best : Value), seen ⊆ all → rest ⊆ all →
      Foremost cmp best seen →
      Foremost cmp (rest.foldl (fun best v =>
        if Value.compare reading v best == some wanted then v else best) best) (seen ++ rest) := by
    intro rest
    induction rest with
    | nil =>
        intro seen best _ _ h
        rwa [List.append_nil]
    | cons v rest ih =>
        intro seen best hseen hrest h
        obtain ⟨hv, hrest⟩ := List.cons_subset.mp hrest
        rw [List.foldl_cons, List.append_cons]
        exact ih _ _ (List.append_subset.mpr ⟨hseen, List.cons_subset.mpr ⟨hv, List.nil_subset _⟩⟩)
          hrest (h.step hranks (hseen h.mem) hv)
  cases values with
  | nil => exact absurd rfl hne
  | cons first rest =>
      obtain ⟨hfirst, hrest⟩ := List.cons_subset.mp hall
      exact hpass rest [first] first (List.cons_subset.mpr ⟨hfirst, List.nil_subset _⟩) hrest
        ⟨[], [], rfl, nofun, nofun⟩

/-- A value is foremost exactly as it is the first bound. -/
theorem find?_isBound_of_foremost [TransCmp cmp] (hranks : RanksBy wanted reading values cmp)
    (h : Foremost cmp best values) :
    values.find? (isBound wanted reading values) = some best := by
  have hbound {v : Value} (hv : v ∈ values) :
      isBound wanted reading values v = true ↔ ∀ w ∈ values, (cmp v w).isLE = true := by
    rw [isBound, List.all_eq_true]
    exact forall₂_congr fun w hw => hranks.bounds v hv w hw
  obtain ⟨before, after, hsplit, hbefore, -⟩ := id h
  refine List.find?_eq_some_iff_append.mpr
    ⟨(hbound h.mem).mpr h.isLE, before, after, hsplit, fun u hu => ?_⟩
  have hu' : u ∈ values := hsplit ▸ List.mem_append_left _ hu
  rw [Bool.not_eq_true', Bool.eq_false_iff, ne_eq, hbound hu']
  intro hle
  have hgt : cmp u best = .gt := OrientedCmp.gt_of_lt (hbefore u hu)
  exact absurd (hle best h.mem) (by rw [hgt]; decide)

/-! ## Values of parts -/

theorem mem_presentValues :
    v ∈ presentValues name rows ↔
      (∃ record ∈ rows, Entries.get? name record = some v) ∧ v.isNull = false := by
  rw [presentValues, List.mem_filter, List.mem_filterMap, Bool.not_eq_true']

theorem isNull_of_mem_presentValues (h : v ∈ presentValues name rows) : v.isNull = false :=
  (mem_presentValues.mp h).2

/-- The whole has the values of its parts. -/
theorem mem_presentValues_iff_of_perm (hparts : parts.flatten.Perm rows) :
    v ∈ presentValues name rows ↔ ∃ part ∈ parts, v ∈ presentValues name part := by
  simp only [mem_presentValues, ← hparts.mem_iff, List.mem_flatten]
  tauto

theorem presentValues_subset_of_perm (hparts : parts.flatten.Perm rows) (hpart : part ∈ parts) :
    presentValues name part ⊆ presentValues name rows := fun _ hv =>
  (mem_presentValues_iff_of_perm hparts).mpr ⟨part, hpart, hv⟩

/-- The values of the records of some parts are the statistics that are not null. -/
theorem mem_presentValues_ofParts :
    v ∈ presentValues name (statistic.ofParts model parts name) ↔
      (∃ part ∈ parts, statistic.ofField model part name = v) ∧ v.isNull = false := by
  simp [mem_presentValues, ofParts, Entries.get?]

/-- The bounds of a field are the best of its values. -/
theorem ofField_eq_extreme (hwanted : statistic.wanted? = some wanted) (model : Model)
    (rows : List Record) (name : String) :
    statistic.ofField model rows name =
      extreme wanted (model.readingOf name) (presentValues name rows) := by
  cases statistic with
  | min | max =>
      obtain rfl := Option.some.inj hwanted
      rfl
  | _ => cases hwanted

theorem foremost_ofField [TransCmp cmp] (hwanted : statistic.wanted? = some wanted)
    (hranks : RanksBy wanted (model.readingOf name) all cmp) (hall : presentValues name rows ⊆ all)
    (hne : presentValues name rows ≠ []) :
    Foremost cmp (statistic.ofField model rows name) (presentValues name rows) := by
  rw [ofField_eq_extreme hwanted]
  exact foremost_extreme hranks hall hne

/-- The best of a part that has one is a value of the whole. -/
theorem presentValues_ofParts_subset [TransCmp cmp] (hwanted : statistic.wanted? = some wanted)
    (hranks : RanksBy wanted (model.readingOf name) (presentValues name rows) cmp)
    (hparts : parts.flatten.Perm rows) :
    presentValues name (statistic.ofParts model parts name) ⊆ presentValues name rows := by
  intro v hv
  obtain ⟨⟨part, hmem, rfl⟩, hnull⟩ := mem_presentValues_ofParts.mp hv
  have hpart : presentValues name part ⊆ presentValues name rows :=
    presentValues_subset_of_perm hparts hmem
  refine hpart (foremost_ofField hwanted hranks hpart fun hnil => ?_).mem
  rw [ofField_eq_extreme hwanted, hnil] at hnull
  cases hnull

/-- Every value of the whole stands in a part, whose best is as good. -/
theorem exists_isLE_of_ofParts [TransCmp cmp] (hwanted : statistic.wanted? = some wanted)
    (hranks : RanksBy wanted (model.readingOf name) (presentValues name rows) cmp)
    (hparts : parts.flatten.Perm rows) (hv : v ∈ presentValues name rows) :
    ∃ u ∈ presentValues name (statistic.ofParts model parts name), (cmp u v).isLE = true := by
  obtain ⟨part, hmem, hheld⟩ := (mem_presentValues_iff_of_perm hparts).mp hv
  have hbest := foremost_ofField hwanted hranks (presentValues_subset_of_perm hparts hmem)
    (List.ne_nil_of_mem hheld)
  exact ⟨_, mem_presentValues_ofParts.mpr
    ⟨⟨part, hmem, rfl⟩, isNull_of_mem_presentValues hbest.mem⟩, hbest.isLE v hheld⟩

/-- **Least and greatest values are bounds, and they combine.**  The least value of a field, if its
    values are of one kind, is the first in the order of the records that is not greater than any
    other, and the greatest the first that is not less.  It is not null, and however the records
    are parted, the least of the least values of the parts ties with it, and so does the greatest
    of the greatest. -/
theorem first_bound_and_combines (hwanted : statistic.wanted? = some wanted)
    (hne : presentValues name rows ≠ [])
    (hkind : (model.readingOf name).OfOneKind (presentValues name rows)) :
    (presentValues name rows).find?
        (isBound wanted (model.readingOf name) (presentValues name rows)) =
      some (statistic.ofField model rows name) ∧
    (statistic.ofField model rows name).isNull = false ∧
    ∀ parts : List (List Record), parts.flatten.Perm rows →
      Value.compare (model.readingOf name)
        (statistic.ofField model (statistic.ofParts model parts name) name)
        (statistic.ofField model rows name) = some .eq := by
  obtain ⟨cmp, _, hranks⟩ :=
    exists_ranksBy hwanted hkind fun _ hv => isNull_of_mem_presentValues hv
  have hwhole := foremost_ofField hwanted hranks (List.Subset.refl _) hne
  refine ⟨find?_isBound_of_foremost hranks hwhole, isNull_of_mem_presentValues hwhole.mem,
    fun parts hparts => ?_⟩
  have hsubset := presentValues_ofParts_subset hwanted hranks hparts
  have hbests := exists_isLE_of_ofParts hwanted hranks hparts hwhole.mem
  obtain ⟨best, hbest, -⟩ := id hbests
  have hcombined := foremost_ofField hwanted hranks hsubset (List.ne_nil_of_mem hbest)
  exact (hranks.ties _ (hsubset hcombined.mem) _ hwhole.mem).mpr
    (hcombined.eq_of_subset hwhole hsubset hbests)

end Statistic

namespace Expenses

open Statistic

/-- Entries whose amounts are numbers or digits. -/
def entry : Model where
  name := "Entry"
  fields := [{ name := "amount", kind := .scalar, typeName := "BigInt" }]

def rent : Record := [("amount", .string "30000000000000000000")]
def unpaid : Record := [("amount", .null)]
def tea : Record := [("amount", .integer 7)]
def bus : Record := [("amount", .string "007")]

/-- The least amount is the first of the two that tie, and the other one when the part of the other
    one comes first. -/
theorem least_amount_of_parts :
    presentValues "amount" [rent, unpaid, tea, bus] =
      [.string "30000000000000000000", .integer 7, .string "007"] ∧
    (entry.readingOf "amount").OfOneKind (presentValues "amount" [rent, unpaid, tea, bus]) ∧
    [[bus], [], [rent, unpaid, tea]].flatten.Perm [rent, unpaid, tea, bus] ∧
    Statistic.min.ofField entry [rent, unpaid, tea, bus] "amount" = .integer 7 ∧
    (presentValues "amount" [rent, unpaid, tea, bus]).find?
        (isBound .lt (entry.readingOf "amount")
          (presentValues "amount" [rent, unpaid, tea, bus])) = some (.integer 7) ∧
    (Value.integer 7).isNull = false ∧
    Statistic.min.ofField entry
      (Statistic.min.ofParts entry [[bus], [], [rent, unpaid, tea]] "amount") "amount" =
        .string "007" ∧
    Value.compare (entry.readingOf "amount") (.string "007") (.integer 7) = some .eq := by
  have hvalues : presentValues "amount" [rent, unpaid, tea, bus] =
      [.string "30000000000000000000", .integer 7, .string "007"] := by cbv
  have hkind : (entry.readingOf "amount").OfOneKind
      (presentValues "amount" [rent, unpaid, tea, bus]) := by
    have hreading : entry.readingOf "amount" = .integer := by cbv
    rw [hreading, hvalues]
    simp only [Reading.OfOneKind, Value.AllRead]
    rw [List.forall_mem_cons, List.forall_mem_cons, List.forall_mem_singleton]
    exact ⟨fun _ => by cbv, fun _ => by cbv, fun _ => by cbv⟩
  have hparts : [[bus], [], [rent, unpaid, tea]].flatten.Perm [rent, unpaid, tea, bus] :=
    (List.perm_append_singleton bus [rent, unpaid, tea]).symm
  have hleast : Statistic.min.ofField entry [rent, unpaid, tea, bus] "amount" = .integer 7 := by
    cbv
  have hleasts : Statistic.min.ofField entry
      (Statistic.min.ofParts entry [[bus], [], [rent, unpaid, tea]] "amount") "amount" =
        .string "007" := by cbv
  obtain ⟨hfirst, hnull, hcombines⟩ := first_bound_and_combines
    (show Statistic.min.wanted? = some .lt from rfl) (hvalues ▸ List.cons_ne_nil _ _) hkind
  have htie := hcombines _ hparts
  rw [hleast] at hfirst hnull htie
  rw [hleasts] at htie
  exact ⟨hvalues, hkind, hparts, hleast, hfirst, hnull, hleasts, htie⟩

end Expenses

end RecordStore
