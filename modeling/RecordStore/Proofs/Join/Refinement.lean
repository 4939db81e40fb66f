import RecordStore.Proofs.Join.Ids

/-!
# Joins as sets of pairs

Whatever is done to the joins of a schema, each of them holds a set of directed pairs, in the order
in which they were last inserted.  The set is described on its own, by the moment of the last
insertion of each of its pairs, without lists and without the test by which the joins look for a
pair.
-/

namespace RecordStore

/-! ## What is done to joins -/

/-- A change of the joins: records linked or parted as seen from a side, a record removed from all
    joins, or all of them emptied. -/
inductive JoinOperation where
  | connect (name : String) (side : Side) (id targets : Value)
  | disconnect (name : String) (side : Side) (id targets : Value)
  | cleanup (model : String) (id : Value)
  | reset

namespace JoinOperation

/-- The records that an operation names are named by ids. -/
def HasIds : JoinOperation → Prop
  | .connect _ _ id targets => id.isId = true ∧ ∀ target ∈ targets.elements, target.isId = true
  | .disconnect _ _ id targets => id.isId = true ∧ ∀ target ∈ targets.elements, target.isId = true
  | .cleanup _ id => id.isId = true
  | .reset => True

instance : DecidablePred HasIds
  | .connect _ _ id targets =>
      inferInstanceAs (Decidable (id.isId = true ∧ ∀ target ∈ targets.elements,
        target.isId = true))
  | .disconnect _ _ id targets =>
      inferInstanceAs (Decidable (id.isId = true ∧ ∀ target ∈ targets.elements,
        target.isId = true))
  | .cleanup _ id => inferInstanceAs (Decidable (id.isId = true))
  | .reset => inferInstanceAs (Decidable True)

end JoinOperation

namespace Joins

/-- The joins after an operation. -/
def apply (joins : Joins) : JoinOperation → Joins
  | .connect name side id targets => joins.connect name side id targets
  | .disconnect name side id targets => joins.disconnect name side id targets
  | .cleanup model id => joins.cleanup model id
  | .reset => joins.reset

/-- The joins after a sequence of operations. -/
def run (joins : Joins) (operations : List JoinOperation) : Joins := operations.foldl apply joins

end Joins

/-! ## Sets of pairs -/

/-- A set of pairs that knows when each of its pairs was last inserted; none for a pair that is
    not in the set. -/
structure PairSet where
  moment : Nat
  since : Link → Option Nat

namespace PairSet

def empty : PairSet := ⟨0, fun _ => none⟩

open Classical in
/-- A set with a pair.  A pair that is there already is not inserted again. -/
noncomputable def add (s : PairSet) (pair : Link) : PairSet where
  moment := s.moment + 1
  since other := if other = pair then some ((s.since pair).getD s.moment) else s.since other

open Classical in
/-- A set without some pairs. -/
noncomputable def remove (s : PairSet) (gone : Link → Prop) : PairSet where
  moment := s.moment
  since other := if gone other then none else s.since other

theorem since_add_self (s : PairSet) (pair : Link) :
    (s.add pair).since pair = some ((s.since pair).getD s.moment) := if_pos rfl

theorem since_add_of_ne (s : PairSet) {pair other : Link} (h : other ≠ pair) :
    (s.add pair).since other = s.since other := if_neg h

theorem since_remove_of (s : PairSet) {gone : Link → Prop} {link : Link} (h : gone link) :
    (s.remove gone).since link = none := if_pos h

theorem since_remove_of_not (s : PairSet) {gone : Link → Prop} {link : Link} (h : ¬gone link) :
    (s.remove gone).since link = s.since link := if_neg h

/-- The pair of a record of one side and a target of the other side. -/
def pair (a side : Side) (id target : Value) : Link :=
  if a = side then ⟨id, target⟩ else ⟨target, id⟩

/-- A pair of ids is one between ids. -/
theorem pair_isId (a side : Side) {id target : Value} (hid : id.isId = true)
    (htarget : target.isId = true) :
    (pair a side id target).a.isId = true ∧ (pair a side id target).b.isId = true := by
  unfold pair
  split
  · exact ⟨hid, htarget⟩
  · exact ⟨htarget, hid⟩

/-- What an operation does to the set of the relationship of a name with sides `a` and `b`. -/
noncomputable def apply (name : String) (a b : Side) (s : PairSet) : JoinOperation → PairSet
  | .connect joinName side id targets =>
      if joinName = name then
        targets.elements.foldl (fun s target => s.add (pair a side id target)) s
      else s
  | .disconnect joinName side id targets =>
      if joinName = name then
        targets.elements.foldl (fun s target => s.remove (· = pair a side id target)) s
      else s
  | .cleanup model id =>
      s.remove fun p => (a.model = model ∧ p.a = id) ∨ (b.model = model ∧ p.b = id)
  | .reset => s.remove fun _ => True

end PairSet

/-- Links list a set of pairs: all of its pairs and no others, none of them twice, in the order of
    their last insertion. -/
structure Lists (links : List Link) (s : PairSet) : Prop where
  nodup : links.Nodup
  mem_iff : ∀ link, link ∈ links ↔ (s.since link).isSome = true
  ordered : links.Pairwise fun x y => ∃ m n, s.since x = some m ∧ s.since y = some n ∧ m < n

/-- Between operations, all moments are past and all links are between ids. -/
structure Tracks (links : List Link) (s : PairSet) : Prop extends Lists links s where
  past : ∀ link m, s.since link = some m → m < s.moment
  ids : ∀ link ∈ links, link.a.isId = true ∧ link.b.isId = true

namespace Link

/-- On ids, the test for a link is equality. -/
theorem same_iff {x y : Link} (hx : x.a.isId = true ∧ x.b.isId = true)
    (hy : y.a.isId = true ∧ y.b.isId = true) : x.same y = true ↔ x = y := by
  unfold same
  rw [Bool.and_eq_true, sameId_iff hx.1 hy.1, sameId_iff hx.2 hy.2]
  exact ⟨fun h => by cases x; cases y; simp_all, fun h => by rw [h]; exact ⟨rfl, rfl⟩⟩

end Link

namespace Tracks

variable {links : List Link} {s : PairSet}

theorem empty : Tracks [] .empty where
  nodup := List.nodup_nil
  mem_iff _ := by simp [PairSet.empty]
  ordered := .nil
  past _ _ h := by cases h
  ids := List.forall_mem_nil _

/-- The test for a pair finds it if it is there. -/
theorem any_same_iff (h : Tracks links s) {pair : Link}
    (hpair : pair.a.isId = true ∧ pair.b.isId = true) :
    (links.any fun old => old.same pair) = true ↔ pair ∈ links := by
  rw [List.any_eq_true]
  constructor
  · rintro ⟨old, hold, hsame⟩
    rw [← (Link.same_iff (h.ids old hold) hpair).mp hsame]
    exact hold
  · exact fun hmem => ⟨pair, hmem, (Link.same_iff hpair hpair).mpr rfl⟩

/-- Adding a pair that is there changes nothing, also not its moment. -/
theorem add_of_mem (h : Tracks links s) {pair : Link} (hmem : pair ∈ links) :
    Tracks links (s.add pair) := by
  obtain ⟨m, hm⟩ := Option.isSome_iff_exists.mp ((h.mem_iff pair).mp hmem)
  have hsince : (s.add pair).since = s.since := by
    funext other
    by_cases heq : other = pair
    · rw [heq, s.since_add_self, hm, Option.getD_some]
    · exact s.since_add_of_ne heq
  refine ⟨⟨h.nodup, ?_, ?_⟩, fun link n hn => ?_, h.ids⟩
  · rw [hsince]
    exact h.mem_iff
  · rw [hsince]
    exact h.ordered
  · rw [hsince] at hn
    exact Nat.lt_succ_of_lt (h.past link n hn)

/-- A pair that is not there is linked at the end. -/
theorem add_of_notMem (h : Tracks links s) {pair : Link}
    (hpair : pair.a.isId = true ∧ pair.b.isId = true) (hmem : pair ∉ links) :
    Tracks (links ++ [pair]) (s.add pair) := by
  have hold {link : Link} (hlink : link ∈ links) : (s.add pair).since link = s.since link :=
    s.since_add_of_ne fun heq => hmem (heq ▸ hlink)
  have hself : (s.add pair).since pair = some s.moment := by
    have hnone : s.since pair = none :=
      Option.not_isSome_iff_eq_none.mp fun hsome => hmem ((h.mem_iff pair).mpr hsome)
    rw [s.since_add_self, hnone, Option.getD_none]
  refine ⟨⟨?_, fun link => ?_, ?_⟩, fun link m hm => ?_, fun link hlink => ?_⟩
  · exact List.nodup_append.mpr ⟨h.nodup, List.nodup_singleton pair, fun x hx y hy heq =>
      hmem (List.mem_singleton.mp hy ▸ heq ▸ hx)⟩
  · rw [List.mem_append, List.mem_singleton]
    by_cases hlink : link = pair
    · rw [hlink, hself]
      exact iff_of_true (Or.inr rfl) rfl
    · rw [s.since_add_of_ne hlink, ← h.mem_iff link]
      exact or_iff_left hlink
  · refine List.pairwise_append.mpr ⟨?_, List.pairwise_singleton _ _, fun x hx y hy => ?_⟩
    · refine h.ordered.imp_of_mem fun hx hy horder => ?_
      rw [hold hx, hold hy]
      exact horder
    · -- the moment of the new pair is later than any past one
      obtain ⟨m, hm⟩ := Option.isSome_iff_exists.mp ((h.mem_iff x).mp hx)
      rw [List.mem_singleton.mp hy, hold hx, hself]
      exact ⟨m, s.moment, hm, rfl, h.past x m hm⟩
  · show m < s.moment + 1
    by_cases hlink : link = pair
    · rw [hlink, hself] at hm
      have : s.moment = m := Option.some.inj hm
      omega
    · rw [s.since_add_of_ne hlink] at hm
      have := h.past link m hm
      omega
  · rcases List.mem_append.mp hlink with hin | hin
    · exact h.ids link hin
    · rw [List.mem_singleton.mp hin]
      exact hpair

/-- Filtering the links removes the pairs that fail the test. -/
theorem remove (h : Tracks links s) (gone : Link → Prop) (keeps : Link → Bool)
    (hkeeps : ∀ link ∈ links, keeps link = true ↔ ¬gone link) :
    Tracks (links.filter keeps) (s.remove gone) := by
  refine ⟨⟨h.nodup.filter _, fun link => ?_, ?_⟩, fun link m hm => ?_, fun link hlink => ?_⟩
  · rw [List.mem_filter]
    constructor
    · rintro ⟨hmem, hkeep⟩
      rw [s.since_remove_of_not ((hkeeps link hmem).mp hkeep)]
      exact (h.mem_iff link).mp hmem
    · intro hsome
      by_cases hgone : gone link
      · rw [s.since_remove_of hgone] at hsome
        cases hsome
      · rw [s.since_remove_of_not hgone] at hsome
        have hmem := (h.mem_iff link).mpr hsome
        exact ⟨hmem, (hkeeps link hmem).mpr hgone⟩
  · refine (h.ordered.filter _).imp_of_mem fun hx hy horder => ?_
    obtain ⟨hx, hxkeep⟩ := List.mem_filter.mp hx
    obtain ⟨hy, hykeep⟩ := List.mem_filter.mp hy
    rw [s.since_remove_of_not ((hkeeps _ hx).mp hxkeep),
      s.since_remove_of_not ((hkeeps _ hy).mp hykeep)]
    exact horder
  · by_cases hgone : gone link
    · rw [s.since_remove_of hgone] at hm
      cases hm
    · rw [s.since_remove_of_not hgone] at hm
      exact h.past link m hm
  · exact h.ids link (List.mem_filter.mp hlink).1

end Tracks

/-! ## Every operation follows the set -/

namespace Join

/-- What an operation does to one of the joins. -/
def after (join : Join) : JoinOperation → Join
  | .connect name side id targets =>
      if join.name = name then
        targets.elements.foldl (fun join target => join.link (join.oriented side id target)) join
      else join
  | .disconnect name side id targets =>
      if join.name = name then
        targets.elements.foldl (fun join target => join.unlink (join.oriented side id target)) join
      else join
  | .cleanup model id => join.strip model id
  | .reset => { join with links := [] }

/-- A join has the name and the sides of an initial one, and its links track a set. -/
def Follows (initial join : Join) (s : PairSet) : Prop :=
  ∃ links, join = { initial with links } ∧ Tracks links s

variable {initial join : Join} {s : PairSet}

/-- Linking adds the oriented pair. -/
theorem Follows.link (h : initial.Follows join s) {side : Side} {id target : Value}
    (hid : id.isId = true) (htarget : target.isId = true) :
    initial.Follows (join.link (join.oriented side id target))
      (s.add (PairSet.pair initial.a side id target)) := by
  obtain ⟨links, rfl, htracks⟩ := h
  have hpair := PairSet.pair_isId initial.a side hid htarget
  show initial.Follows (Join.link _ (PairSet.pair initial.a side id target)) _
  unfold Join.link
  split
  · next hany => exact ⟨links, rfl, htracks.add_of_mem ((htracks.any_same_iff hpair).mp hany)⟩
  · next hany =>
      exact ⟨_, rfl, htracks.add_of_notMem hpair fun hmem =>
        hany ((htracks.any_same_iff hpair).mpr hmem)⟩

/-- Unlinking removes the oriented pair and no other. -/
theorem Follows.unlink (h : initial.Follows join s) {side : Side} {id target : Value}
    (hid : id.isId = true) (htarget : target.isId = true) :
    initial.Follows (join.unlink (join.oriented side id target))
      (s.remove (· = PairSet.pair initial.a side id target)) := by
  obtain ⟨links, rfl, htracks⟩ := h
  have hpair := PairSet.pair_isId initial.a side hid htarget
  refine ⟨_, rfl, htracks.remove _ _ fun link hlink => ?_⟩
  rw [Bool.not_eq_true', ← Bool.not_eq_true]
  exact not_congr (Link.same_iff (htracks.ids link hlink) hpair)

/-- A cleanup removes the pairs of the record on the sides of its model. -/
theorem Follows.strip (h : initial.Follows join s) {model : String} {id : Value}
    (hid : id.isId = true) :
    initial.Follows (join.strip model id) (s.remove fun link =>
      (initial.a.model = model ∧ link.a = id) ∨ (initial.b.model = model ∧ link.b = id)) := by
  obtain ⟨links, rfl, htracks⟩ := h
  refine ⟨_, rfl, htracks.remove _ _ fun link hlink => ?_⟩
  obtain ⟨ha, hb⟩ := htracks.ids link hlink
  rw [not_or, ← sameId_iff ha hid, ← sameId_iff hb hid]
  simp only [Bool.and_eq_true, Bool.not_eq_true', Bool.and_eq_false_iff, decide_eq_false_iff_not,
    not_and_or, Bool.not_eq_true]

/-- A reset removes all pairs. -/
theorem Follows.reset (h : initial.Follows join s) :
    initial.Follows { join with links := [] } (s.remove fun _ => True) := by
  obtain ⟨links, rfl, htracks⟩ := h
  refine ⟨[], rfl, ?_⟩
  have hnone := htracks.remove (fun _ => True) (fun _ => false) fun link _ => by simp
  rwa [List.filter_false] at hnone

/-- What holds of a change with one target holds of the changes with all targets in turn. -/
theorem Follows.foldl {change : Join → Value → Join} {effect : PairSet → Value → PairSet}
    (hstep : ∀ join s target, target.isId = true → initial.Follows join s →
      initial.Follows (change join target) (effect s target))
    {targets : List Value} (htargets : ∀ target ∈ targets, target.isId = true)
    (h : initial.Follows join s) :
    initial.Follows (targets.foldl change join) (targets.foldl effect s) := by
  induction targets generalizing join s with
  | nil => exact h
  | cons target rest ih =>
      obtain ⟨htarget, hrest⟩ := List.forall_mem_cons.mp htargets
      exact ih hrest (hstep join s target htarget h)

/-- One operation does to a join what it does to its set. -/
theorem Follows.after (h : initial.Follows join s) {op : JoinOperation} (hids : op.HasIds) :
    initial.Follows (join.after op) (s.apply initial.name initial.a initial.b op) := by
  have hname : join.name = initial.name := by
    obtain ⟨links, rfl, -⟩ := h
    rfl
  cases op with
  | connect name side id targets =>
      unfold Join.after PairSet.apply
      rw [hname]
      by_cases hsame : initial.name = name
      · simp only [if_pos hsame, if_pos hsame.symm]
        refine Follows.foldl ?_ hids.2 h
        intro join s target htarget h
        exact h.link hids.1 htarget
      · simp only [if_neg hsame, if_neg (Ne.symm hsame)]
        exact h
  | disconnect name side id targets =>
      unfold Join.after PairSet.apply
      rw [hname]
      by_cases hsame : initial.name = name
      · simp only [if_pos hsame, if_pos hsame.symm]
        refine Follows.foldl ?_ hids.2 h
        intro join s target htarget h
        exact h.unlink hids.1 htarget
      · simp only [if_neg hsame, if_neg (Ne.symm hsame)]
        exact h
  | cleanup model id => exact h.strip hids
  | reset => exact h.reset

/-- A sequence of operations does to a join what it does to its set. -/
theorem Follows.run (h : initial.Follows join s) {operations : List JoinOperation}
    (hids : ∀ op ∈ operations, op.HasIds) :
    initial.Follows (operations.foldl Join.after join)
      (operations.foldl (PairSet.apply initial.name initial.a initial.b) s) := by
  induction operations generalizing join s with
  | nil => exact h
  | cons op rest ih =>
      obtain ⟨hop, hrest⟩ := List.forall_mem_cons.mp hids
      exact ih (h.after hop) hrest

end Join

end RecordStore
