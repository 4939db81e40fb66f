import RecordStore.Proofs.Join.Refinement

/-!
# Reading joins

After any sequence of operations each join lists its set of pairs, and the ids it gives for a
record are the counterparts of the record in the pairs, each of them once.
-/

namespace RecordStore

namespace Joins

/-! ## The joins one by one -/

/-- An operation treats each join on its own. -/
theorem apply_eq_map (joins : Joins) (op : JoinOperation) :
    joins.apply op = joins.map fun join => join.after op := by
  cases op <;> rfl

/-- So does a sequence of operations. -/
theorem run_eq_map (joins : Joins) (operations : List JoinOperation) :
    joins.run operations = joins.map fun join => operations.foldl Join.after join := by
  induction operations generalizing joins with
  | nil => exact (List.map_id' joins).symm
  | cons op rest ih =>
      show (joins.apply op).run rest = _
      rw [ih, apply_eq_map, List.map_map]
      rfl

/-- The joins of a schema start without links. -/
theorem links_of_mem_ofModels {models : List Model} {join : Join} (h : join ∈ ofModels models) :
    join.links = [] := by
  obtain ⟨relation, -, hjoin⟩ := List.mem_filterMap.mp h
  unfold ofEnds? at hjoin
  split at hjoin
  · split at hjoin
    · cases hjoin
    · rw [← Option.some.inj hjoin]
  · cases hjoin

/-- Any operations do to a join of a schema what they do to the empty set. -/
theorem follows_run {models : List Model} {join : Join} (h : join ∈ ofModels models)
    {operations : List JoinOperation} (hids : ∀ op ∈ operations, op.HasIds) :
    join.Follows (operations.foldl Join.after join)
      (operations.foldl (PairSet.apply join.name join.a join.b) .empty) := by
  have hempty : join.Follows join .empty := by
    refine ⟨[], ?_, Tracks.empty⟩
    rw [← links_of_mem_ofModels h]
  exact hempty.run hids

/-- A name finds the join of that name after any operations. -/
theorem get?_run {models : List Model} {name : String} {initial : Join}
    (hinitial : (ofModels models).get? name = some initial) {operations : List JoinOperation}
    (hids : ∀ op ∈ operations, op.HasIds) :
    ((ofModels models).run operations).get? name =
      some (operations.foldl Join.after initial) := by
  unfold get? at hinitial ⊢
  rw [run_eq_map, List.find?_map]
  have hnames : ∀ join ∈ ofModels models,
      decide ((operations.foldl Join.after join).name = name) = decide (join.name = name) := by
    intro join hjoin
    obtain ⟨links, heq, -⟩ := follows_run hjoin hids
    rw [heq]
  show Option.map _ ((ofModels models).find? fun join =>
    decide ((operations.foldl Join.after join).name = name)) = _
  rw [List.find?_congr hnames, hinitial]
  rfl

end Joins

/-! ## Counterparts -/

open Classical in
/-- The counterparts of a record in one pair, on the sides of the model. -/
noncomputable def Link.seenFrom (a b : Side) (model : String) (id : Value) (link : Link) :
    List Value :=
  (if a.model = model ∧ link.a = id then [link.b] else []) ++
    (if b.model = model ∧ link.b = id then [link.a] else [])

namespace Join

/-- The counterparts of a record in all pairs, in their order. -/
noncomputable def seenFrom (join : Join) (model : String) (id : Value) : List Value :=
  join.links.flatMap (Link.seenFrom join.a join.b model id)

variable {join : Join} {model : String} {id : Value}

theorem isId_of_mem_seenFrom (hids : ∀ link ∈ join.links, link.a.isId = true ∧ link.b.isId = true) :
    ∀ x ∈ join.seenFrom model id, x.isId = true := by
  intro x hx
  obtain ⟨link, hlink, hx⟩ := List.mem_flatMap.mp hx
  obtain ⟨ha, hb⟩ := hids link hlink
  rcases List.mem_append.mp hx with hx | hx
  · split at hx
    · exact List.mem_singleton.mp hx ▸ hb
    · cases hx
  · split at hx
    · exact List.mem_singleton.mp hx ▸ ha
    · cases hx

open Classical in
/-- Reading a join gathers the counterparts. -/
theorem counterpartsInto_eq (hids : ∀ link ∈ join.links, link.a.isId = true ∧ link.b.isId = true)
    (hid : id.isId = true) (known : List Value) :
    join.counterpartsInto model id known = (join.seenFrom model id).foldl addId known := by
  unfold counterpartsInto seenFrom
  rw [List.foldl_flatMap]
  refine List.foldl_ext _ _ _ fun ids link hlink => ?_
  obtain ⟨ha, hb⟩ := hids link hlink
  -- each of the two tests of a link asks for equality, and adds at most one id
  have hgather {p q : Prop} [Decidable p] [Decidable q] (hpq : p ↔ q) (x : Value)
      (ids : List Value) :
      (if p then addId ids x else ids) = (if q then [x] else []).foldl addId ids := by
    by_cases hp : p
    · rw [if_pos hp, if_pos (hpq.mp hp)]
      rfl
    · rw [if_neg hp, if_neg (mt hpq.mpr hp)]
      rfl
  rw [Link.seenFrom, List.foldl_append, ← hgather (and_congr_right' (sameId_iff ha hid)),
    ← hgather (and_congr_right' (sameId_iff hb hid))]

end Join

namespace Joins

section counterparts

variable {joins : Joins} {name model : String} {join : Join}
  (hget : joins.get? name = some join)
  (hlinks : ∀ link ∈ join.links, link.a.isId = true ∧ link.b.isId = true)
include hget hlinks

/-- For a record the joins gather its counterparts. -/
theorem counterparts_eq {id : Value} (hid : id.isId = true) :
    joins.counterparts name model id = (join.seenFrom model id).foldl addId [] := by
  have hplain : (id.get? "in").bind Value.array? = none := by
    cases id with
    | object fields => cases hid
    | _ => rfl
  unfold counterparts
  rw [hget, ← Join.counterpartsInto_eq hlinks hid]
  simp only [hplain]

/-- For a list of records the joins gather what they give for each. -/
theorem counterparts_in_eq {filter : Value} {ids : List Value}
    (hfilter : (filter.get? "in").bind Value.array? = some ids)
    (hids : ∀ id ∈ ids, id.isId = true) :
    joins.counterparts name model filter =
      (ids.flatMap fun id => joins.counterparts name model id).foldl addId [] := by
  have hlists : ∀ items ∈ ids.map (join.seenFrom model), ∀ x ∈ items, x.isId = true := by
    intro items hitems
    obtain ⟨id, -, rfl⟩ := List.mem_map.mp hitems
    exact Join.isId_of_mem_seenFrom hlinks
  have hgathered := FirstOf.nil.foldl_flatMap hlists (List.forall_mem_nil _)
  rw [List.flatMap_map, List.foldl_map] at hgathered
  have hread : joins.counterparts name model filter =
      ids.foldl (fun out id => join.counterpartsInto model id out) [] := by
    unfold counterparts
    rw [hget]
    simp only [hfilter]
  rw [hread, List.flatMap_congr fun id hid => counterparts_eq hget hlinks (hids id hid),
    hgathered]
  exact List.foldl_ext _ _ _ fun out id hid => Join.counterpartsInto_eq hlinks (hids id hid) out

/-- What the joins give for a record is the first of each of its counterparts. -/
theorem firstOf_counterparts {id : Value} (hid : id.isId = true) :
    FirstOf (join.seenFrom model id) (joins.counterparts name model id) := by
  rw [counterparts_eq hget hlinks hid]
  exact FirstOf.nil.foldl (List.forall_mem_nil _) (Join.isId_of_mem_seenFrom hlinks)

/-- What they give for a list of records is the first of each of what they give for one. -/
theorem firstOf_counterparts_in {filter : Value} {ids : List Value}
    (hfilter : (filter.get? "in").bind Value.array? = some ids)
    (hids : ∀ id ∈ ids, id.isId = true) :
    FirstOf (ids.flatMap fun id => joins.counterparts name model id)
      (joins.counterparts name model filter) := by
  rw [counterparts_in_eq hget hlinks hfilter hids]
  refine FirstOf.nil.foldl (List.forall_mem_nil _) fun x hx => ?_
  obtain ⟨id, hid, hx⟩ := List.mem_flatMap.mp hx
  exact Join.isId_of_mem_seenFrom hlinks x
    (((firstOf_counterparts hget hlinks (hids id hid)).mem_iff x).mp hx)

end counterparts

/-- Whatever is done to the joins of a schema, a join lists the set of pairs that results, without
    repetition and in the order of insertion.  For a record it gives the counterparts in these
    pairs, each once and in their order, and for a list of records the first of each of what it
    gives for them in turn. -/
theorem run_lists_pairs {models : List Model} {operations : List JoinOperation}
    (hids : ∀ op ∈ operations, op.HasIds) {name : String} {initial : Join}
    (hinitial : (ofModels models).get? name = some initial) :
    ∃ join, ((ofModels models).run operations).get? name = some join ∧
      join = { initial with links := join.links } ∧
      Lists join.links (operations.foldl (PairSet.apply name initial.a initial.b) .empty) ∧
      (∀ model id, id.isId = true → FirstOf (join.seenFrom model id)
        (((ofModels models).run operations).counterparts name model id)) ∧
      ∀ model filter ids, (filter.get? "in").bind Value.array? = some ids →
        (∀ id ∈ ids, id.isId = true) →
        FirstOf
          (ids.flatMap fun id => ((ofModels models).run operations).counterparts name model id)
          (((ofModels models).run operations).counterparts name model filter) := by
  have hname : initial.name = name := by
    have hfound := List.find?_some (show List.find? (fun join => decide (join.name = name))
      (ofModels models) = some initial from hinitial)
    exact of_decide_eq_true hfound
  obtain ⟨links, heq, htracks⟩ := follows_run (List.mem_of_find?_eq_some hinitial) hids
  rw [hname] at htracks
  have hget := get?_run hinitial hids
  rw [heq] at hget
  exact ⟨{ initial with links }, hget, rfl, htracks.toLists,
    fun model id hid => firstOf_counterparts hget htracks.ids hid,
    fun model filter ids hfilter hids =>
      firstOf_counterparts_in hget htracks.ids hfilter hids⟩

end Joins

namespace Following

open Joins

/-- Persons who follow each other. -/
def person : Model where
  name := "Person"
  fields := [
    { name := "following", kind := .relation, typeName := "Person", isList := true,
      relationName := some "follows" },
    { name := "followers", kind := .relation, typeName := "Person", isList := true,
      relationName := some "follows" }]

/-- The first person follows the second and the third one and is followed by the second; then the
    first leaves the second, and the third leaves all. -/
def operations : List JoinOperation := [
  .connect "follows" ⟨"following", "Person"⟩ (.integer 1) (.array [.integer 2, .integer 3]),
  .connect "follows" ⟨"followers", "Person"⟩ (.integer 1) (.integer 2),
  .disconnect "follows" ⟨"followers", "Person"⟩ (.integer 2) (.integer 1),
  .cleanup "Person" (.integer 3)]

/-- The second person still follows the first, so that each sees the other. -/
theorem run_operations :
    ((ofModels [person]).run operations).counterparts "follows" "Person" (.integer 1) =
        [.integer 2] ∧
      ((ofModels [person]).run operations).counterparts "follows" "Person"
        (.object [("in", .array [.integer 1, .integer 2])]) = [.integer 2, .integer 1] ∧
      ∃ join, ((ofModels [person]).run operations).get? "follows" = some join ∧
        Lists join.links (operations.foldl
          (PairSet.apply "follows" ⟨"followers", "Person"⟩ ⟨"following", "Person"⟩) .empty) := by
  obtain ⟨join, hget, -, hlists, -⟩ := run_lists_pairs
    (show ∀ op ∈ operations, op.HasIds by decide)
    (show (ofModels [person]).get? "follows" = some
      ⟨"follows", ⟨"followers", "Person"⟩, ⟨"following", "Person"⟩, []⟩ from rfl)
  exact ⟨rfl, rfl, join, hget, hlists⟩

end Following

end RecordStore
