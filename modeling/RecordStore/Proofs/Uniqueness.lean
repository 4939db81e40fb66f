import RecordStore.Proofs.Columns
import RecordStore.Proofs.Equality
import RecordStore.Proofs.Run

/-!
# Unique groups

With the check of unique groups switched on, no two records of a collection ever hold the same
values in one of them, unless a null is among the values.  The check alone does not say so: it
leaves out every record that equals the one to be replaced, and removing or detaching records does
not call it.  What carries the argument is that equal records collide with the same records, and
that a null collides with nothing.
-/

namespace RecordStore

namespace Record

/-- Two records hold the same values in a group of fields, none of them null. -/
def Collide (fields : List String) (a b : Record) : Prop :=
  ∀ field ∈ fields, (valueAt field a).isNull = false ∧ (valueAt field b).isNull = false ∧
    Value.equals .plain (valueAt field a) (valueAt field b) = true

variable {fields : List String} {a b c : Record}

theorem Collide.symm (h : Collide fields a b) : Collide fields b a := by
  intro field hfield
  obtain ⟨ha, hb, heq⟩ := h field hfield
  exact ⟨hb, ha, Value.equalsPlain_symm heq⟩

/-- A record that collides with anything collides with the records equal to it. -/
theorem Collide.of_same (h : Collide fields a c) (hab : same a b = true) :
    Collide fields a b := by
  intro field hfield
  obtain ⟨ha, -, heq⟩ := h field hfield
  have hvalue := valueAt_of_same hab field
  exact ⟨ha, Value.isNull_of_same hvalue ▸ ha, Value.equalsPlain_of_same hvalue heq⟩

/-- Nulling columns brings no two records together. -/
theorem Collide.of_insertAll_unbind {columns : List String}
    (h : Collide fields (Entries.insertAll a (unbind columns [])) b) : Collide fields a b := by
  intro field hfield
  obtain ⟨ha, hb, heq⟩ := h field hfield
  unfold valueAt at ha heq
  rw [get?_insertAll_unbind] at ha heq
  split at ha
  · cases ha
  · rename_i hcolumn
    rw [if_neg hcolumn] at heq
    exact ⟨ha, hb, heq⟩

end Record

namespace Store

open Record

variable {store next : Store} {model : Model} {candidate current : Record}

/-! ## The invariant -/

/-- No two records of a collection collide on a unique group of their model. -/
def HoldsUnique (store : Store) : Prop :=
  ∀ model ∈ store.schema.models, ∀ group ∈ model.uniqueConstraints, ∀ (i j : Nat) (a b : Record),
    i ≠ j → (store.items model.name)[i]? = some a → (store.items model.name)[j]? = some b →
      ¬ Collide group a b

/-- Since colliding is symmetric, it is enough to compare each record with those after it. -/
theorem pairwise_iff (fields : List String) (records : List Record) :
    records.Pairwise (fun a b => ¬ Collide fields a b) ↔
      ∀ (i j : Nat) (a b : Record), i ≠ j → records[i]? = some a → records[j]? = some b →
        ¬ Collide fields a b := by
  rw [List.pairwise_iff_getElem]
  constructor
  · intro h i j a b hij ha hb
    obtain ⟨hi, rfl⟩ := List.getElem?_eq_some_iff.mp ha
    obtain ⟨hj, rfl⟩ := List.getElem?_eq_some_iff.mp hb
    rcases Nat.lt_or_gt_of_ne hij with hlt | hgt
    · exact h i j hi hj hlt
    · exact fun hcollide => h j i hj hi hgt hcollide.symm
  · intro h i j hi hj hij
    exact h i j _ _ (Nat.ne_of_lt hij) (List.getElem?_eq_getElem hi) (List.getElem?_eq_getElem hj)

theorem HoldsUnique.pairwise (h : store.HoldsUnique) (hmodel : model ∈ store.schema.models)
    {group : List String} (hgroup : group ∈ model.uniqueConstraints) :
    (store.items model.name).Pairwise fun a b => ¬ Collide group a b :=
  (pairwise_iff group _).mpr (h model hmodel group hgroup)

/-- Only the collection that is written has to be looked at. -/
theorem HoldsUnique.replaceCollection (h : store.HoldsUnique) {name : String}
    {records : List Record}
    (hnew : ∀ model ∈ store.schema.models, model.name = name →
      ∀ group ∈ model.uniqueConstraints, records.Pairwise fun a b => ¬ Collide group a b) :
    (store.replaceCollection name records).HoldsUnique := by
  intro model hmodel group hgroup
  rw [← pairwise_iff]
  by_cases hname : model.name = name
  · subst hname
    rw [items_replaceCollection_self]
    exact hnew model hmodel rfl group hgroup
  · rw [items_replaceCollection_of_ne hname]
    exact h.pairwise hmodel hgroup

/-! ## The check -/

/-- A candidate that has passed the check collides with no stored record other than those equal to
    the one that it replaces. -/
theorem not_collide_of_checkUnique (henforced : store.schema.options.enforceUnique = true)
    {previous : Option Record} (hfree : store.checkUnique model candidate previous = .ok ())
    {group : List String} (hgroup : group ∈ model.uniqueConstraints) {item : Record}
    (hitem : item ∈ store.items model.name)
    (hother : ∀ record, previous = some record → same record item = false) :
    ¬ Collide group item candidate := by
  intro hcollide
  -- the collision is one that the check looks for
  have hclash : store.clashes model candidate previous group = true := by
    unfold clashes
    rw [Bool.and_eq_true, Bool.not_eq_true', List.any_eq_false, List.any_eq_true]
    refine ⟨fun field hfield => ?_, item, hitem, ?_⟩
    · rw [Record.isNullAt, (hcollide field hfield).2.1]
      exact Bool.false_ne_true
    · rw [Bool.and_eq_true, Bool.not_eq_true', List.all_eq_true]
      refine ⟨?_, fun field hfield => (hcollide field hfield).2.2⟩
      cases previous with
      | none => rfl
      | some record => exact hother record rfl
  unfold checkUnique clash? at hfree
  rw [if_pos henforced] at hfree
  split at hfree
  · cases hfree
  · rename_i hnone
    exact absurd hclash (List.find?_eq_none.mp hnone group hgroup)

/-- A checked record may take the place of a record equal to the one that it was checked
    against. -/
theorem pairwise_replaceFirst {group : List String} {records replaced : List Record}
    (hpairs : records.Pairwise fun a b => ¬ Collide group a b)
    (hfree : ∀ item ∈ records, same current item = false → ¬ Collide group item candidate)
    (hswap : replaceFirst current candidate records = some replaced) :
    replaced.Pairwise fun a b => ¬ Collide group a b := by
  obtain ⟨before, old, later, rfl, -, hold, rfl⟩ := split_of_replaceFirst hswap
  rw [List.pairwise_append, List.pairwise_cons] at hpairs
  obtain ⟨hbefore, ⟨hold_later, hlater⟩, hacross⟩ := hpairs
  -- a record left out by the check equals the old one, which it did not collide with
  have hnew {item : Record} (hmem : item ∈ before ++ old :: later)
      (hapart : ¬ Collide group item old) : ¬ Collide group item candidate := by
    intro hcollide
    cases hsame : same current item with
    | false => exact hfree item hmem hsame hcollide
    | true =>
        have hitem : same item old = true := same_trans (same_symm hsame) (same_symm hold)
        exact hapart (hcollide.of_same hitem)
  rw [List.pairwise_append, List.pairwise_cons]
  refine ⟨hbefore, ⟨fun item hitem hcollide => ?_, hlater⟩, fun item hitem other hother => ?_⟩
  · have hmem : item ∈ before ++ old :: later :=
      List.mem_append_right _ (List.mem_cons_of_mem _ hitem)
    exact hnew hmem (fun h => hold_later item hitem h.symm) hcollide.symm
  · rcases List.mem_cons.mp hother with rfl | hmore
    · exact hnew (List.mem_append_left _ hitem) (hacross item hitem old List.mem_cons_self)
    · exact hacross item hitem other (List.mem_cons_of_mem _ hmore)

/-! ## Steps and runs -/

/-- Every change keeps the invariant. -/
theorem HoldsUnique.change (h : store.HoldsUnique) (hstep : Change store next)
    (henforced : store.schema.options.enforceUnique = true) : next.HoldsUnique := by
  cases hstep with
  | supply counters entropy => exact h
  | relink joins => exact h
  | insert model record hmodel hfree =>
      refine h.replaceCollection fun other hother hname group hgroup => ?_
      obtain rfl := Schema.eq_of_name_eq hother hmodel hname
      rw [List.pairwise_append]
      refine ⟨h.pairwise hmodel hgroup, List.pairwise_singleton _ _, fun item hitem new hnew => ?_⟩
      rw [List.mem_singleton.mp hnew]
      exact not_collide_of_checkUnique henforced hfree hgroup hitem fun _ hnone => by cases hnone
  | replace _ model current record hmodel hfree hswap =>
      obtain ⟨replaced, hreplaced, rfl⟩ := Option.map_eq_some_iff.mp hswap
      refine h.replaceCollection fun other hother hname group hgroup => ?_
      obtain rfl := Schema.eq_of_name_eq hother hmodel hname
      refine pairwise_replaceFirst (h.pairwise hmodel hgroup) (fun item hitem hsame => ?_) hreplaced
      refine not_collide_of_checkUnique henforced hfree hgroup hitem fun previous hprevious => ?_
      rw [← Option.some.inj hprevious]
      exact hsame
  | remove name kept hfewer =>
      -- fewer records, fewer pairs
      refine h.replaceCollection fun model hmodel hname group hgroup => ?_
      exact (h.pairwise hmodel hgroup).sublist (hname ▸ hfewer)
  | detach model scope columns =>
      unfold Store.detach
      split
      · refine h.replaceCollection fun other hother hname group hgroup => ?_
        unfold detachedItems
        rw [List.pairwise_map, ← hname]
        refine List.Pairwise.imp (fun {a b} hapart hcollide => hapart ?_)
          (h.pairwise hother hgroup)
        -- each of the two records is as it was, or has columns nulled
        have hleft : Collide group a (if holdsAll b scope then
            Entries.insertAll b (unbind columns []) else b) := by
          split at hcollide
          · exact hcollide.of_insertAll_unbind
          · exact hcollide
        split at hleft
        · exact hleft.symm.of_insertAll_unbind.symm
        · exact hleft
      · exact h

/-- The empty store holds no two records. -/
theorem holdsUnique_ofSchema (schema : Schema) (clock : Int) (entropy : Entropy) :
    (ofSchema schema clock entropy).HoldsUnique := by
  intro model hmodel group hgroup i j a b _ ha
  have hempty : (ofSchema schema clock entropy).items model.name = [] := by
    unfold items ofSchema
    generalize schema.models = models
    induction models with
    | nil => rfl
    | cons first rest ih =>
        rw [List.map_cons, Entries.get?_cons]
        split
        · rfl
        · exact ih
  rw [hempty] at ha
  cases ha

/-- No run brings two records together that were not so before. -/
theorem HoldsUnique.run (h : store.HoldsUnique)
    (henforced : store.schema.options.enforceUnique = true) (requests : List Request) :
    (store.run requests).schema = store.schema ∧ (store.run requests).HoldsUnique := by
  refine run_induction (P := fun next => next.schema = store.schema ∧ next.HoldsUnique)
    ?_ (fun _ _ h => h) requests _ ⟨rfl, h⟩
  rintro current next hstep ⟨hschema, hunique⟩
  exact ⟨hstep.schema_eq.trans hschema, hunique.change hstep (hschema ▸ henforced)⟩

/-- With unique groups enforced, no run of a client brings two records of a collection together
    on one of them. -/
theorem holdsUnique_run (schema : Schema) (henforced : schema.options.enforceUnique = true)
    (clock : Int) (entropy : Entropy) (requests : List Request) :
    ((ofSchema schema clock entropy).run requests).schema = schema ∧
      ((ofSchema schema clock entropy).run requests).HoldsUnique := by
  refine run_induction (P := fun store => store.schema = schema ∧ store.HoldsUnique)
    ?_ (fun _ _ h => h) requests _ ⟨rfl, holdsUnique_ofSchema schema clock entropy⟩
  rintro store next hstep ⟨hschema, hunique⟩
  exact ⟨hstep.schema_eq.trans hschema, hunique.change hstep (hschema ▸ henforced)⟩

/-- A schema of accounts, each with an email of its own if it has one. -/
def accounts : Schema where
  options := {}
  models := [{
    name := "Account"
    fields := [{ name := "id", kind := .scalar, typeName := "Int", isId := true },
      { name := "email", kind := .scalar, typeName := "String", isUnique := true }] }]
  nodup_names := by decide
  targets_known := by decide

/-- The second of these requests is refused, and the third moves an account to an open email. -/
def signUps : List Request :=
  [.write .createMany "Account" (.object [("data", .array [
      .object [("id", .integer 1), ("email", .string "a@example.org")],
      .object [("id", .integer 2), ("email", .null)]])]),
    .write .update "Account" (.object [("where", .object [("id", .integer 2)]),
      ("data", .object [("email", .string "a@example.org")])]),
    .write .update "Account" (.object [("where", .object [("id", .integer 2)]),
      ("data", .object [("email", .string "b@example.org")])])]

theorem holdsUnique_run_accounts :
    accounts.options.enforceUnique = true ∧
      ((((ofSchema accounts 0 ⟨0⟩).run signUps).items "Account").map (valueAt "email")).map
        (Value.same (.string "b@example.org")) = [false, true] ∧
      ((ofSchema accounts 0 ⟨0⟩).run signUps).HoldsUnique :=
  ⟨rfl, by decide, (holdsUnique_run accounts rfl 0 ⟨0⟩ signUps).2⟩

end Store

end RecordStore
