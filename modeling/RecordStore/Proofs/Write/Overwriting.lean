import RecordStore.Proofs.Identity
import RecordStore.Proofs.Write.OwnedDelete

/-!
# Updates that come back to their own record

The nested writes that an update runs first may come back, through the other end of a relation, to
the record that is being updated.  When the update then writes its own record, it puts it in the
place of the first one that equals the record as it was given.  With unique groups enforced no
other record has the id, so that one is the record itself, untouched; and when there is none, the
update fails and what the nested writes have made of the record stays.
-/

namespace RecordStore

namespace NestedWrites

open Write

/-- The part of an update that comes before its record: going through the payload, and with it the
    nested writes that decide the key columns of the record. -/
def revise (nested : NestedWrites) (model : Model) (current data : Record) : Write Revision :=
  data.foldlM (fun revision (key, value) => nested.revisionStep model revision key value)
    { next := current }

/-- The part of an update that comes after its record: deleting what the record does not refer to
    any more, and the nested writes that have waited. -/
def finish (nested : NestedWrites) (model : Model) (revision : Revision) (next : Record) :
    Write Record := do
  revision.orphans.forM fun (field, target) => do
    deleteRecord (← require ((← get).schema.relatedModel field)) target
  revision.deferred.forM fun (field, operations) =>
    nested.writeRelated model field operations next
  return next

theorem updateStep_eq_revise (nested : NestedWrites) (model : Model) (current data : Record) :
    nested.updateStep model current data =
      nested.revise model current data >>= fun revision =>
        settle model data current revision.next >>= nested.finish model revision :=
  nested.updateStep_eq model current data

end NestedWrites

namespace Store

open Write NestedWrites

variable {store gathered supplied written : Store} {model : Model} {idField : String}
variable {current next data : Record} {revision : Revision}

/-! ## Swapping a record -/

/-- A store in which a record stands in the place of the only one with the id of another record,
    which equalled that record, and everything else is as it was. -/
structure SwappedInPlace (store written : Store) (model : Model) (current next : Record) : Prop where
  records : ∃ before old later, store.items model.name = before ++ old :: later ∧
    written.items model.name = before ++ next :: later ∧ Record.same old current = true ∧
      ∀ other ∈ before ++ later, ¬ model.Identifies current (model.recordId other)
  others : ∀ name, name ≠ model.name → written.items name = store.items name

/-- What is swapped is the only record of its id, where no two records collide. -/
theorem swappedInPlace (hunique : store.HoldsUnique) (hmodel : model ∈ store.schema.models)
    (hid : model.idFields = [idField]) (hswap : store.swap model.name current next = some written) :
    SwappedInPlace store written model current next := by
  obtain ⟨before, old, later, hitems, -, hsame, rfl⟩ := split_of_swap hswap
  refine ⟨⟨before, old, later, hitems, items_replaceCollection_self .., hsame, ?_⟩,
    fun name hname => items_replaceCollection_of_ne hname ..⟩
  intro other hother hholds
  have hpairs := hunique.pairwise hmodel (Model.mem_uniqueConstraints hid)
  rw [hitems, List.perm_middle.pairwise_iff fun h hback => h hback.symm, List.pairwise_cons] at hpairs
  exact hpairs.1 other hother (hholds.collide hid hsame)

/-- What is swapped for another record had the id of the record that it equalled. -/
theorem exists_identified_of_swap (hid : model.idFields = [idField]) (hhas : model.HasId current)
    (hswap : store.swap model.name current next = some written) :
    ∃ old ∈ store.items model.name, model.Identifies current (model.recordId old) ∧
      Record.same old current = true := by
  obtain ⟨before, old, later, hitems, -, hsame, -⟩ := split_of_swap hswap
  refine ⟨old, hitems ▸ List.mem_append_right _ List.mem_cons_self,
    ⟨hhas.isNull_recordId, ?_⟩, hsame⟩
  obtain ⟨-, hself⟩ := hhas.values idField (hid ▸ List.mem_singleton_self idField)
  have hvalue := Value.same_symm _ _ (Record.valueAt_of_same hsame idField)
  rw [Model.recordId_of_idFields hid, Model.recordId_of_idFields hid]
  exact Value.equalsPlain_symm (Value.equalsPlain_of_same hvalue hself)

/-! ## Updating a record -/

/-- How an update ends once it has gone through its payload, in a store that differs from the one it
    has led to only in what has been drawn for open fields: its record is as it was, and nothing is
    written; or the record is swapped in place; or the update is refused, and leaves the store. -/
def EndsInPlace (supplied : Store) (nested : NestedWrites) (model : Model) (revision : Revision)
    (current next : Record) (ending : Except Error Record × Store) : Prop :=
  (Record.same next current = true ∧
      ending = (nested.finish model revision next).outcome supplied) ∨
    Record.same next current = false ∧
      ((∃ written, supplied.swap model.name current next = some written ∧
          SwappedInPlace supplied written model current next ∧
          ending = (nested.finish model revision next).outcome written) ∨
        ∃ e, ending = (.error e, supplied))

/-- A record has been changed or removed: no stored record that has its id equals it. -/
def Superseded (store : Store) (model : Model) (record : Record) : Prop :=
  ∀ item ∈ store.items model.name, model.Identifies record (model.recordId item) →
    Record.same item record = false

/-- An update of a record that has been superseded does not write it. -/
theorem EndsInPlace.fails {nested : NestedWrites} {ending : Except Error Record × Store}
    (h : EndsInPlace supplied nested model revision current next ending)
    (hid : model.idFields = [idField]) (hhas : model.HasId current)
    (hgone : supplied.Superseded model current) (hdiffers : Record.same next current = false) :
    ∃ e, ending = (.error e, supplied) := by
  rcases h with ⟨hsame, -⟩ | ⟨-, ⟨written, hswap, -⟩ | herror⟩
  · rw [hsame] at hdiffers
    cases hdiffers
  · obtain ⟨old, hold, hholds, hsame⟩ := exists_identified_of_swap hid hhas hswap
    rw [hgone old hold hholds] at hsame
    cases hsame
  · exact herror

/-- With unique groups enforced, an update whose nested writes have been run swaps its record in
    place, if at all, and leaves all others as those writes have left them; and if they have changed
    or removed the record itself, an update that changes it too fails, and everything they have
    written stays. -/
theorem update_ends_in_place (henforced : store.schema.options.enforceUnique = true)
    (hunique : store.HoldsUnique) (hmodel : model ∈ store.schema.models)
    (hid : model.idFields = [idField]) (hhas : model.HasId current)
    (hrevise : ((inPayload data).revise model current data).outcome store =
      (.ok revision, gathered)) :
    let refreshed := refreshFields model data model.scalarFields revision.next gathered
    (∀ name, refreshed.2.items name = gathered.items name) ∧
      EndsInPlace refreshed.2 (inPayload data) model revision current refreshed.1
        ((updateRecord model current data).outcome store) ∧
      (gathered.Superseded model current → Record.same refreshed.1 current = false →
        ∃ e, (updateRecord model current data).outcome store = (.error e, refreshed.2)) := by
  intro refreshed
  -- going through the payload keeps the records apart, and drawing leaves the collections alone
  obtain ⟨hfollows, -⟩ := follows_foldlM henforced hunique hmodel .start hrevise
  obtain ⟨counters, entropy, hsupplied⟩ : Supplied gathered refreshed.2 :=
    supplied_refreshFields model data model.scalarFields revision.next gathered
  have hitems (name : String) : refreshed.2.items name = gathered.items name := by
    rw [hsupplied]
    rfl
  have hunique' : refreshed.2.HoldsUnique := hsupplied ▸ hfollows.unique
  have hmodel' : model ∈ refreshed.2.schema.models := by
    rw [hsupplied]
    exact hfollows.schema_eq ▸ hmodel
  have hupdate : (updateRecord model current data).outcome store =
      ((replaceStored model current refreshed.1 >>= fun _ =>
        (inPayload data).finish model revision refreshed.1).outcome refreshed.2) := by
    show ((inPayload data).updateStep model current data).outcome store = _
    rw [updateStep_eq_revise, outcome_bind, hrevise]
    dsimp only
    rw [settle, bind_assoc, outcome_bind, outcome_step]
    simp only [bind_assoc, pure_bind]
    rfl
  have hends : EndsInPlace refreshed.2 (inPayload data) model revision current refreshed.1
      ((updateRecord model current data).outcome store) := by
    rw [hupdate, outcome_bind]
    rcases outcome_replaceStored model current refreshed.1 refreshed.2 with
      ⟨hsame, hrun⟩ | ⟨hdiffers, ⟨written, -, hswap, hrun⟩ | ⟨e, hrun⟩⟩ <;> rw [hrun]
    · exact Or.inl ⟨hsame, rfl⟩
    · exact Or.inr ⟨hdiffers, Or.inl ⟨written, hswap,
        swappedInPlace hunique' hmodel' hid hswap, rfl⟩⟩
    · exact Or.inr ⟨hdiffers, Or.inr ⟨e, rfl⟩⟩
  refine ⟨hitems, hends, fun hgone hdiffers => hends.fails hid hhas ?_ hdiffers⟩
  unfold Superseded
  rw [hitems]
  exact hgone

end Store

namespace Press

open NestedWrites Store Write

/-- The post is given a title, and its author gives it another one. -/
def retitling : Record :=
  [("writer", .object [("update", .object [("posts", .object [("update",
      .object [("where", .object [("id", .integer 7)]),
        ("data", .object [("title", .string "a")])])])])]),
    ("title", .string "b")]

/-- The author is given another name, and the post a title. -/
def renamed : Record :=
  [("writer", .object [("update", .object [("name", .string "b")])]), ("title", .string "b")]

/-- The title that the author has given stays, and the update fails; under another name of the
    author it succeeds. -/
theorem retitle_article :
    (∃ revision gathered supplied e,
      ((inPayload retitling).revise post article retitling).outcome store =
          (.ok revision, gathered) ∧
        gathered.Superseded post article ∧
        (updateRecord post article retitling).outcome store = (.error e, supplied) ∧
        supplied.items "Post" =
          [[("id", .integer 7), ("title", .string "a"), ("authorId", .integer 1)]]) ∧
    ∃ last, (updateRecord post article renamed).outcome store =
          (.ok [("id", .integer 7), ("title", .string "b"), ("authorId", .integer 1)], last) ∧
        last.items "Post" =
          [[("id", .integer 7), ("title", .string "b"), ("authorId", .integer 1)]] ∧
        last.items "Author" = [[("id", .integer 1), ("name", .string "b")]] := by
  have hunique : store.HoldsUnique := (holdsUnique_run schema rfl 0 ⟨0⟩ requests).2
  have hhas : post.HasId article := by decide
  refine ⟨?_, _, rfl, rfl, rfl⟩
  let gathered : Store := ((inPayload retitling).revise post article retitling).after store
  let revision : Revision :=
    { next := [("id", .integer 7), ("title", .string "b"), ("authorId", .integer 1)] }
  have hrevise : ((inPayload retitling).revise post article retitling).outcome store =
      (.ok revision, gathered) := rfl
  have hposts : gathered.items "Post" =
      [[("id", .integer 7), ("title", .string "a"), ("authorId", .integer 1)]] := rfl
  have hgone : gathered.Superseded post article := by
    intro item hitem _
    have hitem : item ∈ gathered.items "Post" := hitem
    rw [hposts, List.mem_singleton] at hitem
    subst hitem
    decide
  obtain ⟨hitems, -, hfails⟩ := update_ends_in_place rfl hunique mem_post rfl hhas hrevise
  obtain ⟨e, hfailed⟩ := hfails hgone (by decide)
  exact ⟨revision, gathered, _, e, hrevise, hgone, hfailed, (hitems "Post").trans hposts⟩

end Press

end RecordStore
