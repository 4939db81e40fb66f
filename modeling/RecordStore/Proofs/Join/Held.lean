import RecordStore.Proofs.Delete.Links
import RecordStore.Proofs.Relation.BothEnds

/-!
# Links to stored records

After a run of a client each end of a link belongs to a stored record, unless a write that is no
delete has lost the id meanwhile: a record had the id when the write began, or was stored with it on
the way, and when the write ended there was none.  A delete never does this, however far it
cascades.  An update does it by writing another id, since it leaves the links of the record as they
are.
-/

namespace RecordStore

namespace Joins

/-- No records are linked by the joins of a schema yet. -/
theorem reset_ofModels (models : List Model) : (ofModels models).reset = ofModels models := by
  have hnone : ∀ join ∈ ofModels models, { join with links := [] } = join :=
    fun join hjoin => by rw [← links_of_mem_ofModels hjoin]
  exact (List.map_congr_left hnone).trans (List.map_id _)

end Joins

namespace Store

variable {origin store : Store} {schema : Schema} {P : String → Value → Prop}

/-- Since an earlier store a record of a model had an id, and none has it now. -/
def Loses (origin store : Store) (name : String) (id : Value) : Prop :=
  store.schema.IdAmong name (store.recordsSince origin name) id ∧ ¬ store.HoldsId name id

/-- Some write of a run, which is no delete, has lost the id of a record of a model. -/
def Lost (start : Store) (requests : List Request) (name : String) (id : Value) : Prop :=
  ∃ before operation target args after,
    requests = before ++ .write operation target args :: after ∧
      operation ≠ .delete ∧ operation ≠ .deleteMany ∧
        (start.run before).Loses ((start.run before).apply (.write operation target args)) name id

/-- What is lost stays so in a longer run. -/
theorem Lost.append {start : Store} {requests : List Request} {name : String} {id : Value}
    (h : Lost start requests name id) (more : List Request) :
    Lost start (requests ++ more) name id := by
  obtain ⟨before, operation, target, args, after, rfl, hwrite⟩ := h
  exact ⟨before, operation, target, args, after ++ more, List.append_assoc .., hwrite⟩

/-- An end that a write has left is that of a stored record, or the write has lost its id. -/
theorem Since.tidy (h : origin.Since P store) :
    store.Tidy origin.schema fun name id => origin.Loses store name id ∨ P name id := by
  refine ⟨h.schema_eq, h.declared, fun hkeyed => (h.ends hkeyed).imp fun name id hend => ?_⟩
  refine hend.imp_right fun hend => ?_
  by_cases hholds : store.HoldsId name id
  · exact Or.inl hholds
  · exact Or.inr (hend.imp_left fun hsince => ⟨hsince, hholds⟩)

/-- A reset leaves no links. -/
theorem Tidy.reset (h : store.Tidy schema P) (hpairs : schema.PairsJoins)
    (hannounced : store.Announced) : store.reset.Tidy schema P := by
  obtain rfl := h.schema_eq
  have hemptied := (Upkeep.leads_emptied (lawful_traced hpairs hannounced P) store.collections.keys
    store h.since).holds
  refine ⟨hemptied.schema_eq, ?_, fun _ => Joins.EachEnd.reset _⟩
  exact (Joins.reset_reset _).trans hemptied.declared

/-- A write leaves tidy what a run has left tidy. -/
theorem tidy_write {start : Store} {requests : List Request} (hpairs : schema.PairsJoins)
    (hannounced : (start.run requests).Announced)
    (h : (start.run requests).Tidy schema (Lost start requests)) (operation : WriteOperation)
    (name : String) (args : Value) :
    ((start.run requests).apply (.write operation name args)).Tidy schema
      (Lost start (requests ++ [.write operation name args])) := by
  obtain rfl := h.schema_eq
  by_cases hdelete : operation = .delete ∨ operation = .deleteMany
  · refine Tidy.imp (P := Lost start requests) ?_ fun _ _ hlost => hlost.append _
    cases hmodel : (start.run requests).schema.model? name with
    | none => exact (apply_write_of_none hmodel).symm ▸ h
    | some model =>
        have hmember := (Schema.model?_spec hmodel).1
        have hleaves {α : Type} {w : Write α} (hends : Write.Triple (· = start.run requests) w
            (fun _ => Tidy (start.run requests).schema (Lost start requests))
            fun _ => Tidy (start.run requests).schema (Lost start requests)) :
            ((discard w).after (start.run requests)).Tidy (start.run requests).schema
              (Lost start requests) :=
          Write.Triple.after (Write.Triple.discard hends) rfl
        rw [apply_write_of_some hmodel]
        rcases hdelete with rfl | rfl
        · exact hleaves (Write.ends_delete hmember h args)
        · exact hleaves (Write.ends_deleteMany hmember h args)
  · obtain ⟨hone, hmany⟩ := not_or.mp hdelete
    have hsince := (Upkeep.leads_apply_write (lawful_traced hpairs hannounced _) h.since operation
      name args).holds
    refine hsince.tidy.imp fun other id hend => ?_
    rcases hend with hloses | hlost
    · exact ⟨requests, operation, name, args, [], rfl, hone, hmany, hloses⟩
    · exact hlost.append _

/-- After a run every stored record has been told of. -/
theorem announced_run (schema : Schema) (clock : Int) (entropy : Entropy)
    (requests : List Request) : ((ofSchema schema clock entropy).run requests).Announced := by
  refine run_induction (fun _ _ hstep h => h.change hstep) (fun _ _ h => h) requests _ ?_
  intro name record hrecord
  rw [items_ofSchema] at hrecord
  cases hrecord

/-- A run leaves each end of a link at a stored record, or it has lost the id of the end. -/
theorem tidy_run (hpairs : schema.PairsJoins) (clock : Int) (entropy : Entropy)
    (requests : List Request) : ((ofSchema schema clock entropy).run requests).Tidy schema
      (Lost (ofSchema schema clock entropy) requests) := by
  -- the induction is on the last request, since what is lost is told from where the run starts
  induction requests using List.reverseRecOn with
  | nil =>
      refine ⟨rfl, Joins.reset_ofModels _, fun _ join hjoin link hlink => ?_⟩
      rw [Joins.links_of_mem_ofModels hjoin] at hlink
      cases hlink
  | append_singleton requests request ih =>
      have hannounced := announced_run schema clock entropy requests
      rw [show (ofSchema schema clock entropy).run (requests ++ [request]) =
        ((ofSchema schema clock entropy).run requests).apply request from List.foldl_append ..]
      cases request with
      | reset => exact (ih.reset hpairs hannounced).imp fun _ _ hlost => hlost.append _
      | wait clock =>
          have hmore := ih.imp fun _ _ hlost => hlost.append [.wait clock]
          exact ⟨hmore.schema_eq, hmore.declared, hmore.ends⟩
      | write operation name args => exact tidy_write hpairs hannounced ih operation name args

/-- After any run in which the ids of joined models are keys, each end of each link is that of a
    stored record, or a write that is no delete has lost it. -/
theorem held_or_lost_run (hpairs : schema.PairsJoins) (clock : Int) (entropy : Entropy)
    (requests : List Request) (hkeyed : ((ofSchema schema clock entropy).run requests).Keyed) :
    ((ofSchema schema clock entropy).run requests).joins.EachEnd fun name id =>
      ((ofSchema schema clock entropy).run requests).HoldsId name id ∨
        Lost (ofSchema schema clock entropy) requests name id :=
  ((tidy_run hpairs clock entropy requests).ends hkeyed).imp fun _ _ h => h.2

end Store

namespace Library

open Store

/-- A book comes with a tag and is given another one; then the first tag is deleted. -/
def tagging : List Request := [
  .write .create "Book" (.object [("data", .object [("id", .integer 7),
    ("tags", .object [("create", .object [("id", .string "t")])])])]),
  .write .update "Book" (.object [("where", .object [("id", .integer 7)]),
    ("data", .object [("tags", .object [("create", .object [("id", .string "u")])])])]),
  .write .delete "Tag" (.object [("where", .object [("id", .string "t")])])]

/-- A tag gets another id while a book is linked to it. -/
def relabelling : List Request := [
  .write .create "Book" (.object [("data", .object [("id", .integer 7),
    ("tags", .object [("create", .object [("id", .string "t")])])])]),
  .write .update "Tag" (.object [("where", .object [("id", .string "t")]),
    ("data", .object [("id", .string "u")])])]

theorem pairsJoins_schema : schema.PairsJoins := by
  unfold Schema.PairsJoins
  decide

theorem held_or_lost_run_tagging :
    (((ofSchema schema 0 ⟨0⟩).run tagging).joins.map (·.links.length)) = [1] ∧
      ((ofSchema schema 0 ⟨0⟩).run tagging).joins.EachEnd fun name id =>
        ((ofSchema schema 0 ⟨0⟩).run tagging).HoldsId name id ∨
          Lost (ofSchema schema 0 ⟨0⟩) tagging name id :=
  ⟨by decide, held_or_lost_run pairsJoins_schema 0 ⟨0⟩ tagging
    (by unfold Store.Keyed Schema.IsJoined; decide)⟩

/-- The link of the book is left at an id that no tag has. -/
theorem run_relabelling : schema.options.enforceUnique = true ∧
    (∀ model ∈ schema.models, model.idFields.length = 1) ∧
    ((ofSchema schema 0 ⟨0⟩).run relabelling).Keyed ∧
    ¬ ((ofSchema schema 0 ⟨0⟩).run relabelling).LinksStored := by
  refine ⟨rfl, by decide, ?_, ?_⟩
  · unfold Store.Keyed Schema.IsJoined
    decide
  · unfold Store.LinksStored Store.HoldsId Schema.IdAmong
    decide

end Library

end RecordStore
