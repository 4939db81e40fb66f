import RecordStore.Proofs.Notices
import RecordStore.Proofs.Write.Direct

/-!
# What a call answers

A call that writes one record answers it as it stored it.  The nested writes that wait until the
record is stored may come back to it, and what they make of it is not answered: the answer was in
the collection at some moment of the call, and it still is unless a later notice of the call leaves
it out.
-/

namespace RecordStore

open Store Write

namespace Upkeep

variable {u : Upkeep} {schema : Schema} {store : Store} {model : Model}

/-- The record that a call is going to answer is known. -/
theorem gives_prepare (hlaws : u.Lawful schema) (hmodel : model ∈ schema.models)
    (call : RecordCall) (args : Value) :
    u.Gives store (call.prepare model args) fun pending next =>
      u.Knows next model pending.record := by
  cases call with
  | create =>
      refine .bind_require fun parsed _ => .bind_require fun _ _ => ?_
      exact .bind (gives_createRecord hlaws hmodel parsed.data) fun _ _ _ hknown =>
        .pure fun _ => hknown
  | update =>
      refine .bind_require fun parsed _ => .bind_require fun _ _ => ?_
      refine .bind (alike_target hlaws.allows hmodel parsed.filter (by nofun)).gives
        fun _ _ _ hcurrent => ?_
      exact .bind (gives_updateRecord hlaws hmodel hcurrent parsed.data) fun _ _ _ hknown =>
        .pure fun _ => hknown
  | upsert =>
      refine .bind_require fun parsed _ => .bind_require fun _ _ => .bind_get fun hstore => ?_
      split
      · rename_i current hfound
        have hcurrent := knows_of_first? hlaws hstore hmodel hfound
        exact .bind (gives_updateRecord hlaws hmodel hcurrent parsed.update) fun _ _ _ hknown =>
          .pure fun _ => hknown
      · exact .bind (gives_createRecord hlaws hmodel parsed.create) fun _ _ _ hknown =>
          .pure fun _ => hknown
  | delete =>
      refine .bind_require fun parsed _ => .bind_require fun _ _ => ?_
      exact .bind (alike_target hlaws.allows hmodel parsed.filter (by nofun)).gives
        fun _ _ _ hknown => .pure fun _ => hknown

end Upkeep

namespace RecordCall

variable {call : RecordCall} {model : Model} {args : Value} {store next : Store}
variable {pending : Pending} {record : Record}

/-- How the arguments of a call want its answer to be shaped. -/
def projection : RecordCall → Value → Except Error Projection
  | .create, args => (Arguments.create args).map CreateArguments.projection
  | .update, args => (Arguments.update args).map UpdateArguments.projection
  | .upsert, args => (Arguments.upsert args).map UpsertArguments.projection
  | .delete, args => (Arguments.delete args).map DeleteArguments.projection

/-! ## What a call prepares -/

/-- A create stores a new record. -/
theorem prepare_create_ok (h : (prepare .create model args).outcome store = (.ok pending, next)) :
    ∃ parsed, Arguments.create args = .ok parsed ∧ pending.projection = parsed.projection ∧
      (createRecord model parsed.data).outcome store = (.ok pending.record, next) := by
  obtain ⟨parsed, hparsed, h⟩ := outcome_bind_require_ok h
  obtain ⟨_, -, h⟩ := outcome_bind_require_ok h
  obtain ⟨record, stored, hrecord, h⟩ := outcome_bind_ok h
  obtain ⟨hpending, rfl⟩ := Prod.mk.inj h
  obtain rfl := Except.ok.inj hpending
  exact ⟨parsed, hparsed, rfl, hrecord⟩

/-- What a call looks for is the first record that satisfies the filter. -/
theorem target_ok {filter : Option Record} {cause : MissingRecord}
    (h : (target model filter cause).outcome store = (.ok record, next)) :
    store.first? model filter = some record ∧ next = store := by
  rw [target, outcome_bind_get] at h
  cases hfirst : store.first? model filter with
  | none =>
      rw [hfirst] at h
      cases h
  | some found =>
      rw [hfirst] at h
      obtain ⟨hrecord, rfl⟩ := Prod.mk.inj h
      exact ⟨congrArg some (Except.ok.inj hrecord), rfl⟩

/-- An update rewrites the first record that it finds. -/
theorem prepare_update_ok (h : (prepare .update model args).outcome store = (.ok pending, next)) :
    ∃ parsed current, Arguments.update args = .ok parsed ∧
      pending.projection = parsed.projection ∧ store.first? model parsed.filter = some current ∧
      (updateRecord model current parsed.data).outcome store = (.ok pending.record, next) := by
  obtain ⟨parsed, hparsed, h⟩ := outcome_bind_require_ok h
  obtain ⟨_, -, h⟩ := outcome_bind_require_ok h
  obtain ⟨current, found, hcurrent, h⟩ := outcome_bind_ok h
  obtain ⟨record, stored, hrecord, h⟩ := outcome_bind_ok h
  obtain ⟨hpending, rfl⟩ := Prod.mk.inj h
  obtain rfl := Except.ok.inj hpending
  obtain ⟨hfirst, rfl⟩ := target_ok hcurrent
  exact ⟨parsed, current, hparsed, rfl, hfirst, hrecord⟩

/-- An upsert rewrites the first record that it finds, or else stores a new one. -/
theorem prepare_upsert_ok (h : (prepare .upsert model args).outcome store = (.ok pending, next)) :
    ∃ parsed, Arguments.upsert args = .ok parsed ∧ pending.projection = parsed.projection ∧
      ((∃ current, store.first? model parsed.filter = some current ∧
        (updateRecord model current parsed.update).outcome store = (.ok pending.record, next)) ∨
      (createRecord model parsed.create).outcome store = (.ok pending.record, next)) := by
  obtain ⟨parsed, hparsed, h⟩ := outcome_bind_require_ok h
  obtain ⟨_, -, h⟩ := outcome_bind_require_ok h
  refine ⟨parsed, hparsed, ?_⟩
  rw [outcome_bind_get] at h
  cases hfirst : store.first? model parsed.filter with
  | some current =>
      rw [hfirst] at h
      obtain ⟨record, stored, hrecord, h⟩ := outcome_bind_ok h
      obtain ⟨hpending, rfl⟩ := Prod.mk.inj h
      obtain rfl := Except.ok.inj hpending
      exact ⟨rfl, Or.inl ⟨current, rfl, hrecord⟩⟩
  | none =>
      rw [hfirst] at h
      obtain ⟨record, stored, hrecord, h⟩ := outcome_bind_ok h
      obtain ⟨hpending, rfl⟩ := Prod.mk.inj h
      obtain rfl := Except.ok.inj hpending
      exact ⟨rfl, Or.inr hrecord⟩

/-- A call that has been prepared shapes its answer as its arguments want. -/
theorem projection_of_prepare (hcall : call ≠ .delete)
    (h : (call.prepare model args).outcome store = (.ok pending, next)) :
    call.projection args = .ok pending.projection := by
  cases call with
  | create =>
      obtain ⟨parsed, hparsed, hprojection, -⟩ := prepare_create_ok h
      rw [projection, hparsed, hprojection]
      rfl
  | update =>
      obtain ⟨parsed, _, hparsed, hprojection, -⟩ := prepare_update_ok h
      rw [projection, hparsed, hprojection]
      rfl
  | upsert =>
      obtain ⟨parsed, hparsed, hprojection, -⟩ := prepare_upsert_ok h
      rw [projection, hparsed, hprojection]
      rfl
  | delete => exact absurd rfl hcall

/-- A call for a projection of nothing answers the record that it has written, as it was when the
    call was prepared. -/
theorem answer_of_prepare (hcall : call ≠ .delete) (hplain : call.projection args = .ok {})
    (h : (call.write model args).outcome store = (.ok record, next)) :
    ∃ pending, (call.prepare model args).outcome store = (.ok pending, next) ∧
      pending.record = record := by
  rw [write_eq] at h
  obtain ⟨pending, prepared, hprepare, hfinish⟩ := outcome_bind_ok h
  obtain hprojection := Except.ok.inj ((projection_of_prepare hcall hprepare).symm.trans hplain)
  have hshaped : (call.finish model pending).outcome prepared = (.ok pending.record, prepared) := by
    have hshape : pending.projection.shape prepared model pending.record = .ok pending.record := by
      rw [hprojection]
      rfl
    cases call with
    | delete => exact absurd rfl hcall
    | _ =>
        show (require (pending.projection.shape prepared model pending.record)).outcome prepared = _
        rw [hshape, outcome_require]
  obtain ⟨hrecord, rfl⟩ := Prod.mk.inj (hshaped.symm.trans hfinish)
  exact ⟨pending, hprepare, Except.ok.inj hrecord⟩

/-! ## Payloads of plain fields -/

theorem mem_of_createRecord_scalar {data : Record} (hscalar : model.ScalarPayload data)
    (h : (createRecord model data).outcome store = (.ok record, next)) :
    record.IsAmong (next.items model.name) := by
  obtain ⟨nested, heq⟩ := NestedWrites.createRecord_eq model data
  rw [heq, nested.createStep_of_scalar hscalar] at h
  obtain ⟨-, -, rfl⟩ := complete_ok h
  refine .of_mem ?_
  rw [append, items_replaceCollection_self]
  exact List.mem_append_right _ (List.mem_singleton_self record)

theorem among_of_updateRecord_scalar {current data : Record} (hscalar : model.ScalarPayload data)
    (hcurrent : current ∈ store.items model.name)
    (h : (updateRecord model current data).outcome store = (.ok record, next)) :
    record.IsAmong (next.items model.name) := by
  obtain ⟨nested, heq⟩ := NestedWrites.updateRecord_eq model current data
  rw [heq, nested.updateStep_of_scalar hscalar] at h
  obtain ⟨revised, -, h⟩ := outcome_bind_require_ok h
  obtain ⟨-, hreplaced⟩ := settle_ok h
  obtain ⟨counters, entropy, hsupplied⟩ :=
    supplied_refreshFields model data model.scalarFields revised store
  rw [hsupplied] at hreplaced
  rcases replaceStored_ok hreplaced with ⟨hsame, rfl⟩ | ⟨-, -, hswap⟩
  · exact (Record.IsAmong.of_mem hcurrent).of_same hsame
  · obtain ⟨before, old, later, -, -, -, rfl⟩ := split_of_swap hswap
    refine .of_mem ?_
    rw [items_replaceCollection_self]
    exact List.mem_append_right _ List.mem_cons_self

/-- Without nested writes nothing comes after the record is stored. -/
theorem among_of_prepare_scalar (hcall : call ≠ .delete) (hscalar : call.ScalarPayloads model args)
    (h : (call.prepare model args).outcome store = (.ok pending, next)) :
    pending.record.IsAmong (next.items model.name) := by
  cases call with
  | create =>
      obtain ⟨parsed, hparsed, -, hrecord⟩ := prepare_create_ok h
      exact mem_of_createRecord_scalar (hscalar parsed hparsed) hrecord
  | update =>
      obtain ⟨parsed, current, hparsed, -, hfirst, hrecord⟩ := prepare_update_ok h
      exact among_of_updateRecord_scalar (hscalar parsed hparsed)
        (List.mem_of_find?_eq_some hfirst) hrecord
  | upsert =>
      obtain ⟨parsed, hparsed, -, hstored⟩ := prepare_upsert_ok h
      obtain ⟨hcreate, hupdate⟩ := hscalar parsed hparsed
      rcases hstored with ⟨current, hfirst, hrecord⟩ | hrecord
      · exact among_of_updateRecord_scalar hupdate (List.mem_of_find?_eq_some hfirst) hrecord
      · exact mem_of_createRecord_scalar hcreate hrecord
  | delete => exact absurd rfl hcall

/-! ## Answers -/

/-- A record that a create, an update or an upsert answers has been in the collection at some moment
    of the call.  It still is unless it is missing in a notice that the call has left later, the
    newest one of the collection; and without nested writes there is none. -/
theorem answer_stored_iff (hcall : call ≠ .delete) (hmodel : model ∈ store.schema.models)
    (hplain : call.projection args = .ok {})
    (hrun : (call.write model args).outcome store = (.ok record, next)) :
    (∃ later earlier, next.notices = later ++ earlier ++ store.notices ∧
      record.IsAmong (Notice.listed (store.items model.name) model.name earlier) ∧
      (record.IsAmong (next.items model.name) ↔
        ∀ notice ∈ later.find? fun notice => notice.model = model.name,
          record.IsAmong notice.records)) ∧
    (call.ScalarPayloads model args → record.IsAmong (next.items model.name)) := by
  obtain ⟨pending, hprepare, rfl⟩ := answer_of_prepare hcall hplain hrun
  refine ⟨?_, fun hscalar => among_of_prepare_scalar hcall hscalar hprepare⟩
  have hprepared : (mirrored store).Gives store (call.prepare model args) fun pending next =>
      (mirrored store).Knows next model pending.record :=
    Upkeep.gives_prepare (lawful_mirrored store) hmodel call args
  obtain ⟨hleads, later, earlier, hnotices, hlisted⟩ :=
    (hprepared ⟨[], Told.refl⟩).ok rfl hprepare
  obtain ⟨recent, htold⟩ := hleads.holds
  refine ⟨later, earlier, hnotices, hlisted, ?_⟩
  have hrecent : recent = later ++ earlier :=
    List.append_cancel_right (htold.notices.symm.trans hnotices)
  rw [htold.items, hrecent, Notice.listed_append]
  rw [Notice.listed]
  cases later.find? fun notice => notice.model = model.name with
  | none => exact ⟨fun _ notice h => absurd h (Option.not_mem_none notice), fun _ => hlisted⟩
  | some notice => exact ⟨fun h _ heq => Option.some.inj heq ▸ h, fun h => h notice rfl⟩

end RecordCall

namespace Blog

open RecordCall

/-- Users with a name. -/
def user : Model where
  name := "User"
  fields := [{ name := "id", kind := .scalar, typeName := "Int", isId := true },
    { name := "name", kind := .scalar, typeName := "String" },
    { name := "posts", kind := .relation, typeName := "Post", isList := true,
      relationName := some "writes" }]

/-- Posts, each with its author. -/
def post : Model where
  name := "Post"
  fields := [{ name := "id", kind := .scalar, typeName := "Int", isId := true },
    { name := "authorId", kind := .scalar, typeName := "Int" },
    { name := "author", kind := .relation, typeName := "User", relationName := some "writes",
      fromFields := ["authorId"], toFields := ["id"] }]

def schema : Schema where
  options := {}
  models := [user, post]
  nodup_names := by decide
  targets_known := by decide

/-- A user signs up and writes a post. -/
def firstPost : List Request := [
  .write .create "User" (.object [("data", .object [("id", .integer 1), ("name", .string "a")])]),
  .write .create "Post" (.object [("data", .object [("id", .integer 7),
    ("authorId", .integer 1)])])]

/-- The user is updated through the author of its posts. -/
def nameViaPosts : Value :=
  .object [("where", .object [("id", .integer 1)]), ("data", .object [("posts", .object
    [("updateMany", .object [("author", .object [("update", .object [("name", .string "b")])])])])])]

/-- The user is updated at once. -/
def nameAtOnce : Value :=
  .object [("where", .object [("id", .integer 1)]), ("data", .object [("name", .string "b")])]

/-- The blog with one user, whose first post is stored. -/
def blog : Store := (ofSchema schema 0 ⟨0⟩).run firstPost

/-- The user under a name. -/
def named (name : String) : Record := [("id", .integer 1), ("name", .string name)]

/-- The answer still has the old name, under which nobody is stored any more. -/
theorem answer_not_stored :
    ¬∀ (schema : Schema) (clock : Int) (entropy : Entropy) (requests : List Request)
        (call : RecordCall) (model : Model) (args : Value) (record : Record) (next : Store),
      call ≠ .delete → model ∈ schema.models → call.projection args = .ok {} →
        (call.write model args).outcome ((ofSchema schema clock entropy).run requests) =
          (.ok record, next) → record.IsAmong (next.items model.name) := by
  intro h
  have hrun : (RecordCall.update.write user nameViaPosts).outcome blog =
      (.ok (named "a"), (RecordCall.update.write user nameViaPosts).after blog) := rfl
  obtain ⟨stored, hstored, hstands⟩ :=
    h schema 0 ⟨0⟩ firstPost .update user nameViaPosts _ _ (by decide) List.mem_cons_self rfl hrun
  obtain rfl : stored = named "b" := List.mem_singleton.mp hstored
  rcases hstands with heq | hsame
  · simp [named] at heq
  · exact absurd hsame (by decide)

/-- The old name was stored when the update through the posts began; the new name, which is given at
    once, is stored when that update ends. -/
theorem answers_of_updates :
    user ∈ blog.schema.models ∧
    (∃ next, (RecordCall.update.write user nameViaPosts).outcome blog = (.ok (named "a"), next) ∧
      ∃ later earlier, next.notices = later ++ earlier ++ blog.notices ∧
        (named "a").IsAmong (Notice.listed (blog.items user.name) user.name earlier)) ∧
    ∃ next, (RecordCall.update.write user nameAtOnce).outcome blog = (.ok (named "b"), next) ∧
      (named "b").IsAmong (next.items user.name) := by
  have hrun : (RecordCall.update.write user nameViaPosts).outcome blog =
      (.ok (named "a"), (RecordCall.update.write user nameViaPosts).after blog) := rfl
  have hrun' : (RecordCall.update.write user nameAtOnce).outcome blog =
      (.ok (named "b"), (RecordCall.update.write user nameAtOnce).after blog) := rfl
  have hscalar : RecordCall.update.ScalarPayloads user nameAtOnce := by
    intro parsed hparsed
    have hdata : parsed.data = [("name", .string "b")] :=
      congrArg UpdateArguments.data (Except.ok.inj hparsed).symm
    rw [hdata]
    exact List.forall_mem_singleton.mpr rfl
  have hmember : user ∈ blog.schema.models := List.mem_cons_self
  obtain ⟨⟨later, earlier, hnotices, hlisted, -⟩, -⟩ :=
    answer_stored_iff (by decide) hmember rfl hrun
  exact ⟨hmember, ⟨_, hrun, later, earlier, hnotices, hlisted⟩, _, hrun',
    (answer_stored_iff (by decide) hmember rfl hrun').2 hscalar⟩

end Blog

end RecordStore
