import RecordStore.Proofs.Write.Direct

/-!
# Skipping duplicates

A create of several records that skips duplicates tries its payloads one after the other, and goes
on after one that collides.  A payload counts if it comes to a record, which it has then added to
its collection.  One that is skipped before its record is stored has changed nothing itself; but
the nested writes that it needed for its key columns have run before, and are not taken back.
-/

namespace RecordStore

open Store

/-! ## One payload -/

namespace NestedWrites

open Write

variable {nested : NestedWrites} {model : Model} {data record : Record} {e : Error}
variable {tried gathered stored next : Store}

/-- The part of a create that comes before its record: going through the payload, and with it the
    nested writes that decide the key columns of the record. -/
def gather (nested : NestedWrites) (model : Model) (data : Record) : Write Draft :=
  data.foldlM (fun draft (key, value) => nested.draftStep model draft key value) {}

/-- A create stores its record, on a store to which gathering the payload has led. -/
def Stores (nested : NestedWrites) (model : Model) (data : Record) (tried gathered : Store)
    (record : Record) (stored : Store) : Prop :=
  ∃ draft, (nested.gather model data).outcome tried = (.ok draft, gathered) ∧
    (complete model draft.given).outcome gathered = (.ok record, stored)

/-- A payload that counts comes to a record, which it has added to the collection. -/
structure Counts (nested : NestedWrites) (model : Model) (tried : Store) (data record : Record)
    (next : Store) : Prop where
  created : (nested.createStep model data).outcome tried = (.ok record, next)
  added : ∃ gathered stored, nested.Stores model data tried gathered record stored ∧
    stored.items model.name = gathered.items model.name ++ [record]

/-- A payload that is skipped has collided.  If it did before its record was stored, everything is
    as gathering the payload has left it, and without nested writes as it was. -/
structure Skips (nested : NestedWrites) (model : Model) (tried : Store) (data : Record)
    (next : Store) : Prop where
  collided : ∃ name fields,
    (nested.createStep model data).outcome tried = (.error (.uniqueConstraint name fields), next)
  kept : (∀ gathered record stored, ¬ nested.Stores model data tried gathered record stored) →
    Supplied ((nested.gather model data).after tried) next
  plain : model.ScalarPayload data → Supplied tried next

theorem createStep_eq_gather (nested : NestedWrites) (model : Model) (data : Record) :
    nested.createStep model data = do
      let draft ← nested.gather model data
      let record ← complete model draft.given
      draft.deferred.forM fun (field, operations) =>
        nested.writeRelated model field operations record
      return record :=
  nested.createStep_eq model data

end NestedWrites

namespace Write

variable {model : Model} {given : Record} {e : Error} {store last : Store}

/-- A record that cannot be completed has used up defaults at most. -/
theorem complete_error (h : (complete model given).outcome store = (.error e, last)) :
    Supplied store last := by
  rw [outcome_complete] at h
  split at h
  · cases (Prod.mk.inj h).1
  · obtain ⟨-, rfl⟩ := Prod.mk.inj h
    exact supplied_materialize model given store

/-- Of two writes one after the other, the first has failed, or the second where the first has
    led. -/
theorem outcome_bind_error {α β : Type} {w : Write α} {f : α → Write β}
    (h : (w >>= f).outcome store = (.error e, last)) :
    w.outcome store = (.error e, last) ∨
      ∃ a next, w.outcome store = (.ok a, next) ∧ (f a).outcome next = (.error e, last) := by
  rw [outcome_bind] at h
  rcases hfirst : w.outcome store with ⟨failure | a, next⟩
  · rw [hfirst] at h
    obtain ⟨hfailure, rfl⟩ := Prod.mk.inj h
    obtain rfl := Except.error.inj hfailure
    exact Or.inl rfl
  · rw [hfirst] at h
    exact Or.inr ⟨a, next, rfl, h⟩

end Write

namespace NestedWrites

open Write

variable {nested : NestedWrites} {model : Model} {data record : Record} {e : Error}
variable {tried gathered stored next : Store}

/-- A record is stored behind those of its collection. -/
theorem Stores.items_eq (h : nested.Stores model data tried gathered record stored) :
    stored.items model.name = gathered.items model.name ++ [record] := by
  obtain ⟨draft, -, hcomplete⟩ := h
  obtain ⟨-, -, rfl⟩ := complete_ok hcomplete
  obtain ⟨counters, entropy, hsupplied⟩ := supplied_materialize model draft.given gathered
  rw [hsupplied, append, items_replaceCollection_self]
  rfl

/-- A create that comes to a record counts. -/
theorem counts_of_outcome (h : (nested.createStep model data).outcome tried = (.ok record, next)) :
    nested.Counts model tried data record next := by
  refine ⟨h, ?_⟩
  rw [createStep_eq_gather] at h
  obtain ⟨draft, gathered, hgather, h⟩ := outcome_bind_ok h
  obtain ⟨created, stored, hcomplete, h⟩ := outcome_bind_ok h
  obtain ⟨-, finished, -, hreturn⟩ := outcome_bind_ok h
  obtain rfl := Except.ok.inj (Prod.mk.inj hreturn).1
  have hstores : nested.Stores model data tried gathered created stored :=
    ⟨draft, hgather, hcomplete⟩
  exact ⟨gathered, stored, hstores, hstores.items_eq⟩

/-- A create that fails before its record is stored leaves what gathering the payload has left. -/
theorem supplied_of_not_stores
    (h : (nested.createStep model data).outcome tried = (.error e, next))
    (hstores : ∀ gathered record stored, ¬ nested.Stores model data tried gathered record stored) :
    Supplied ((nested.gather model data).after tried) next := by
  rw [createStep_eq_gather] at h
  rcases outcome_bind_error h with hgather | ⟨draft, gathered, hgather, h⟩
  · rw [after, hgather]
    exact .refl
  · rw [after, hgather]
    rcases outcome_bind_error h with hcomplete | ⟨record, stored, hcomplete, -⟩
    · exact complete_error hcomplete
    · exact (hstores gathered record stored ⟨draft, hgather, hcomplete⟩).elim

/-- A create that collides is skipped. -/
theorem skips_of_outcome {name : String} {fields : List String}
    (h : (nested.createStep model data).outcome tried = (.error (.uniqueConstraint name fields), next)) :
    nested.Skips model tried data next where
  collided := ⟨name, fields, h⟩
  kept := supplied_of_not_stores h
  plain hscalar := (createStep_scalar hscalar).error rfl h

end NestedWrites

/-! ## A list of payloads -/

namespace Write

/-- How a list of payloads is gone through: one after the other, each on the store that the one
    before has left, and with a record for each of those that count. -/
inductive Tries (counts : Store → Record → Record → Store → Prop)
    (skips : Store → Record → Store → Prop) :
    Store → List Record → List Record → Store → Prop
  | done (store : Store) : Tries counts skips store [] [] store
  | count {store next last : Store} {data record : Record} {rest created : List Record} :
      counts store data record next → Tries counts skips next rest created last →
        Tries counts skips store (data :: rest) (record :: created) last
  | skip {store next last : Store} {data : Record} {rest created : List Record} :
      skips store data next → Tries counts skips next rest created last →
        Tries counts skips store (data :: rest) created last

variable {store next last : Store} {model : Model} {payloads created : List Record}

/-- One payload that does not count is skipped. -/
theorem Tries.skipped {counts : Store → Record → Record → Store → Prop}
    {skips : Store → Record → Store → Prop} {data : Record}
    (h : Tries counts skips store [data] [] last) : skips store data last := by
  cases h with
  | skip hskip hrest =>
      cases hrest with
      | done => exact hskip

/-- A write whose collisions may be skipped has come to something, or they are and it has
    collided. -/
theorem outcome_orSkip_ok {α : Type} {skip : Bool} {w : Write α} {found : Option α}
    (h : (orSkip skip w).outcome store = (.ok found, next)) :
    (∃ a, found = some a ∧ w.outcome store = (.ok a, next)) ∨
      (found = none ∧ skip = true ∧ ∃ name fields,
        w.outcome store = (.error (.uniqueConstraint name fields), next)) := by
  rw [orSkip, outcome_tryCatch, outcome_map] at h
  rcases hw : w.outcome store with ⟨e | a, reached⟩
  · rw [hw] at h
    dsimp only at h
    split at h
    · cases skip with
      | false => cases (Prod.mk.inj h).1
      | true =>
          obtain ⟨hfound, rfl⟩ := Prod.mk.inj h
          exact Or.inr ⟨(Except.ok.inj hfound).symm, rfl, _, _, rfl⟩
    · cases (Prod.mk.inj h).1
  · rw [hw] at h
    obtain ⟨hfound, rfl⟩ := Prod.mk.inj h
    exact Or.inl ⟨a, (Except.ok.inj hfound).symm, rfl⟩

/-- Creating several records goes through the payloads, whatever is known of those that come to a
    record and of those that collide. -/
theorem tries_createEach {skip : Bool} {create : Record → Write Record}
    {counts : Store → Record → Record → Store → Prop} {skips : Store → Record → Store → Prop}
    (hcounts : ∀ data tried record next, (create data).outcome tried = (.ok record, next) →
      counts tried data record next)
    (hskips : skip = true → ∀ data tried name fields next,
      (create data).outcome tried = (.error (.uniqueConstraint name fields), next) →
        skips tried data next)
    (h : (createEach create skip payloads).outcome store = (.ok created, last)) :
    Tries counts skips store payloads created last := by
  induction payloads generalizing store created with
  | nil =>
      obtain ⟨hcreated, rfl⟩ := Prod.mk.inj h
      obtain rfl := Except.ok.inj hcreated
      exact .done _
  | cons data rest ih =>
      rw [createEach] at h
      obtain ⟨found, next, hfound, h⟩ := outcome_bind_ok h
      rcases outcome_orSkip_ok hfound with
        ⟨record, rfl, hcreate⟩ | ⟨rfl, hskip, name, fields, hcreate⟩
      · obtain ⟨others, reached, hothers, hreturn⟩ := outcome_bind_ok h
        obtain ⟨hcreated, rfl⟩ := Prod.mk.inj hreturn
        obtain rfl := Except.ok.inj hcreated
        exact .count (hcounts data store record next hcreate) (ih hothers)
      · exact .skip (hskips hskip data store name fields next hcreate) (ih h)

/-- Answers are shaped one by one on the store that all the writes have led to. -/
theorem outcome_mapM_shaped_ok {projection : Projection} {records answers : List Record}
    (h : (records.mapM (shaped projection model)).outcome store = (.ok answers, last)) :
    last = store ∧
      List.Forall₂ (fun record answer => projection.shape store model record = .ok answer)
        records answers := by
  induction records generalizing answers with
  | nil =>
      obtain ⟨hanswers, rfl⟩ := Prod.mk.inj h
      obtain rfl := Except.ok.inj hanswers
      exact ⟨rfl, .nil⟩
  | cons record rest ih =>
      rw [List.mapM_cons] at h
      obtain ⟨answer, next, hanswer, h⟩ := outcome_bind_ok h
      obtain ⟨others, reached, hothers, hreturn⟩ := outcome_bind_ok h
      rw [shaped, outcome_bind_get, outcome_require] at hanswer
      obtain ⟨hshape, rfl⟩ := Prod.mk.inj hanswer
      obtain ⟨hanswers, rfl⟩ := Prod.mk.inj hreturn
      obtain rfl := Except.ok.inj hanswers
      obtain ⟨rfl, hrest⟩ := ih hothers
      exact ⟨rfl, .cons hshape hrest⟩

/-- A list of payloads of creates is gone through: each of them counts or is skipped. -/
def TriesCreates (nested : Record → NestedWrites) (model : Model) :
    Store → List Record → List Record → Store → Prop :=
  Tries (fun tried data => (nested data).Counts model tried data)
    fun tried data => (nested data).Skips model tried data

theorem triesCreates_createEach {nested : Record → NestedWrites}
    (h : (createEach (fun data => (nested data).createStep model data) true payloads).outcome store =
      (.ok created, last)) : TriesCreates nested model store payloads created last :=
  tries_createEach (fun _ _ _ _ => NestedWrites.counts_of_outcome)
    (fun _ _ _ _ _ _ => NestedWrites.skips_of_outcome) h

theorem triesCreates_createAll {args : CreateManyArguments} (hskip : args.skipDuplicates = true)
    (h : (createAll model args).outcome store = (.ok created, last)) :
    TriesCreates NestedWrites.inPayload model store args.data.objects created last := by
  rw [createAll, hskip] at h
  exact triesCreates_createEach h

/-- Payloads may be prepared before they are tried. -/
theorem createEach_map (create : Record → Write Record) (skip : Bool) (prepare : Record → Record)
    (payloads : List Record) :
    createEach create skip (payloads.map prepare) =
      createEach (fun data => create (prepare data)) skip payloads := by
  induction payloads with
  | nil => rfl
  | cons data rest ih => rw [List.map_cons, createEach, createEach, ih]

/-- With duplicates skipped, every payload of a create of several records counts or is skipped:
    one that is skipped before its record is stored leaves everything as the nested writes for its
    key columns have left it.  The call answers those that count, or how many they are; the same
    holds of a nested create of several records. -/
theorem createMany_skips :
    (∀ args parsed, Arguments.createMany args = .ok parsed → parsed.skipDuplicates = true →
      (∀ n, (createMany model args).outcome store = (.ok n, last) → ∃ created,
        TriesCreates NestedWrites.inPayload model store parsed.data.objects created last ∧
          n = created.length) ∧
      (∀ answers, (createManyAndReturn model args).outcome store = (.ok answers, last) → ∃ created,
        TriesCreates NestedWrites.inPayload model store parsed.data.objects created last ∧
          List.Forall₂ (fun record answer => parsed.projection.shape last model record = .ok answer)
            created answers)) ∧
    (∀ depth arg scope created,
      ((arg.get? "skipDuplicates").bind Value.bool?).getD false = true →
      ((NestedWrites.within (depth + 1)).createMany model arg scope).outcome store =
        (.ok created, last) →
        TriesCreates (fun _ => NestedWrites.within depth) model store
          (((arg.get? "data").getD .null).objects.map fun data => Entries.insertAll data scope)
          created last) := by
  constructor
  · intro args parsed hparsed hskip
    constructor
    · intro n h
      rw [createMany, hparsed] at h
      obtain ⟨found, hfound, h⟩ := outcome_bind_require_ok h
      obtain rfl := Except.ok.inj hfound
      obtain ⟨created, next, hcreated, hreturn⟩ := outcome_bind_ok h
      obtain ⟨hn, rfl⟩ := Prod.mk.inj hreturn
      exact ⟨created, triesCreates_createAll hskip hcreated, (Except.ok.inj hn).symm⟩
    · intro answers h
      rw [createManyAndReturn, hparsed] at h
      obtain ⟨found, hfound, h⟩ := outcome_bind_require_ok h
      obtain rfl := Except.ok.inj hfound
      obtain ⟨_, -, h⟩ := outcome_bind_require_ok h
      obtain ⟨created, next, hcreated, hshaped⟩ := outcome_bind_ok h
      obtain ⟨rfl, hanswers⟩ := outcome_mapM_shaped_ok hshaped
      exact ⟨created, triesCreates_createAll hskip hcreated, hanswers⟩
  · intro depth arg scope created hskip h
    rw [NestedWrites.createMany, hskip] at h
    refine triesCreates_createEach ?_
    rw [createEach_map]
    exact h

end Write

namespace Enrolment

open Write

/-- Courses, with the students who take them. -/
def course : Model where
  name := "Course"
  fields := [
    { name := "id", kind := .scalar, typeName := "Int", isId := true },
    { name := "students", kind := .relation, typeName := "Student", isList := true,
      relationName := some "takes" }]

/-- Students, who refer to their courses. -/
def student : Model where
  name := "Student"
  fields := [
    { name := "id", kind := .scalar, typeName := "Int", isId := true },
    { name := "courseId", kind := .scalar, typeName := "Int" },
    { name := "course", kind := .relation, typeName := "Course", relationName := some "takes",
      fromFields := ["courseId"], toFields := ["id"] }]

def schema : Schema where
  options := {}
  models := [course, student]
  nodup_names := by decide
  targets_known := by decide

/-- One student, who takes no course yet. -/
def store : Store :=
  { ofSchema schema 0 ⟨0⟩ with
    collections := [("Student", [[("id", .integer 1), ("courseId", .null)]])] }

/-- A student with the number of another one, who brings a course. -/
def duplicate : Value :=
  .object [("id", .integer 1), ("course", .object [("create", .object [("id", .integer 5)])])]

/-- The arguments of a call that skips duplicates. -/
def skipping (payloads : List Value) : Value :=
  .object [("data", .array payloads), ("skipDuplicates", .bool true)]

theorem parse_skipping (payloads : List Value) : Arguments.createMany (skipping payloads) =
    .ok { data := .array payloads, skipDuplicates := true } := rfl

/-- One of two students counts; the course of the other one stays. -/
theorem enrol_two : ∃ parsed,
    Arguments.createMany (skipping [.object [("id", .integer 2)], duplicate]) = .ok parsed ∧
      parsed.skipDuplicates = true ∧ ∃ last created,
        (createMany student (skipping [.object [("id", .integer 2)], duplicate])).outcome store =
          (.ok 1, last) ∧ last.items "Course" = [[("id", .integer 5)]] ∧
        TriesCreates NestedWrites.inPayload student store parsed.data.objects created last ∧
        1 = created.length := by
  have hparsed := parse_skipping [.object [("id", .integer 2)], duplicate]
  have hrun : (createMany student (skipping [.object [("id", .integer 2)], duplicate])).outcome
      store = (.ok 1, (createMany student (skipping [.object [("id", .integer 2)], duplicate])).after
        store) := rfl
  obtain ⟨created, htries, hlength⟩ := (createMany_skips.1 _ _ hparsed rfl).1 1 hrun
  exact ⟨_, hparsed, rfl, _, created, hrun, rfl, htries, hlength⟩

/-- So not every payload that is skipped leaves everything as it was. -/
theorem not_forall_skipped_supplied :
    ¬ ∀ (store last : Store) (model : Model) (args : Value) (parsed : CreateManyArguments) (n : Nat),
      model ∈ store.schema.models → Arguments.createMany args = .ok parsed →
      parsed.skipDuplicates = true → (createMany model args).outcome store = (.ok n, last) →
      ∃ created, Tries (fun tried data => (NestedWrites.inPayload data).Counts model tried data)
        (fun tried _ next => Supplied tried next) store parsed.data.objects created last ∧
          n = created.length := by
  intro h
  have hmodel : student ∈ store.schema.models :=
    List.mem_cons_of_mem _ (List.mem_singleton_self student)
  have hrun : (createMany student (skipping [duplicate])).outcome store =
      (.ok 0, (createMany student (skipping [duplicate])).after store) := rfl
  obtain ⟨created, htries, hlength⟩ :=
    h store _ student (skipping [duplicate]) _ 0 hmodel (parse_skipping [duplicate]) rfl hrun
  obtain rfl := List.eq_nil_of_length_eq_zero hlength.symm
  obtain ⟨counters, entropy, hlast⟩ := htries.skipped
  have hcourses : ((createMany student (skipping [duplicate])).after store).items "Course" =
      store.items "Course" := by rw [hlast]; rfl
  cases hcourses

/-- A course with a student of its own, whose number another student has. -/
def crowded : Value :=
  .object [("id", .integer 2), ("students", .object [("create", .object [("id", .integer 1)])])]

/-- A payload may even be skipped when its own record has been stored: the course stays, although
    it does not count. -/
theorem not_forall_skipped_unstored :
    ¬ ∀ (store last : Store) (model : Model) (args : Value) (parsed : CreateManyArguments) (n : Nat),
      model ∈ store.schema.models → Arguments.createMany args = .ok parsed →
      parsed.skipDuplicates = true → (createMany model args).outcome store = (.ok n, last) →
      ∃ created, Tries (fun tried data => (NestedWrites.inPayload data).Counts model tried data)
        (fun tried _ next => next.items model.name = tried.items model.name) store
        parsed.data.objects created last ∧ n = created.length := by
  intro h
  have hrun : (createMany course (skipping [crowded])).outcome store =
      (.ok 0, (createMany course (skipping [crowded])).after store) := rfl
  obtain ⟨created, htries, hlength⟩ := h store _ course (skipping [crowded]) _ 0
    List.mem_cons_self (parse_skipping [crowded]) rfl hrun
  obtain rfl := List.eq_nil_of_length_eq_zero hlength.symm
  have hcourses : [[("id", Value.integer 2)]] = store.items "Course" := htries.skipped
  cases hcourses

end Enrolment

end RecordStore
