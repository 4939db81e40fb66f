import RecordStore.Proofs.Delete.Course

/-!
# Deletes and the links of what they remove

A delete removes every link that a removed record is at an end of, through whatever cascades the
record was reached, and no other link: the joins afterwards are the joins before, stripped of the
ids of the removed records.  The ids are those of the records as they stood before the delete,
provided that no delete nulls a part of an id.
-/

namespace RecordStore

namespace Store

variable {origin store : Store} {seed : String → Nat → Prop} {left : Leavers}

/-- An id is that of a record at one of the positions that are gone. -/
def IdGone (store : Store) (gone : String → Nat → Prop) (name : String) (id : Value) : Prop :=
  ∃ model ∈ store.schema.models, model.name = name ∧ ∃ i record, gone name i ∧
    (store.items name)[i]? = some record ∧ model.Identifies record id

/-- A delete that has come to its end has stripped the joins of all that have left. -/
theorem Completed.joins_eq (h : Completed origin seed left store) :
    store.joins = origin.joins.without (origin.schema.Names left) := by
  obtain ⟨P, hjoins, hnames⟩ := h.thinned.joins
  refine hjoins.trans (Joins.without_congr hnames fun join hjoin link hlink => ?_)
  rw [← hjoins] at hjoin
  constructor
  · rintro ⟨model, hmodel, hname, i, record, hleft, hid⟩
    exact ((h.forgotten model hmodel i record (hname ▸ hleft)).unlinked join hjoin link hlink).1
      ⟨hname.symm, hid⟩
  · rintro ⟨model, hmodel, hname, i, record, hleft, hid⟩
    exact ((h.forgotten model hmodel i record (hname ▸ hleft)).unlinked join hjoin link hlink).2
      ⟨hname.symm, hid⟩

/-- Who has left is named by the id that the record had at the start. -/
theorem Thinned.names_iff (h : Thinned origin left store)
    (hids : ∀ model ∈ origin.schema.models, ∀ column ∈ model.idFields,
      ¬ origin.schema.Nullable model.name column) (name : String) (id : Value) :
    origin.schema.Names left name id ↔
      origin.IdGone (fun name i => ∃ record, left name i record) name id := by
  have hsame {model : Model} (hmodel : model ∈ origin.schema.models) {old record : Record}
      (hcleared : Record.Cleared (origin.schema.Nullable model.name) old record) :
      model.Identifies record id ↔ model.Identifies old id := by
    rw [Model.Identifies, Model.Identifies, Model.recordId_of_cleared hcleared (hids model hmodel)]
  constructor
  · rintro ⟨model, hmodel, rfl, i, record, hleft, hid⟩
    obtain ⟨old, hold, hcleared⟩ := h.standing _ i record hleft
    exact ⟨model, hmodel, rfl, i, old, ⟨record, hleft⟩, hold, (hsame hmodel hcleared).mp hid⟩
  · rintro ⟨model, hmodel, rfl, i, found, ⟨record, hleft⟩, hfound, hid⟩
    obtain ⟨old, hold, hcleared⟩ := h.standing _ i record hleft
    obtain rfl := Option.some.inj (hold.symm.trans hfound)
    exact ⟨model, hmodel, rfl, i, record, hleft, (hsame hmodel hcleared).mpr hid⟩

/-- Some records of each collection are gone, those of a seed among them; the others are there in
    order, at most with columns cleared, and the joins are stripped of the ids that are gone. -/
structure Unlinks (origin : Store) (seed gone : String → Nat → Prop) (store : Store) : Prop where
  remains : ∀ name, Remains (Record.Cleared (origin.schema.Nullable name)) (gone name)
    (origin.items name) (store.items name)
  seeded : ∀ name i, seed name i → gone name i
  joins : store.joins = origin.joins.without (origin.IdGone gone)

theorem Completed.unlinks (h : Completed origin seed left store)
    (hids : ∀ model ∈ origin.schema.models, ∀ column ∈ model.idFields,
      ¬ origin.schema.Nullable model.name column)
    (hstored : ∀ name i, seed name i → ∃ record, (origin.items name)[i]? = some record) :
    Unlinks origin seed (fun name i => ∃ record, left name i record) store := by
  refine ⟨h.thinned.remains, fun name i hseed => ?_, ?_⟩
  · obtain ⟨record, hrecord⟩ := hstored name i hseed
    exact ⟨record, h.seeded name i record hseed hrecord⟩
  · rw [h.joins_eq]
    congr 1
    exact funext fun name => funext fun id => propext (h.thinned.names_iff hids name id)

end Store

namespace Write

open Store

/-- A delete strips the joins of the ids of all records that it removes, and of no other. -/
theorem delete_unlinks {store : Store}
    (hids : ∀ model ∈ store.schema.models, ∀ column ∈ model.idFields,
      ¬ store.schema.Nullable model.name column)
    {model : Model} (hmodel : model ∈ store.schema.models) :
    (∀ filter, ∃ next gone, (deleteMatching model filter).outcome store =
        (.ok (store.select model filter (store.items model.name)), next) ∧
      store.Unlinks (store.Matching model filter) gone next) ∧
    (∀ target, ∃ next gone, (deleteRecord model target).outcome store = (.ok (), next) ∧
      store.Unlinks (store.FirstEqual model target) gone next) := by
  constructor
  · intro filter
    obtain ⟨next, left, hrun, hcompleted⟩ := completed_deleteMatching hmodel filter
    refine ⟨next, _, hrun, hcompleted.unlinks hids ?_⟩
    rintro name i ⟨-, record, hrecord, -⟩
    exact ⟨record, hrecord⟩
  · intro target
    obtain ⟨next, left, hrun, hcompleted⟩ := completed_deleteRecord hmodel target
    refine ⟨next, _, hrun, hcompleted.unlinks hids ?_⟩
    rintro name i ⟨-, ⟨record, hrecord, -⟩, -⟩
    exact ⟨record, hrecord⟩

end Write

namespace Teamwork

open Store Write

/-- A team takes its projects with it. -/
def team : Model where
  name := "Team"
  fields := [
    { name := "id", kind := .scalar, typeName := "Int", isId := true },
    { name := "projects", kind := .relation, typeName := "Project", isList := true,
      relationName := some "owner" }]

def project : Model where
  name := "Project"
  fields := [
    { name := "id", kind := .scalar, typeName := "Int", isId := true },
    { name := "teamId", kind := .scalar, typeName := "Int" },
    { name := "team", kind := .relation, typeName := "Team", relationName := some "owner",
      fromFields := ["teamId"], toFields := ["id"], onDelete := some .cascade },
    { name := "labels", kind := .relation, typeName := "Label", isList := true,
      relationName := some "labelled" }]

def label : Model where
  name := "Label"
  fields := [
    { name := "id", kind := .scalar, typeName := "Int", isId := true },
    { name := "projects", kind := .relation, typeName := "Project", isList := true,
      relationName := some "labelled" }]

def schema : Schema where
  options := {}
  models := [team, project, label]
  nodup_names := by decide
  targets_known := by decide

/-- Two teams with a project each; the ids of projects are also those of labels. -/
def plan : Store :=
  { ofSchema schema 0 ⟨0⟩ with
    collections := [
      ("Team", [[("id", .integer 1)], [("id", .integer 2)]]),
      ("Project", [[("id", .integer 1), ("teamId", .integer 1)],
        [("id", .integer 2), ("teamId", .integer 2)]]),
      ("Label", [[("id", .integer 1)], [("id", .integer 2)]])]
    joins := [
      { name := "labelled", a := ⟨"labels", "Project"⟩, b := ⟨"projects", "Label"⟩
        links := [⟨.integer 1, .integer 2⟩, ⟨.integer 2, .integer 1⟩] }] }

theorem not_nullable (name column : String) : ¬ plan.schema.Nullable name column := by
  rintro ⟨model, hmodel, -, field, hfield, -, hpolicy, -⟩
  have hnone : ∀ model ∈ schema.models, ∀ field ∈ model.relationFields,
      field.onDelete ≠ some .setNull := by decide
  exact hnone model hmodel field hfield hpolicy

/-- With the first team its project goes, and the link of that project; the link of the label with
    the same id stays. -/
theorem delete_first_team :
    (∀ model ∈ plan.schema.models, ∀ column ∈ model.idFields,
      ¬ plan.schema.Nullable model.name column) ∧ team ∈ plan.schema.models ∧
      ((deleteMatching team (some [("id", .integer 1)])).after plan).joins.map (·.links.length) =
        [1] ∧
      ∃ next gone, (deleteMatching team (some [("id", .integer 1)])).outcome plan =
          (.ok (plan.select team (some [("id", .integer 1)]) (plan.items "Team")), next) ∧
        plan.Unlinks (plan.Matching team (some [("id", .integer 1)])) gone next :=
  ⟨fun _ _ _ _ => not_nullable _ _, List.mem_cons_self, by decide,
    (delete_unlinks (fun _ _ _ _ => not_nullable _ _) List.mem_cons_self).1
      (some [("id", .integer 1)])⟩

end Teamwork

end RecordStore
