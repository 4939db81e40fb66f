import RecordStore.Proofs.Run

/-!
# What operations fail for

A schema that has been loaded rules out that an operation misses a model later: whatever is asked of
a store, in whatever state, only a nested write through a relation without key columns and without a
name can still blame the schema.
-/

namespace RecordStore

open NestedWrites Store

/-- A write of a client fails for nothing but what writes fail for of themselves, or because it
    nests too deeply. -/
theorem Write.fault_of_write {store next : Store} {model : Model}
    (hmodel : model ∈ store.schema.models) {operation : WriteOperation} {args : Value} {e : Error}
    (hrun : (operation.write model args).outcome store = (.error e, next)) :
    WriteFault store.schema e ∨ e = .nestingExceeded := by
  have hallows : (schemaKept store.schema).Allows
      (fun e => WriteFault store.schema e ∨ e = .nestingExceeded) store.schema :=
    ⟨lawful_schemaKept store.schema, Or.inl⟩
  have hwrite := Upkeep.alike_write hallows hmodel (Or.inr rfl) operation args ⟨rfl, trivial⟩
  exact (hwrite.triple.error rfl hrun).2

namespace NestedWrites

variable {store : Store} {model : Model} {field : Field}

/-- A nested write through a relation without key columns and without a name fails before it does
    anything. -/
theorem writeRelated_unnamed (hmodel : model ∈ store.schema.models)
    (hfield : field ∈ model.relationFields) (hname : field.relationName = none)
    (hlinkage : store.schema.linkage? model field = none) (nested : NestedWrites)
    (operations record : Record) :
    (nested.writeRelated model field operations record).outcome store =
      (.error (.unnamedRelation model.name field.name), store) := by
  obtain ⟨related, -, hrelated⟩ := Schema.exists_relatedModel hmodel hfield
  have hend : joinEnd store model field record =
      .error (.unnamedRelation model.name field.name) := by
    unfold joinEnd
    rw [hrelated, hname]
    rfl
  unfold writeRelated writeJoin
  rw [Write.outcome_bind_get, hlinkage, Write.outcome_bind_get, Write.outcome_bind,
    Write.outcome_require, hend]

end NestedWrites

namespace Store

variable {store : Store} {model : Model}

/-- Whatever the state of a store, and whatever the arguments: a write blames the schema only for a
    nested write through a relation without key columns and without a name, which always fails so;
    it finds a collision only if unique groups are enforced, and never misses what only reads look
    for.  A read fails for its arguments, or because it insists on a record and there is none. -/
theorem failures_left (hmodel : model ∈ store.schema.models) :
    (∀ (operation : WriteOperation) args e next,
      (operation.write model args).outcome store = (.error e, next) →
        (e.kind = .schema → ∃ other ∈ store.schema.models, ∃ field ∈ other.relationFields,
          field.relationName = none ∧ store.schema.linkage? other field = none ∧
            e = .unnamedRelation other.name field.name) ∧
        (e.kind = .uniqueConstraint → store.schema.options.enforceUnique = true) ∧
        ∀ name, e ≠ .notFound name .toFind) ∧
      (∀ field ∈ model.relationFields, field.relationName = none →
        store.schema.linkage? model field = none → ∀ (nested : NestedWrites) operations record,
          (nested.writeRelated model field operations record).outcome store =
            (.error (.unnamedRelation model.name field.name), store)) ∧
      ∀ (operation : ReadOperation) args e, operation.read store model args = .error e →
        e.kind = .malformed ∨ e.kind = .validation ∨
          operation.insists = true ∧ e = .notFound model.name .toFind := by
  refine ⟨fun operation args e next hrun => ?_, fun field hfield hname hlinkage =>
    writeRelated_unnamed hmodel hfield hname hlinkage, fun operation args e hread => ?_⟩
  · rcases Write.fault_of_write hmodel hrun with hfault | rfl
    · exact ⟨hfault.unnamed_of_schema, hfault.enforced_of_collision, hfault.ne_toFind⟩
    · exact ⟨nofun, nofun, nofun⟩
  · rcases failsOnly_read hmodel operation args e hread with (h | h) | h
    · exact Or.inl h
    · exact Or.inr (Or.inl h)
    · exact Or.inr (Or.inr h)

end Store

namespace Desk

/-- Notes with tags, which nothing links to them. -/
def note : Model where
  name := "Note"
  fields := [{ name := "id", kind := .scalar, typeName := "Int", isId := true },
    { name := "tags", kind := .relation, typeName := "Tag", isList := true }]

def tag : Model where
  name := "Tag"
  fields := [{ name := "id", kind := .scalar, typeName := "Int", isId := true }]

def schema : Schema where
  options := { enforceUnique := false }
  models := [note, tag]
  nodup_names := by decide
  targets_known := by decide

def store : Store := ofSchema schema 0 ⟨0⟩

/-- A note that is to be tagged at once. -/
def tagged : Value :=
  .object [("data", .object [("id", .integer 1),
    ("tags", .object [("create", .object [("id", .integer 7)])])])]

/-- A tag cannot be created with its note, no note collides with another one, and a note that is
    not there is missed by a read that insists on it only. -/
theorem failures_on_desk :
    note ∈ store.schema.models ∧
      (∃ next, (WriteOperation.create.write note tagged).outcome store =
        (.error (.unnamedRelation "Note" "tags"), next)) ∧
      (Error.unnamedRelation "Note" "tags").message =
        "Schema error: Note.tags has no relation name" ∧
      (∀ (operation : WriteOperation) args e next,
        (operation.write note args).outcome store = (.error e, next) → e.kind ≠ .uniqueConstraint) ∧
      ReadOperation.findFirstOrThrow.read store note .null = .error (.notFound "Note" .toFind) ∧
      ∀ args e, ReadOperation.findFirst.read store note args = .error e →
        e.kind = .malformed ∨ e.kind = .validation := by
  have hmodel : note ∈ store.schema.models := List.mem_cons_self
  obtain ⟨hwrites, -, hreads⟩ := failures_left hmodel
  refine ⟨hmodel, ⟨_, rfl⟩, by decide, fun operation args e next hrun hkind => ?_, rfl,
    fun args e hread => ?_⟩
  · cases (hwrites operation args e next hrun).2.1 hkind
  · rcases hreads .findFirst args e hread with h | h | ⟨hinsists, -⟩
    · exact Or.inl h
    · exact Or.inr h
    · cases hinsists

end Desk

end RecordStore
