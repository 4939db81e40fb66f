import RecordStore.Write.Nested
import RecordStore.Write.Scalar

/-!
# Creating and updating records

A create or update goes through its payload key by key.  Plain fields are set at once; relations
whose key columns belong to the record are written first, so that the columns can be bound; then
the record is completed, checked and stored; and last come the relations whose links are kept
elsewhere.  Nested writes are creates and updates again, with a smaller payload each time, so the
depth of the payload bounds them as long as key columns hold no payloads of their own.
-/

namespace RecordStore

/-- The nested writes through a relation field that wait until the record is stored. -/
abbrev Deferred := List (Field × Record)

/-- What a create has gathered from its payload: given values, and writes that wait. -/
structure Draft where
  given : Record := []
  deferred : Deferred := []

/-- What an update has gathered from its payload: the record as it will be, writes that wait, and
    records to delete once the record no longer refers to them. -/
structure Revision where
  next : Record
  deferred : Deferred := []
  orphans : List (Field × Record) := []

namespace NestedWrites

open Write

/-- Gathers one key of the payload of a create. -/
def draftStep (nested : NestedWrites) (model : Model) (draft : Draft) (key : String)
    (value : Value) : Write Draft := do
  match model.field? key with
  | none => pure draft
  | some field =>
      if field.isRelation then
        match value with
        | .object operations =>
            match (← get).schema.linkage? model field with
            | some linkage =>
                if linkage.owned then
                  match ← nested.writeOwned field linkage operations draft.given with
                  | .keep => pure draft
                  | .bind target =>
                      pure { draft with given := linkage.bind draft.given target }
                  | _ =>
                      pure { draft with given := draft.given.unbind linkage.localColumns }
                else pure { draft with deferred := draft.deferred ++ [(field, operations)] }
            | none => pure { draft with deferred := draft.deferred ++ [(field, operations)] }
        | _ => pure draft
      else pure { draft with given := Entries.insert key (field.created value) draft.given }

/-- Creates a record of a model from a payload, and answers it as it is stored. -/
def createStep (nested : NestedWrites) (model : Model) (data : Record) : Write Record := do
  let draft ← data.foldlM (fun draft (key, value) => nested.draftStep model draft key value) {}
  let record ← step (Store.materialize model draft.given)
  require ((← get).checkUnique model record none)
  modify fun store => store.append model.name record
  draft.deferred.forM fun (field, operations) =>
    nested.writeRelated model field operations record
  return record

/-- Gathers one key of the payload of an update. -/
def revisionStep (nested : NestedWrites) (model : Model) (revision : Revision) (key : String)
    (value : Value) : Write Revision := do
  match model.field? key with
  | none => pure revision
  | some field =>
      if field.isRelation then
        match value with
        | .object operations =>
            let wait := { revision with deferred := revision.deferred ++ [(field, operations)] }
            match (← get).schema.linkage? model field with
            | some linkage =>
                if linkage.owned then
                  match ← nested.writeOwned field linkage operations revision.next with
                  | .keep => pure revision
                  | .bind target =>
                      pure { revision with next := linkage.bind revision.next target }
                  | .unbind =>
                      pure { revision with next := revision.next.unbind linkage.localColumns }
                  | .unbindAndDelete target =>
                      pure { revision with
                        next := revision.next.unbind linkage.localColumns
                        orphans := revision.orphans ++ [(field, target)] }
                else pure wait
            | none => pure wait
        | _ => pure revision
      else do
        let updated ← require (field.updated (Record.valueAt key revision.next) value)
        pure { revision with next := Entries.insert key updated revision.next }

/-- Updates a stored record of a model by a payload, and answers it as it is stored. -/
def updateStep (nested : NestedWrites) (model : Model) (current data : Record) :
    Write Record := do
  let revision ← data.foldlM
    (fun revision (key, value) => nested.revisionStep model revision key value)
    { next := current }
  let next ← step (Store.refreshFields model data model.scalarFields revision.next)
  replaceStored model current next
  revision.orphans.forM fun (field, target) => do
    deleteRecord (← require ((← get).schema.relatedModel field)) target
  revision.deferred.forM fun (field, operations) =>
    nested.writeRelated model field operations next
  return next

/-- Creates and updates whose nested writes are nested at most `depth` times. -/
def within : Nat → NestedWrites
  | 0 => ⟨fun _ _ => throw .nestingExceeded, fun _ _ _ => throw .nestingExceeded⟩
  | depth + 1 =>
      ⟨fun model data => (within depth).createStep model data,
        fun model current data => (within depth).updateStep model current data⟩

/-- How many levels of nesting are left to the values that records carry.  A relation field may
    also be a key column of another one, and then the value in the column, wherever it was
    stored, is itself a payload of nested writes. -/
def carriedDepth : Nat := 1024

/-- Creates and updates for a payload: each nested write goes at least one object deeper into the
    payload, or into a value that a record carries. -/
def ofPayload (data : Record) : NestedWrites :=
  within (Value.fieldsDepth data + 1 + carriedDepth)

end NestedWrites

namespace Write

/-- Creates a record of a model from a payload, and answers it as it is stored. -/
def createRecord (model : Model) (data : Record) : Write Record :=
  (NestedWrites.ofPayload data).create model data

/-- Updates a stored record of a model by a payload, and answers it as it is stored. -/
def updateRecord (model : Model) (current data : Record) : Write Record :=
  (NestedWrites.ofPayload data).update model current data

/-- Updates every record of a model that satisfies a filter. -/
def updateMatching (model : Model) (filter : Option Record) (data : Record) :
    Write (List Record) :=
  updateMatchingWith (NestedWrites.ofPayload data).update model filter data

end Write

end RecordStore
