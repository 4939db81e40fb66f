import RecordStore.Write.Basic

/-!
# Deleting records

Deleting a record removes the links of its joins and then applies the policy of every relation
whose dependents refer to it: cascading deletes them in the same way, and detaching nulls their
key columns.  A cascade always runs on a store with fewer records than the one before it, so it is
never nested deeper than the number of records; that number bounds the recursion.
-/

namespace RecordStore

namespace Store

/-- The records of a model with null in the key columns of those that a scope holds of. -/
def detachedItems (store : Store) (model : Model) (scope detached : Record) : List Record :=
  (store.items model.name).map fun item =>
    if Record.holdsAll item scope then Entries.insertAll item detached else item

/-- Detaches the records that a scope holds of, if there are any. -/
def detach (store : Store) (model : Model) (scope detached : Record) : Store :=
  if (store.items model.name).any fun item => Record.holdsAll item scope then
    store.replaceCollection model.name (store.detachedItems model scope detached)
  else store

/-- Removes the links of a deleted record from all joins; a record without an id has none. -/
def unlinkAll (store : Store) (model : Model) (record : Record) : Store :=
  let id := model.recordId record
  if id.isNull then store else { store with joins := store.joins.cleanup model.name id }

end Store

namespace Write

/-- Applies the policy of the other end of a relation field to the dependents of a deleted
    record. -/
def applyPolicy (cascade : Model → Record → Write Unit) (model : Model) (record : Record)
    (field : Field) : Write Unit := do
  let schema := (← get).schema
  match schema.linkage? model field with
  | none => pure ()
  | some linkage =>
      if linkage.owned then pure ()
      else
        match (schema.reciprocal? model field).bind (·.onDelete), linkage.scope record with
        | some policy, some scope =>
            let dependents ← require (schema.relatedModel field)
            match policy with
            | .cascade => cascade dependents scope
            | .setNull => modify fun store => store.detach dependents scope linkage.detached
            | _ => pure ()
        | _, _ => pure ()

/-- What follows the removal of a record. -/
def afterDelete (cascade : Model → Record → Write Unit) (model : Model) (record : Record) :
    Write Unit := do
  modify fun store => store.unlinkAll model record
  model.relationFields.forM (applyPolicy cascade model record)

/-- Removes the records of a model that satisfy a filter, and what depends on them; cascades are
    nested at most `depth` times. -/
def deleteWithin : Nat → Model → Option Record → Write (List Record)
  | 0, _, _ => throw .nestingExceeded
  | depth + 1, model, filter => do
      let store ← get
      let (gone, kept) := (store.items model.name).partition fun record =>
        filter.all fun filter => store.satisfies model record filter
      if gone.isEmpty then pure []
      else
        set (store.replaceCollection model.name kept)
        gone.forM <| afterDelete
          (fun dependents scope => discard (deleteWithin depth dependents (some scope))) model
        pure gone

/-- Removes the records of a model that satisfy a filter, and what depends on them. -/
def deleteMatching (model : Model) (filter : Option Record) : Write (List Record) := do
  deleteWithin ((← get).recordCount + 1) model filter

/-- Removes the first stored record equal to a target, and what depends on it; nothing happens
    when there is none. -/
def deleteRecord (model : Model) (target : Record) : Write Unit := do
  let store ← get
  match Store.removeFirst target (store.items model.name) with
  | none => pure ()
  | some kept =>
      set (store.replaceCollection model.name kept)
      afterDelete
        (fun dependents scope =>
          discard (deleteWithin (store.recordCount + 1) dependents (some scope)))
        model target

end Write

end RecordStore
