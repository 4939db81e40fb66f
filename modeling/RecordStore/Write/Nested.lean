import RecordStore.Write.Delete

/-!
# Nested writes

Writes through the relation fields of a payload.  Three cases differ in where the link is kept:
in key columns of the record that is written, in key columns of the records that depend on it, or
in a join.  All three create and update other records; how that is done is given to them, so that
each level of nesting is one step away from the next.
-/

namespace RecordStore

/-- The operations of a nested write. -/
inductive NestedOperation where
  | connect
  | connectOrCreate
  | create
  | createMany
  | set
  | disconnect
  | update
  | updateMany
  | upsert
  | delete
  | deleteMany
  deriving DecidableEq, Repr

namespace NestedOperation

/-- The operation of a name. -/
def ofName? : String → Option NestedOperation
  | "connect" => some .connect
  | "connectOrCreate" => some .connectOrCreate
  | "create" => some .create
  | "createMany" => some .createMany
  | "set" => some .set
  | "disconnect" => some .disconnect
  | "update" => some .update
  | "updateMany" => some .updateMany
  | "upsert" => some .upsert
  | "delete" => some .delete
  | "deleteMany" => some .deleteMany
  | _ => none

end NestedOperation

/-- How other records are created and updated by a nested write. -/
structure NestedWrites where
  /-- Creates a record of a model from a payload. -/
  create : Model → Record → Write Record
  /-- Updates a stored record of a model by a payload. -/
  update : Model → Record → Record → Write Record

/-- What a write through an owned relation does to the key columns of the record. -/
inductive OwnedChange where
  | keep
  | bind (target : Record)
  | unbind
  | unbindAndDelete (target : Record)

namespace Store

/-- The stored record that a record stands for now: the one with its id, or, without an id, the
    one equal to it. -/
def reload? (store : Store) (model : Model) (record : Record) : Option Record :=
  let id := model.recordId record
  (store.items model.name).find? fun item =>
    if id.isNull then Record.same item record else Value.same (model.recordId item) id

end Store

namespace Write

/-- The first record that satisfies a filter, to be connected. -/
def connectTarget (related : Model) (filter : Record) : Write Record := do
  match (← get).first? related (some filter) with
  | some target => pure target
  | none => throw (.notFound related.name .toConnect)

/-- Updates the records of a model in turn.  Earlier updates may have changed or removed a later
    record: it is updated as it then stands, or left out. -/
def updateEach (update : Model → Record → Record → Write Record) (model : Model) (data : Record) :
    List Record → Write (List Record)
  | [] => pure []
  | target :: rest => do
      match (← get).reload? model target with
      | none => updateEach update model data rest
      | some current =>
          let updated ← update model current data
          let others ← updateEach update model data rest
          pure (updated :: others)

/-- Updates every record of a model that satisfies a filter. -/
def updateMatchingWith (update : Model → Record → Record → Write Record) (model : Model)
    (filter : Option Record) (data : Record) : Write (List Record) := do
  let store ← get
  updateEach update model data (store.select model filter (store.items model.name))

/-- Creates a record for every payload; with `skip`, those that collide are left out. -/
def createEach (create : Record → Write Record) (skip : Bool) :
    List Record → Write (List Record)
  | [] => pure []
  | data :: rest => do
      match ← orSkip skip (create data) with
      | none => createEach create skip rest
      | some created =>
          let others ← createEach create skip rest
          pure (created :: others)

end Write

namespace NestedWrites

open Write

/-- Updates every record of a model that satisfies a filter. -/
def updateMatching (nested : NestedWrites) (model : Model) (filter data : Record) :
    Write (List Record) :=
  updateMatchingWith nested.update model (some filter) data

/-- Creates the records under `data` of a payload, each with the columns of a scope.  Collisions
    are skipped if the payload asks for it. -/
def createMany (nested : NestedWrites) (related : Model) (arg : Value) (scope : Record) :
    Write (List Record) :=
  let skip := ((arg.get? "skipDuplicates").bind Value.bool?).getD false
  let payloads := ((arg.get? "data").getD .null).objects
  createEach (fun data => nested.create related (Entries.insertAll data scope)) skip payloads

/-- The filters of an operation that takes `true` for all linked records. -/
def filtersOf (narrow : Option Record → Record) : Value → List Record
  | .bool true => [narrow none]
  | arg => arg.objects.map fun filter => narrow (some filter)

/-- Fails if an operation that has to hit a record has hit none. -/
def mustHit (related : Model) (cause : MissingRecord) (strict : Bool) (hits : List Record) :
    Write Unit :=
  if strict && hits.isEmpty then throw (.notFound related.name cause) else pure ()

/-! ## Key columns of the record itself -/

/-- One operation through an owned relation, given the record linked so far and what the
    operations before it do to the key columns. -/
def ownedStep (nested : NestedWrites) (related : Model) (current : Option Record)
    (change : OwnedChange) (operation : String) (arg : Value) : Write OwnedChange :=
  match NestedOperation.ofName? operation with
  | some .connect => do
      let filter ← require (Payload.object arg operation)
      return .bind (← connectTarget related filter)
  | some .connectOrCreate => do
      let filter ← require (Payload.member arg "where" operation)
      match (← get).first? related (some filter) with
      | some found => return .bind found
      | none =>
          let data ← require (Payload.member arg "create" operation)
          return .bind (← nested.create related data)
  | some .create => do
      let data ← require (Payload.object arg operation)
      return .bind (← nested.create related data)
  | some .disconnect => pure (if arg.isEnabled then .unbind else change)
  | some .update => do
      let (_, data) ← require (Payload.update arg)
      match current with
      | none => throw (.notFound related.name .toUpdate)
      | some target =>
          let _ ← nested.update related target data
          return change
  | some .upsert =>
      match current with
      | some target => do
          let data ← require (Payload.member arg "update" operation)
          let _ ← nested.update related target data
          return change
      | none => do
          let data ← require (Payload.member arg "create" operation)
          return .bind (← nested.create related data)
  | some .delete =>
      if arg.isEnabled then
        match current with
        | some target => pure (.unbindAndDelete target)
        | none => throw (.notFound related.name .toDelete)
      else pure change
  | _ => pure change

/-- Runs the operations through a relation whose key columns belong to the record, and tells what
    becomes of the columns. -/
def writeOwned (nested : NestedWrites) (field : Field) (linkage : Linkage) (operations : Record)
    (record : Record) : Write OwnedChange := do
  let store ← get
  let related ← require (store.schema.relatedModel field)
  let current := (linkage.scope record).bind fun scope => store.first? related (some scope)
  operations.foldlM
    (fun change (operation, arg) => nested.ownedStep related current change operation arg) .keep

/-! ## Key columns of the dependents -/

/-- Connects the records that some filters pick, one each, by writing the scope into them. -/
def connectDependents (nested : NestedWrites) (related : Model) (scope : Record)
    (filters : List Record) : Write Unit :=
  filters.forM fun filter => do
    let target ← connectTarget related filter
    discard (nested.update related target scope)

/-- One operation through a relation whose key columns belong to the dependents. -/
def dependentStep (nested : NestedWrites) (related : Model) (scope detached : Record)
    (operation : String) (arg : Value) : Write Unit :=
  let narrow := Filter.narrow scope
  match NestedOperation.ofName? operation with
  | some .connect => nested.connectDependents related scope arg.objects
  | some .connectOrCreate =>
      arg.objects.forM fun entry => do
        let filter ← require (Payload.member (.object entry) "where" operation)
        match (← get).first? related (some filter) with
        | some target => discard (nested.update related target scope)
        | none =>
            let data ← require (Payload.member (.object entry) "create" operation)
            discard (nested.create related (Entries.insertAll data scope))
  | some .create =>
      arg.objects.forM fun data =>
        discard (nested.create related (Entries.insertAll data scope))
  | some .createMany => discard (nested.createMany related arg scope)
  | some .set => do
      discard (nested.updateMatching related scope detached)
      nested.connectDependents related scope arg.objects
  | some .disconnect =>
      (filtersOf narrow arg).forM fun filter =>
        discard (nested.updateMatching related filter detached)
  | some .update => updateEntries true arg
  | some .updateMany => updateEntries false arg
  | some .upsert =>
      arg.objects.forM fun entry => do
        let filter := narrow ((Entries.get? "where" entry).bind Value.object?)
        match (← get).first? related (some filter) with
        | some target =>
            let data ← require (Payload.member (.object entry) "update" operation)
            discard (nested.update related target data)
        | none =>
            let data ← require (Payload.member (.object entry) "create" operation)
            discard (nested.create related (Entries.insertAll data scope))
  | some .delete =>
      (filtersOf narrow arg).forM fun filter => do
        mustHit related .toDelete true (← deleteMatching related (some filter))
  | some .deleteMany =>
      (filtersOf narrow arg).forM fun filter => discard (deleteMatching related (some filter))
  | none => pure ()
where
  /-- Updates the dependents that each entry picks; a strict entry has to pick one. -/
  updateEntries (strict : Bool) (arg : Value) : Write Unit :=
    (Payload.entries arg).forM fun entry => do
      let (filter, data) ← require (Payload.update entry)
      mustHit related .toUpdate strict
        (← nested.updateMatching related (Filter.narrow scope filter) data)

/-- Runs the operations through a relation whose key columns belong to the dependents of a stored
    record.  Without a value to refer to there is nothing to do. -/
def writeDependents (nested : NestedWrites) (field : Field) (linkage : Linkage)
    (operations : Record) (record : Record) : Write Unit := do
  let related ← require ((← get).schema.relatedModel field)
  match linkage.scope record with
  | none => pure ()
  | some scope =>
      operations.forM fun (operation, arg) =>
        nested.dependentStep related scope linkage.detached operation arg

/-! ## Joins -/

/-- A stored record as one end of a join: the join and the side, the model and the id field of
    the other end, and the id of the record. -/
structure JoinEnd where
  name : String
  side : Side
  related : Model
  idField : String
  id : Value
  symmetric : Bool

namespace JoinEnd

/-- The ids of the linked records. -/
def linkedIds (joinEnd : JoinEnd) (store : Store) : List Value :=
  store.joins.counterparts joinEnd.name joinEnd.side.model joinEnd.id

/-- A filter narrowed to the linked records. -/
def narrow (joinEnd : JoinEnd) (store : Store) (filter : Option Record) : Record :=
  Filter.narrow [(joinEnd.idField, .object [("in", .array (joinEnd.linkedIds store))])] filter

/-- Links a record of the other end. -/
def link (joinEnd : JoinEnd) (target : Record) : Write Unit :=
  modify fun store =>
    { store with
      joins := store.joins.connect joinEnd.name joinEnd.side joinEnd.id
        (joinEnd.related.recordId target) }

/-- Removes the links to an id of the other end, in both directions if the join is symmetric. -/
def unlink (joinEnd : JoinEnd) (targetId : Value) : Write Unit :=
  modify fun store =>
    let joins := store.joins.disconnect joinEnd.name joinEnd.side joinEnd.id targetId
    { store with
      joins :=
        if joinEnd.symmetric then
          joins.disconnect joinEnd.name joinEnd.side targetId joinEnd.id
        else joins }

/-- Links the records that some filters pick, one each. -/
def connect (joinEnd : JoinEnd) (filters : List Record) : Write Unit :=
  filters.forM fun filter => do
    joinEnd.link (← connectTarget joinEnd.related filter)

end JoinEnd

/-- One operation through a join. -/
def joinStep (nested : NestedWrites) (joinEnd : JoinEnd) (operation : String) (arg : Value) :
    Write Unit :=
  let related := joinEnd.related
  match NestedOperation.ofName? operation with
  | some .connect => joinEnd.connect arg.objects
  | some .connectOrCreate =>
      arg.objects.forM fun entry => do
        let filter ← require (Payload.member (.object entry) "where" operation)
        match (← get).first? related (some filter) with
        | some target => joinEnd.link target
        | none =>
            let data ← require (Payload.member (.object entry) "create" operation)
            joinEnd.link (← nested.create related data)
  | some .create =>
      arg.objects.forM fun data => do joinEnd.link (← nested.create related data)
  | some .createMany => do
      (← nested.createMany related arg []).forM joinEnd.link
  | some .set => do
      (joinEnd.linkedIds (← get)).forM joinEnd.unlink
      joinEnd.connect arg.objects
  | some .disconnect => do
      (filtersOf (joinEnd.narrow (← get)) arg).forM fun filter => do
        let store ← get
        (store.select related (some filter) (store.items related.name)).forM fun target =>
          joinEnd.unlink (related.recordId target)
  | some .update => updateEntries true arg
  | some .updateMany => updateEntries false arg
  | some .upsert =>
      arg.objects.forM fun entry => do
        let store ← get
        let filter := joinEnd.narrow store ((Entries.get? "where" entry).bind Value.object?)
        match store.first? related (some filter) with
        | some target =>
            let data ← require (Payload.member (.object entry) "update" operation)
            discard (nested.update related target data)
        | none =>
            let data ← require (Payload.member (.object entry) "create" operation)
            joinEnd.link (← nested.create related data)
  | some .delete => deleteEntries true arg
  | some .deleteMany => deleteEntries false arg
  | none => pure ()
where
  /-- Updates the linked records that each entry picks; a strict entry has to pick one. -/
  updateEntries (strict : Bool) (arg : Value) : Write Unit :=
    (Payload.entries arg).forM fun entry => do
      let (filter, data) ← require (Payload.update entry)
      let filter := joinEnd.narrow (← get) filter
      mustHit joinEnd.related .toUpdate strict
        (← nested.updateMatching joinEnd.related filter data)
  /-- Deletes the linked records that each filter picks; a strict one has to pick one. -/
  deleteEntries (strict : Bool) (arg : Value) : Write Unit := do
    (filtersOf (joinEnd.narrow (← get)) arg).forM fun filter => do
      mustHit joinEnd.related .toDelete strict
        (← deleteMatching joinEnd.related (some filter))

/-- A stored record as an end of the join of a relation field. -/
def joinEnd (store : Store) (model : Model) (field : Field) (record : Record) :
    Except Error JoinEnd := do
  let related ← store.schema.relatedModel field
  match field.relationName with
  | none => throw (.unnamedRelation model.name field.name)
  | some name =>
      match related.idFields with
      | [idField] =>
          return { name, side := ⟨field.name, model.name⟩, related, idField,
                   id := model.recordId record,
                   symmetric := (store.joins.get? name).any (·.isSymmetric) }
      | _ => throw (.compositeJoin related.name name)

/-- Runs the operations through a joined relation of a stored record. -/
def writeJoin (nested : NestedWrites) (model : Model) (field : Field) (operations : Record)
    (record : Record) : Write Unit := do
  let joinEnd ← require (joinEnd (← get) model field record)
  operations.forM fun (operation, arg) => nested.joinStep joinEnd operation arg

/-- Runs the operations through a relation of a stored record whose link is kept elsewhere: in
    its dependents or in a join. -/
def writeRelated (nested : NestedWrites) (model : Model) (field : Field) (operations : Record)
    (record : Record) : Write Unit := do
  match (← get).schema.linkage? model field with
  | some linkage => nested.writeDependents field linkage operations record
  | none => nested.writeJoin model field operations record

end NestedWrites

end RecordStore
