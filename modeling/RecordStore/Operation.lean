import RecordStore.Query.GroupBy
import RecordStore.Write.Record

/-!
# Operations on a model

The operations that a client calls, each with the value of its arguments.  Reads take a store;
writes run on one.  Operations that answer records shape them by the projection in their
arguments; a conflict in it is found before anything is written.
-/

namespace RecordStore

namespace Store

/-! ## Reads -/

/-- All records that a query answers. -/
def findMany (store : Store) (model : Model) (args : Value) : Except Error (List Record) := do
  store.find model (← Arguments.find args)

/-- The first record that a query answers.  One record is taken unless the query says how many. -/
def findFirst (store : Store) (model : Model) (args : Value) : Except Error (Option Record) := do
  let args ← Arguments.find args
  let rows ← store.find model { args with take := some (args.take.getD 1) }
  return rows.head?

/-- The first record that a query answers, as there is at most one under a unique filter. -/
def findUnique (store : Store) (model : Model) (args : Value) : Except Error (Option Record) :=
  store.findFirst model args

/-- The first record that a query answers; that there is none is an error. -/
def findFirstOrThrow (store : Store) (model : Model) (args : Value) : Except Error Record := do
  match ← store.findFirst model args with
  | some record => return record
  | none => throw (.notFound model.name .toFind)

/-- The first record that a query answers; that there is none is an error. -/
def findUniqueOrThrow (store : Store) (model : Model) (args : Value) : Except Error Record :=
  store.findFirstOrThrow model args

/-- The number of records that a query selects, whatever its projection. -/
def count (store : Store) (model : Model) (args : Value) : Except Error Nat := do
  let args ← Arguments.find args
  let rows ← store.find model { args with projection := {} }
  return rows.length

/-- Statistics of the records that a query selects. -/
def aggregateRows (store : Store) (model : Model) (args : Value) : Except Error Record := do
  return store.aggregate model (← Arguments.aggregate args)

/-- Groups of records with their statistics. -/
def groupRows (store : Store) (model : Model) (args : Value) : Except Error (List Record) := do
  store.groupBy model (← Arguments.groupBy args)

end Store

namespace Write

/-! ## Writes -/

/-- Shapes a record on the store as it stands. -/
def shaped (projection : Projection) (model : Model) (record : Record) : Write Record := do
  require (projection.shape (← get) model record)

/-- Creates a record. -/
def create (model : Model) (args : Value) : Write Record := do
  let args ← require (Arguments.create args)
  require args.projection.check
  shaped args.projection model (← createRecord model args.data)

/-- Creates the records of a list of payloads. -/
def createAll (model : Model) (args : CreateManyArguments) : Write (List Record) :=
  createEach (createRecord model) args.skipDuplicates args.data.objects

/-- Creates records, and answers how many. -/
def createMany (model : Model) (args : Value) : Write Nat := do
  let args ← require (Arguments.createMany args)
  return (← createAll model args).length

/-- Creates records, and answers them. -/
def createManyAndReturn (model : Model) (args : Value) : Write (List Record) := do
  let args ← require (Arguments.createMany args)
  require args.projection.check
  (← createAll model args).mapM (shaped args.projection model)

/-- The first record that satisfies a filter, as the target of an operation on one record. -/
def target (model : Model) (filter : Option Record) (cause : MissingRecord) : Write Record := do
  match (← get).first? model filter with
  | some record => return record
  | none => throw (.notFound model.name cause)

/-- Updates the first record that satisfies a filter. -/
def update (model : Model) (args : Value) : Write Record := do
  let args ← require (Arguments.update args)
  require args.projection.check
  let current ← target model args.filter .toUpdate
  shaped args.projection model (← updateRecord model current args.data)

/-- Updates every record that satisfies a filter, and answers how many. -/
def updateMany (model : Model) (args : Value) : Write Nat := do
  let args ← require (Arguments.update args)
  return (← updateMatching model args.filter args.data).length

/-- Updates every record that satisfies a filter, and answers them. -/
def updateManyAndReturn (model : Model) (args : Value) : Write (List Record) := do
  let args ← require (Arguments.update args)
  require args.projection.check
  (← updateMatching model args.filter args.data).mapM (shaped args.projection model)

/-- Updates the first record that satisfies a filter, or creates one. -/
def upsert (model : Model) (args : Value) : Write Record := do
  let args ← require (Arguments.upsert args)
  require args.projection.check
  let record ← match (← get).first? model args.filter with
    | some current => updateRecord model current args.update
    | none => createRecord model args.create
  shaped args.projection model record

/-- Deletes the first record that satisfies a filter, and answers it as it was. -/
def delete (model : Model) (args : Value) : Write Record := do
  let args ← require (Arguments.delete args)
  require args.projection.check
  let record ← target model args.filter .toDelete
  let answer ← shaped args.projection model record
  deleteRecord model record
  return answer

/-- Deletes every record that satisfies a filter, and answers how many. -/
def deleteMany (model : Model) (args : Value) : Write Nat := do
  let args ← require (Arguments.delete args)
  return (← deleteMatching model args.filter).length

/-- Runs writes one after the other up to the first that fails.  What was written before stays
    written. -/
def transaction {α : Type} (writes : List (Write α)) : Write (List α) := writes.mapM id

end Write

end RecordStore
