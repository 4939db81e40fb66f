import RecordStore.Join
import RecordStore.Identifier
import RecordStore.Json.Reader
import RecordStore.Schema.Decode

/-!
# The store

The state of a store: a collection of records for every model, in insertion order, the counters
that fill counted fields, and the joins.  All changes of a collection go through four functions,
and each of them leaves a notice with the collection as it then stands.  The clock and the source
of random digits belong to the state, so that every operation is a function.
-/

namespace RecordStore

/-- What a listener is told: a collection has been written, and now holds these records. -/
structure Notice where
  model : String
  records : List Record

/-- The state of a store.  Notices are listed newest first; the clock shows milliseconds since
    1970-01-01T00:00:00Z.  A counter stands at the integer that it has counted to; what it shows is
    the signed word of 64 bits that this integer wraps around to. -/
structure Store where
  schema : Schema
  collections : Entries (List Record)
  counters : Entries (Entries Int)
  joins : Joins
  notices : List Notice := []
  clock : Int := 0
  entropy : Entropy := ⟨0⟩

/-- The counters of a model as they start: every counted field is next filled with 1. -/
def Model.freshCounters (model : Model) : Entries Int :=
  (model.scalarFields.filter (·.isCounted)).foldl
    (fun acc field => Entries.insert field.name 1 acc) []

namespace Store

/-- The empty store of a schema. -/
def ofSchema (schema : Schema) (clock : Int) (entropy : Entropy) : Store where
  schema
  collections := schema.models.map fun model => (model.name, [])
  counters := schema.models.map fun model => (model.name, model.freshCounters)
  joins := Joins.ofModels schema.models
  clock
  entropy

/-- The empty store of a definition. -/
def create (definition : Definition) (clock : Int) (entropy : Entropy) : Except Error Store := do
  return ofSchema (← Schema.load definition) clock entropy

/-- What is found at the path of a schema file. -/
inductive SchemaFile where
  | missing
  | unreadable
  | text (content : String)

/-- The definition in the schema file at a path. -/
def SchemaFile.definition (path : String) : SchemaFile → Except Error Definition
  | .missing => .error (.missingFile path)
  | .unreadable => .error .unreadableFile
  | .text content => Definition.ofText content

/-! ## Collections -/

/-- The records of a model, in insertion order. -/
def items (store : Store) (model : String) : List Record :=
  (Entries.get? model store.collections).getD []

/-- The number of records in all collections. -/
def recordCount (store : Store) : Nat :=
  (store.collections.flatMap (·.2)).length

/-- Writes a collection and leaves a notice of it. -/
def replaceCollection (store : Store) (model : String) (records : List Record) : Store :=
  { store with
    collections := Entries.insert model records store.collections
    notices := ⟨model, records⟩ :: store.notices }

/-- Adds a record at the end of a collection. -/
def append (store : Store) (model : String) (record : Record) : Store :=
  store.replaceCollection model (store.items model ++ [record])

/-- A list with its first record equal to `current` replaced; none when there is no such
    record. -/
def replaceFirst (current next : Record) : List Record → Option (List Record)
  | [] => none
  | record :: rest =>
      if Record.same record current then some (next :: rest)
      else (replaceFirst current next rest).map (record :: ·)

/-- A list without its first record equal to `target`; none when there is no such record. -/
def removeFirst (target : Record) : List Record → Option (List Record)
  | [] => none
  | record :: rest =>
      if Record.same record target then some rest
      else (removeFirst target rest).map (record :: ·)

/-- Swaps the first record equal to `current` for another one; none when there is none. -/
def swap (store : Store) (model : String) (current next : Record) : Option Store :=
  (replaceFirst current next (store.items model)).map (store.replaceCollection model ·)

/-- The collections by model. -/
def snapshot (store : Store) : Entries (List Record) := store.collections

/-! ## Counters -/

/-- The counters of a model. -/
def countersOf (store : Store) (model : String) : Entries Int :=
  (Entries.get? model store.counters).getD []

/-- The word that a counter shows, and the store after it was taken. -/
def takeCounter (store : Store) (model field : String) : Int × Store :=
  let counters := store.countersOf model
  let next := (Entries.get? field counters).getD 1
  (wrap 64 next, { store with
    counters := Entries.insert model (Entries.insert field (next + 1) counters) store.counters })

/-- The greatest 64-bit integer that some records hold in a field. -/
def greatest? (field : String) (records : List Record) : Option Int :=
  (records.filterMap fun record => (Record.valueAt field record).int64?).max?

/-- Moves a counter past a value: on to the word that comes after the value, if the word that it
    shows is less. -/
def advancePast (most counter : Int) : Int :=
  counter + max 0 (wrap 64 (most + 1) - wrap 64 counter)

/-- Moves the counters of a model past the greatest values in its collection. -/
def advanceCounters (store : Store) (model : String) : Store :=
  match Entries.get? model store.counters with
  | none => store
  | some counters =>
      let records := store.items model
      let advanced := counters.map fun (field, next) =>
        match greatest? field records with
        | some most => (field, advancePast most next)
        | none => (field, next)
      { store with counters := Entries.insert model advanced store.counters }

/-! ## Whole-store operations -/

/-- Replaces a collection from outside, and moves the counters of its model past the values that
    it brings. -/
def setItems (store : Store) (model : String) (records : List Record) : Store :=
  (store.replaceCollection model records).advanceCounters model

/-- Empties every collection and every join.  The counters start again only if the schema asks
    for it. -/
def reset (store : Store) : Store :=
  let emptied := store.collections.keys.foldl
    (fun acc model => acc.replaceCollection model []) store
  { emptied with
    joins := emptied.joins.reset
    counters :=
      if store.schema.options.resetCounters then
        store.schema.models.foldl
          (fun acc model => Entries.insert model.name model.freshCounters acc) emptied.counters
      else emptied.counters }

/-! ## Clock and identifiers -/

/-- The present as the text of a date field. -/
def now (store : Store) : Value :=
  .string (Calendar.Instant.ofMilliseconds store.clock).toText

/-- Draws an identifier from the source of the store. -/
def generate (store : Store) (draw : Entropy → String × Entropy) : Value × Store :=
  let (text, entropy) := draw store.entropy
  (.string text, { store with entropy })

/-- What a default fills into a field, and the store after a counter or the source has moved on;
    none when the default is not known. -/
def fill (store : Store) (model : Model) (field : Field) : Default → Option Value × Store
  | .autoincrement =>
      let (next, store) := store.takeCounter model.name field.name
      (some (.integer next), store)
  | .now => (some store.now, store)
  | .uuid => some? (store.generate Identifier.uuid)
  | .cuid => some? (store.generate Identifier.cuid)
  | .ulid => some? (store.generate (Identifier.ulid store.clock))
  | .nanoid size => some? (store.generate (Identifier.nanoid size))
  | .objectId => some? (store.generate (Identifier.objectId store.clock))
  | .literal (.string text) =>
      if field.isJson then (some ((Json.parse text).getD (.string text)), store)
      else (some (.string text), store)
  | .literal value => (some value, store)
  | .unknown _ => (none, store)
where
  /-- A value that is there. -/
  some? (drawn : Value × Store) : Option Value × Store := (some drawn.1, drawn.2)

/-- What fills an open field of a model: its default, or the present for a field that keeps the
    time of the last update; none when it has neither. -/
def defaultValue (store : Store) (model : Model) (field : Field) : Option Value × Store :=
  match field.default with
  | some default => store.fill model field default
  | none => (if field.isUpdatedAt then some store.now else none, store)

end Store

end RecordStore
