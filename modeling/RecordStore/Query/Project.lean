import RecordStore.Query.Window

/-!
# Shaping records

A projection shapes a record for an answer.  A selection keeps only what it names, inclusions are
added to the record; both may name relations, whose records are found by a nested query and
shaped by the projection in its arguments, and `_count`, which counts linked records.
-/

namespace RecordStore

namespace Projection

/-- A selection and inclusions exclude each other. -/
def check (projection : Projection) : Except Error Unit :=
  if projection.select.isSome && projection.inclusion.isSome then .error .selectWithInclude
  else .ok ()

/-! ## Counting linked records -/

/-- The number of records linked through a relation, of those that satisfy a filter if there is
    one. -/
def relationCount (store : Store) (model : Model) (record : Record) (field : Field)
    (filter : Option Record) : Nat :=
  let linked := store.related model field record
  match filter, store.schema.model? field.typeName with
  | some filter, some related => (store.select related (some filter) linked).length
  | _, _ => linked.length

/-- The counts that a selection of relations asks for. -/
def selectedCounts (store : Store) (model : Model) (record : Record) (wanted : Record) :
    Except Error Record :=
  wanted.foldlM (fun counts (name, spec) =>
    if !spec.isEnabled then .ok counts
    else
      match model.relation? name with
      | none => .error (.unknownCount name model.name)
      | some field =>
          let filter := (spec.get? "where").bind Value.object?
          let count := relationCount store model record field filter
          .ok (Entries.insert name (.integer count) counts)) []

/-- The counts of every relation to a list of records. -/
def allCounts (store : Store) (model : Model) (record : Record) : Record :=
  (model.relationFields.filter (·.isList)).foldl (fun counts field =>
    Entries.insert field.name (.integer (relationCount store model record field none)) counts) []

/-- The counts that `_count` asks for: those under `select`, or all. -/
def counts (store : Store) (model : Model) (record : Record) (arg : Value) :
    Except Error Record :=
  match (arg.get? "select").bind Value.object? with
  | some wanted => selectedCounts store model record wanted
  | none => .ok (allCounts store model record)

/-! ## Shaping -/

mutual

/-- Adds what the keys of a selection or of inclusions ask for to a record that is being shaped.
    Keys that are no fields are copied by a selection, and ignored by inclusions. -/
def extend (store : Store) (model : Model) (record : Record) (selecting : Bool)
    (shaped : Record) : List (String × Value) → Except Error Record
  | [] => .ok shaped
  | (key, arg) :: rest =>
      if !arg.isEnabled then extend store model record selecting shaped rest
      else if key = "_count" then
        match counts store model record arg with
        | .error e => .error e
        | .ok counts =>
            extend store model record selecting (Entries.insert key (.object counts) shaped) rest
      else
        match model.field? key with
        | some field =>
            if field.isRelation then
              match resolve store model record field arg with
              | .error e => .error e
              | .ok value =>
                  extend store model record selecting (Entries.insert key value shaped) rest
            else
              extend store model record selecting
                (Entries.insert key (Record.valueAt key record) shaped) rest
        | none =>
            match Entries.get? key record with
            | some value =>
                let shaped := if selecting then Entries.insert key value shaped else shaped
                extend store model record selecting shaped rest
            | none => extend store model record selecting shaped rest
termination_by structural keys => keys

/-- The records linked to a record through a relation, found and shaped by nested arguments: a
    list of records, or one record or null. -/
def resolve (store : Store) (model : Model) (record : Record) (field : Field) :
    Value → Except Error Value
  | .object fields =>
      match store.schema.relatedModel field with
      | .error e => .error e
      | .ok related =>
          match Arguments.find (.object fields) with
          | .error e => .error e
          | .ok args =>
              let linked := store.related model field record
              if field.isList then
                match args.projection.check with
                | .error e => .error e
                | .ok () =>
                    ((store.window related args linked).mapM fun other =>
                      (shapeUnder store related other fields).map .object).map .array
              else
                match linked.head? with
                | none => .ok .null
                | some other =>
                    match args.projection.check with
                    | .error e => .error e
                    | .ok () => (shapeUnder store related other fields).map .object
  | _ =>
      match store.schema.relatedModel field with
      | .error e => .error e
      | .ok _ =>
          let linked := store.related model field record
          if field.isList then .ok (.array (linked.map .object))
          else .ok ((linked.head?.map .object).getD .null)
termination_by structural arg => arg

/-- Shapes a record by the projection among the members of nested arguments. -/
def shapeUnder (store : Store) (model : Model) (record : Record) :
    List (String × Value) → Except Error Record
  | [] => .ok record
  | (name, .object keys) :: rest =>
      if name = "select" then extend store model record true [] keys
      else if name = "include" then extend store model record false record keys
      else shapeUnder store model record rest
  | (_, _) :: rest => shapeUnder store model record rest
termination_by structural members => members

end

/-- Shapes a record by a projection. -/
def shape (projection : Projection) (store : Store) (model : Model) (record : Record) :
    Except Error Record :=
  match projection.check with
  | .error e => .error e
  | .ok () =>
      match projection.select, projection.inclusion with
      | some keys, _ => extend store model record true [] keys
      | none, some keys => extend store model record false record keys
      | none, none => .ok record

end Projection

namespace Store

/-- Runs a query over some records of a model. -/
def query (store : Store) (model : Model) (args : FindArguments) (records : List Record) :
    Except Error (List Record) :=
  match args.projection.check with
  | .error e => .error e
  | .ok () => (store.window model args records).mapM (args.projection.shape store model)

/-- Runs a query over the collection of a model. -/
def find (store : Store) (model : Model) (args : FindArguments) : Except Error (List Record) :=
  store.query model args (store.items model.name)

end Store

end RecordStore
