import RecordStore.Query.Project

/-!
# Writes

A write runs on a store and gives a result or an error, and in both cases the store that it
leaves behind: what was written before a failure stays written.  Here stand the steps that all
writes share: reading the payload of a nested operation, the check of unique groups, and the
filling of open fields.
-/

namespace RecordStore

/-- A write: a result or an error, with the store as it is left in either case. -/
abbrev Write (α : Type) := ExceptT Error (StateM Store) α

namespace Write

/-- A result or an error as a write that changes nothing. -/
def require {α : Type} (result : Except Error α) : Write α := ExceptT.mk (pure result)

/-- Runs a step that always succeeds. -/
def step {α : Type} (f : Store → α × Store) : Write α := modifyGet f

/-- Runs a write whose failure on a unique group may be skipped; none when it was. -/
def orSkip {α : Type} (skip : Bool) (write : Write α) : Write (Option α) :=
  tryCatch (some <$> write) fun e =>
    match e with
    | .uniqueConstraint _ _ => if skip then pure none else throw e
    | e => throw e

end Write

/-! ## Payloads of nested operations -/

namespace Payload

/-- The object that an operation needs. -/
def object (arg : Value) (operation : String) : Except Error Record :=
  match arg.object? with
  | some fields => .ok fields
  | none => .error (.expectsObject operation)

/-- The object that an operation needs under a key. -/
def member (arg : Value) (key operation : String) : Except Error Record :=
  match (arg.get? key).bind Value.object? with
  | some fields => .ok fields
  | none => .error (.requiresMember operation key)

/-- The filter and the data of an update: under `where` and `data`, or data alone. -/
def update (arg : Value) : Except Error (Option Record × Record) :=
  match (arg.get? "data").bind Value.object? with
  | some data => .ok ((arg.get? "where").bind Value.object?, data)
  | none => (object arg "update").map (none, ·)

/-- The entries of an operation that takes one or a list of them. -/
def entries : Value → List Value
  | .array items => items
  | single => [single]

end Payload

/-- A filter narrowed to a scope; an empty filter adds nothing to the scope. -/
def Filter.narrow (scope : Record) (filter : Option Record) : Record :=
  match filter with
  | some filter =>
      if filter.isEmpty then scope else [("AND", .array [.object filter, .object scope])]
  | none => scope

/-! ## Unique groups -/

namespace Store

/-- Whether some stored record other than `previous` holds the same values as a candidate in a
    group of fields, none of them null. -/
def clashes (store : Store) (model : Model) (candidate : Record) (previous : Option Record)
    (fields : List String) : Bool :=
  !(fields.any fun field => Record.isNullAt field candidate) &&
    (store.items model.name).any fun item =>
      !(previous.any fun previous => Record.same previous item) &&
        fields.all fun field =>
          Value.equals .plain (Record.valueAt field item) (Record.valueAt field candidate)

/-- The first unique group on which a candidate collides with another stored record. -/
def clash? (store : Store) (model : Model) (candidate : Record) (previous : Option Record) :
    Option (List String) :=
  model.uniqueConstraints.find? (store.clashes model candidate previous)

/-- Rejects a candidate that collides on a unique group, if the schema enforces them. -/
def checkUnique (store : Store) (model : Model) (candidate : Record) (previous : Option Record) :
    Except Error Unit :=
  if store.schema.options.enforceUnique then
    match store.clash? model candidate previous with
    | some fields => .error (.uniqueConstraint model.name fields)
    | none => .ok ()
  else .ok ()

/-! ## Filling open fields -/

/-- Fills one field of a record under construction: the given value if it is not null, else the
    default, else null. -/
def layField (model : Model) (field : Field) (given : Value) (store : Store) : Value × Store :=
  if given.isNull then
    let (value, store) := store.defaultValue model field
    (value.getD .null, store)
  else (given, store)

/-- Lays out a record of a model: every plain field in order of declaration.  A given value is
    used up by the first field of its name. -/
def layFields (model : Model) : List Field → Record → Record → Store → Record × Store
  | [], _, record, store => (record, store)
  | field :: rest, given, record, store =>
      let (value, store) := layField model field (Record.valueAt field.name given) store
      layFields model rest (Entries.erase field.name given)
        (Entries.insert field.name value record) store

/-- The record that a model makes of given values. -/
def materialize (model : Model) (given : Record) (store : Store) : Record × Store :=
  layFields model model.scalarFields given [] store

/-- Refreshes one field of an updated record: the time of the update unless it is written itself,
    and the default in place of null. -/
def refreshField (model : Model) (written : Record) (record : Record) (field : Field)
    (store : Store) : Record × Store :=
  if field.isUpdatedAt && !Entries.contains field.name written then
    (Entries.insert field.name store.now record, store)
  else if Record.isNullAt field.name record then
    match store.defaultValue model field with
    | (some value, store) => (Entries.insert field.name value record, store)
    | (none, store) => (record, store)
  else (record, store)

/-- Refreshes the plain fields of an updated record, in order of declaration. -/
def refreshFields (model : Model) (written : Record) :
    List Field → Record → Store → Record × Store
  | [], record, store => (record, store)
  | field :: rest, record, store =>
      let (record, store) := refreshField model written record field store
      refreshFields model written rest record store

end Store

namespace Write

/-- Puts a changed record in the place of the stored one; an unchanged one needs no write. -/
def replaceStored (model : Model) (current next : Record) : Write Unit := do
  if Record.same next current then pure ()
  else
    require ((← get).checkUnique model next (some current))
    match (← get).swap model.name current next with
    | some store => set store
    | none => throw (.notFound model.name .toUpdate)

end Write

end RecordStore
