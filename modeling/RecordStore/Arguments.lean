import RecordStore.Error
import RecordStore.Members

/-!
# Arguments of operations

What each operation is told, read from a value.  Null stands for no arguments; keys that an
operation does not know are ignored; a key over null counts as absent where the argument is
optional.  A list gives the arguments in order.  The aggregate operations take no lists.
-/

namespace RecordStore

/-- How records are shaped for an answer: a selection keeps only what it names, inclusions are
    added to the plain fields, and with neither a record is answered as it is. -/
structure Projection where
  select : Option Record := none
  inclusion : Option Record := none

/-- What selects, orders, cuts and shapes the records of a query. -/
structure FindArguments where
  filter : Option Record := none
  orderBy : Option Value := none
  cursor : Option Record := none
  skip : Option Nat := none
  take : Option Int := none
  distinct : Option Value := none
  projection : Projection := {}

/-- What a new record is made of. -/
structure CreateArguments where
  data : Record := []
  projection : Projection := {}

/-- What several new records are made of, and whether those that collide are left out. -/
structure CreateManyArguments where
  data : Value := .null
  skipDuplicates : Bool := false
  projection : Projection := {}

/-- Which records are updated, and how. -/
structure UpdateArguments where
  filter : Option Record := none
  data : Record := []
  projection : Projection := {}

/-- Which record is updated, and how, or what is created when there is none. -/
structure UpsertArguments where
  filter : Option Record := none
  create : Record := []
  update : Record := []
  projection : Projection := {}

/-- Which records are deleted. -/
structure DeleteArguments where
  filter : Option Record := none
  projection : Projection := {}

/-- Which statistics are wanted. -/
structure StatisticsSelection where
  count : Option Value := none
  avg : Option Record := none
  sum : Option Record := none
  min : Option Record := none
  max : Option Record := none

/-- Which records statistics are taken over, and which statistics. -/
structure AggregateArguments where
  filter : Option Record := none
  orderBy : Option Value := none
  cursor : Option Record := none
  skip : Option Nat := none
  take : Option Int := none
  statistics : StatisticsSelection := {}

/-- Which records are grouped, by what, and which groups and statistics are answered. -/
structure GroupByArguments where
  keys : Value := .null
  filter : Option Record := none
  having : Option Record := none
  orderBy : Option Value := none
  skip : Option Nat := none
  take : Option Nat := none
  statistics : StatisticsSelection := {}

/-- The part of the arguments that selects and orders records. -/
def AggregateArguments.find (args : AggregateArguments) : FindArguments where
  filter := args.filter
  orderBy := args.orderBy
  cursor := args.cursor
  skip := args.skip
  take := args.take

namespace Arguments

open Members

/-- An object that may be absent. -/
def object? (name : String) (fields : Record) : Option (Option Record) :=
  nullable Value.isNull Value.object? name fields

/-- Any value, which may be absent. -/
def value? (name : String) (fields : Record) : Option (Option Value) :=
  nullable Value.isNull some name fields

/-- A natural number that may be absent. -/
def natural? (name : String) (fields : Record) : Option (Option Nat) :=
  nullable Value.isNull Value.uint64? name fields

/-- An integer that may be absent. -/
def integer? (name : String) (fields : Record) : Option (Option Int) :=
  nullable Value.isNull Value.int64? name fields

/-- An object that is empty by default. -/
def payload (name : String) (fields : Record) : Option Record :=
  withDefault Value.object? [] name fields

/-- A value that is null by default. -/
def free (name : String) (fields : Record) : Option Value := withDefault some .null name fields

/-- The projection among the members of arguments. -/
def projection (fields : Record) : Option Projection := do
  some {
    select := ← object? "select" fields
    inclusion := ← object? "include" fields }

/-- Arguments that are read from the members of an object or a list; null gives the empty ones. -/
def parse {α : Type} (names : List String) (read : Record → Option α) (v : Value) :
    Except Error α :=
  let fields := if v.isNull then some [] else Members.ofValue? names v
  match fields.bind read with
  | some args => .ok args
  | none => .error .malformedArguments

/-- Arguments that are read from the members of an object only. -/
def parseObject {α : Type} (read : Record → Option α) (v : Value) : Except Error α :=
  let fields := if v.isNull then some [] else v.object?
  match fields.bind read with
  | some args => .ok args
  | none => .error .malformedArguments

/-- The arguments of a query. -/
def find (v : Value) : Except Error FindArguments :=
  parse ["where", "orderBy", "cursor", "skip", "take", "distinct", "select", "include"]
    (fun fields => do
      some {
        filter := ← object? "where" fields
        orderBy := ← value? "orderBy" fields
        cursor := ← object? "cursor" fields
        skip := ← natural? "skip" fields
        take := ← integer? "take" fields
        distinct := ← value? "distinct" fields
        projection := ← projection fields }) v

/-- The arguments of a create. -/
def create (v : Value) : Except Error CreateArguments :=
  parse ["data", "select", "include"]
    (fun fields => do
      some {
        data := ← payload "data" fields
        projection := ← projection fields }) v

/-- The arguments of a create of several records. -/
def createMany (v : Value) : Except Error CreateManyArguments :=
  parse ["data", "skipDuplicates", "select", "include"]
    (fun fields => do
      some {
        data := ← free "data" fields
        skipDuplicates := ← withDefault Value.bool? false "skipDuplicates" fields
        projection := ← projection fields }) v

/-- The arguments of an update, of one record or of several. -/
def update (v : Value) : Except Error UpdateArguments :=
  parse ["where", "data", "select", "include"]
    (fun fields => do
      some {
        filter := ← object? "where" fields
        data := ← payload "data" fields
        projection := ← projection fields }) v

/-- The arguments of an upsert. -/
def upsert (v : Value) : Except Error UpsertArguments :=
  parse ["where", "create", "update", "select", "include"]
    (fun fields => do
      some {
        filter := ← object? "where" fields
        create := ← payload "create" fields
        update := ← payload "update" fields
        projection := ← projection fields }) v

/-- The arguments of a delete, of one record or of several. -/
def delete (v : Value) : Except Error DeleteArguments :=
  parse ["where", "select", "include"]
    (fun fields => do
      some {
        filter := ← object? "where" fields
        projection := ← projection fields }) v

/-- The wanted statistics among the members of an object. -/
def statistics (fields : Record) : Option StatisticsSelection := do
  some {
    count := ← value? "_count" fields
    avg := ← object? "_avg" fields
    sum := ← object? "_sum" fields
    min := ← object? "_min" fields
    max := ← object? "_max" fields }

/-- The arguments of statistics. -/
def aggregate (v : Value) : Except Error AggregateArguments :=
  parseObject
    (fun fields => do
      some {
        filter := ← object? "where" fields
        orderBy := ← value? "orderBy" fields
        cursor := ← object? "cursor" fields
        skip := ← natural? "skip" fields
        take := ← integer? "take" fields
        statistics := ← statistics fields }) v

/-- The arguments of a grouping. -/
def groupBy (v : Value) : Except Error GroupByArguments :=
  parseObject
    (fun fields => do
      some {
        keys := ← free "by" fields
        filter := ← object? "where" fields
        having := ← object? "having" fields
        orderBy := ← value? "orderBy" fields
        skip := ← natural? "skip" fields
        take := ← natural? "take" fields
        statistics := ← statistics fields }) v

end Arguments

end RecordStore
