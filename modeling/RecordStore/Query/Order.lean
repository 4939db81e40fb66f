import RecordStore.Query.Filter

/-!
# Ordering records

An `orderBy` is a list of sort keys in priority order.  Each key reads one value of a record: a
field, the number of records linked through a relation, or a field of what is linked or nested.
Nulls go after all other values, or before them if the key asks for it, whatever its direction.
The sort is stable: records that tie on all keys keep their order.
-/

namespace RecordStore

/-- What a sort key reads from a record. -/
inductive SortTarget where
  | field (name : String)
  | relationCount (relation : String)
  | nested (parent field : String)
  deriving DecidableEq, Repr

/-- A sort key: what it reads, its direction, and where nulls go. -/
structure SortKey where
  target : SortTarget
  descending : Bool := false
  nullsFirst : Bool := false
  deriving DecidableEq, Repr

namespace SortKey

/-! ## Reading sort keys -/

/-- Whether a text says that the order descends; every other text says that it ascends. -/
def isDescending (text : String) : Bool := text.toLower = "desc"

/-- Direction and place of nulls from the name of a direction, or from an object with one. -/
def direction? : Value → Option (Bool × Bool)
  | .string text => some (isDescending text, false)
  | .object fields =>
      match Entries.get? "sort" fields with
      | some (.string text) =>
          let nullsFirst := match Entries.get? "nulls" fields with
            | some (.string place) => place = "first"
            | _ => false
          some (isDescending text, nullsFirst)
      | _ => none
  | _ => none

/-- The sort key of a target, if the specification is a direction. -/
def ofTarget? (target : SortTarget) (spec : Value) : Option SortKey :=
  (direction? spec).map fun (descending, nullsFirst) => { target, descending, nullsFirst }

/-- The sort keys of one entry: one for a direction or a count of linked records, else one for
    every nested field that has a direction. -/
def ofEntry (name : String) (spec : Value) : List SortKey :=
  match ofTarget? (.field name) spec with
  | some key => [key]
  | none =>
      match spec with
      | .object nested =>
          let count := match nested with
            | [("_count", dir)] => ofTarget? (.relationCount name) dir
            | _ => none
          match count with
          | some key => [key]
          | none => nested.filterMap fun (field, dir) => ofTarget? (.nested name field) dir
      | _ => []

/-- The sort keys of an `orderBy`, in priority order. -/
def ofValue (orderBy : Value) : List SortKey :=
  orderBy.objects.flatMap fun entries => entries.flatMap fun (name, spec) => ofEntry name spec

/-! ## Comparing -/

/-- Order of two sort values under a key; values that are not comparable tie. -/
def compareValues (key : SortKey) (reading : Reading) (a b : Value) : Ordering :=
  match a.isNull, b.isNull with
  | true, true => .eq
  | true, false => if key.nullsFirst then .lt else .gt
  | false, true => if key.nullsFirst then .gt else .lt
  | false, false =>
      let order := (Value.compare reading a b).getD .eq
      if key.descending then order.swap else order

/-- How the values of a key are read, for records of a model. -/
def reading (store : Store) (model : Model) (key : SortKey) : Reading :=
  match key.target with
  | .field name => model.readingOf name
  | .relationCount _ => .plain
  | .nested parent field =>
      match model.relation? parent with
      | some relation =>
          match store.schema.model? relation.typeName with
          | some related => related.readingOf field
          | none => .plain
      | none => if parent = "_count" ∨ parent = "_avg" then .plain else model.readingOf field

/-- The value that a key reads from a record of a model; null when there is none. -/
def value (store : Store) (model : Model) (key : SortKey) (record : Record) : Value :=
  match key.target with
  | .field name => Record.valueAt name record
  | .relationCount name =>
      match model.relation? name with
      | some relation => .integer (store.related model relation record).length
      | none => .integer 0
  | .nested parent field =>
      match model.relation? parent with
      | some relation =>
          match (store.related model relation record).head? with
          | some other => Record.valueAt field other
          | none => .null
      | none => ((Record.valueAt parent record).get? field).getD .null

end SortKey

/-! ## Stable sorting -/

namespace StableSort

variable {α : Type}

/-- Puts an element into a descending list, in front of the elements that it does not come
    before. -/
def insertDescending (before : α → α → Bool) (x : α) : List α → List α
  | [] => [x]
  | y :: rest => if before x y then y :: insertDescending before x rest else x :: y :: rest

/-- Sorts by a relation `before`, which says that the first element has to stand before the
    second.  Elements are inserted from the left, each after all that it need not precede, so
    that ties keep their order. -/
def sort (before : α → α → Bool) (xs : List α) : List α :=
  (xs.foldl (fun sorted x => insertDescending before x sorted) []).reverse

end StableSort

namespace SortKey

/-- Order of two lists of sort values, key by key; the first key that does not tie decides. -/
def compareAll : List (SortKey × Reading) → List Value → List Value → Ordering
  | (key, reading) :: keys, a :: as, b :: bs =>
      (key.compareValues reading a b).then (compareAll keys as bs)
  | _, _, _ => .eq

end SortKey

namespace Store

/-- Sorts entries by the records that they show. -/
def sortBy {α : Type} (store : Store) (model : Model) (orderBy : Value) (view : α → Record)
    (entries : List α) : List α :=
  let keys := SortKey.ofValue orderBy
  let readings := keys.map fun key => (key, key.reading store model)
  let decorated := entries.map fun entry =>
    (keys.map fun key => key.value store model (view entry), entry)
  let sorted := StableSort.sort
    (fun a b => SortKey.compareAll readings a.1 b.1 == .lt) decorated
  sorted.map Prod.snd

/-- Sorts records of a model. -/
def sort (store : Store) (model : Model) (orderBy : Value) (records : List Record) :
    List Record :=
  store.sortBy model orderBy id records

end Store

end RecordStore
