import RecordStore.Arguments
import RecordStore.Query.Order

/-!
# Selecting records

The part of a query that decides which records are answered and in which order: filter, sort,
cursor, skip and take, distinct.
-/

namespace RecordStore

namespace Window

variable {α : Type}

/-- What is left from the first element that passes a test on; up to it, if elements are taken
    from the end.  Nothing is left when no element passes. -/
def fromCursor (isCursor : α → Bool) (take : Option Int) (xs : List α) : List α :=
  match xs.findIdx? isCursor, take with
  | some i, some t => if t < 0 then xs.take (i + 1) else xs.drop i
  | some i, none => xs.drop i
  | none, _ => []

/-- Leaves some elements out and takes some of the others; a negative number is taken from the
    end, and then the elements are left out there as well. -/
def paginate (skip : Nat) (take : Option Int) (xs : List α) : List α :=
  match take with
  | none => xs.drop skip
  | some t =>
      if t < 0 then
        let stop := xs.length - skip
        let start := stop - t.natAbs
        (xs.drop start).take (stop - start)
      else (xs.drop skip).take t.toNat

/-- The values of a record in some fields. -/
def keyOf (fields : List String) (record : Record) : List Value :=
  fields.map fun field => Record.valueAt field record

/-- The records whose values in some fields have not come before, given those that have. -/
def distinctFrom (fields : List String) (seen : List (List Value)) : List Record → List Record
  | [] => []
  | record :: rest =>
      let key := keyOf fields record
      if seen.any fun old => Value.sameItems old key then distinctFrom fields seen rest
      else record :: distinctFrom fields (key :: seen) rest

/-- The first record for every combination of values in some fields; with no fields, all. -/
def distinct (fields : List String) (records : List Record) : List Record :=
  if fields.isEmpty then records else distinctFrom fields [] records

end Window

namespace Store

/-- The records among some records of a model that a query answers, before they are shaped. -/
def window (store : Store) (model : Model) (args : FindArguments) (records : List Record) :
    List Record :=
  let records := store.select model args.filter records
  let records := match args.orderBy with
    | some orderBy => store.sort model orderBy records
    | none => records
  let records := match args.cursor with
    | some cursor =>
        Window.fromCursor (fun record => store.satisfies model record cursor) args.take records
    | none => records
  let records := Window.paginate (args.skip.getD 0) args.take records
  match args.distinct with
  | some distinct => Window.distinct distinct.strings records
  | none => records

end Store

end RecordStore
