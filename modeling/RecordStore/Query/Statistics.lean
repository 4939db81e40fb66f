import RecordStore.Query.Window

/-!
# Statistics

Counts, sums, averages and bounds of the values that some records hold in a field.  Nulls are left
out of all of them; without any other value a sum, an average or a bound is null.
-/

namespace RecordStore

/-- The statistics of a field. -/
inductive Statistic where
  | count
  | avg
  | sum
  | min
  | max
  deriving DecidableEq, Repr

namespace Statistic

/-- The key of a statistic. -/
def key : Statistic → String
  | .count => "_count"
  | .avg => "_avg"
  | .sum => "_sum"
  | .min => "_min"
  | .max => "_max"

/-- The statistic of a key. -/
def ofKey? : String → Option Statistic
  | "_count" => some .count
  | "_avg" => some .avg
  | "_sum" => some .sum
  | "_min" => some .min
  | "_max" => some .max
  | _ => none

/-- The values that are not null among those that some records hold in a field. -/
def presentValues (field : String) (rows : List Record) : List Value :=
  (rows.filterMap (Entries.get? field)).filter fun v => !v.isNull

/-- The sum of the integers that some values stand for, added up in a signed word of 128 bits. -/
def integerSum (values : List Value) : Int :=
  (values.filterMap Value.bigInteger?).foldl (fun total i => wrap 128 (total + i)) 0

/-- The sum of doubles, added in order to a negative zero. -/
def doubleSum (xs : List Float) : Float := xs.foldl (· + ·) (-0.0)

/-- The first of some values that every later one fails to surpass: a later value takes the place
    of the best so far only if it compares to it in the wanted way. -/
def extreme (wanted : Ordering) (reading : Reading) : List Value → Value
  | [] => .null
  | first :: rest =>
      rest.foldl (fun best v =>
        if Value.compare reading v best == some wanted then v else best) first

/-- A statistic of the values of a field.  The count of `_all` is the number of records. -/
def ofField (statistic : Statistic) (model : Model) (rows : List Record) (name : String) : Value :=
  if statistic = .count ∧ name = "_all" then .integer rows.length
  else
    let values := presentValues name rows
    match statistic with
    | .count => .integer values.length
    | .sum =>
        if values.isEmpty then .null
        else if (model.field? name).any (·.isInteger) then Value.ofInteger (integerSum values)
        else Value.ofDouble (doubleSum (values.filterMap Value.double?))
    | .avg =>
        let numbers := values.filterMap Value.double?
        if numbers.isEmpty then .null
        else Value.ofDouble (doubleSum numbers / Numeral.doubleOfInt numbers.length)
    | .min => extreme .lt (model.readingOf name) values
    | .max => extreme .gt (model.readingOf name) values

/-- A statistic of every field that a selection enables. -/
def ofFields (statistic : Statistic) (model : Model) (rows : List Record) (selection : Record) :
    Record :=
  (selection.filter fun (_, wanted) => wanted.isEnabled).foldl
    (fun acc (name, _) => Entries.insert name (statistic.ofField model rows name) acc) []

end Statistic

namespace StatisticsSelection

/-- What `_count` asks for: counts by field, or the number of records. -/
def counted (selection : StatisticsSelection) (model : Model) (rows : List Record) :
    Option Value :=
  match selection.count with
  | some (.object fields) => some (.object (Statistic.count.ofFields model rows fields))
  | some flag => if flag.isEnabled then some (.integer rows.length) else none
  | none => none

/-- The wanted statistics of some records, each under its key. -/
def compute (selection : StatisticsSelection) (model : Model) (rows : List Record) : Record :=
  let counts := match selection.counted model rows with
    | some value => [(Statistic.count.key, value)]
    | none => []
  let others := [(Statistic.avg, selection.avg), (.sum, selection.sum), (.min, selection.min),
    (.max, selection.max)]
  counts ++ others.filterMap fun (statistic, fields) =>
    fields.map fun fields => (statistic.key, .object (statistic.ofFields model rows fields))

end StatisticsSelection

namespace Store

/-- The wanted statistics of the records that a query selects. -/
def aggregate (store : Store) (model : Model) (args : AggregateArguments) : Record :=
  args.statistics.compute model (store.window model args.find (store.items model.name))

end Store

end RecordStore
