import RecordStore.Query.Statistics

/-!
# Grouping

Records are grouped by their values in some fields, in order of first appearance.  A `having`
filter tests a group by its values and by statistics of its records: the condition on a statistic
is moved to a key of its own, made of the field and the statistic, and the flattened filter is
tested like any other.
-/

namespace RecordStore

/-- A group: the values that its records share, and the records. -/
structure Group where
  key : Record
  rows : List Record

namespace Group

/-- The values of a record in some fields, under their names. -/
def keyOf (fields : List String) (row : Record) : Record :=
  fields.foldl (fun acc field => Entries.insert field (Record.valueAt field row) acc) []

/-- Groups with one more record: in the group of its key, or in a new one at the end. -/
def add (fields : List String) (row : Record) : List Group → List Group
  | [] => [⟨keyOf fields row, [row]⟩]
  | group :: rest =>
      if Record.same group.key (keyOf fields row) then
        { group with rows := group.rows ++ [row] } :: rest
      else group :: add fields row rest

/-- Records in groups of equal values in some fields. -/
def partition (fields : List String) (rows : List Record) : List Group :=
  rows.foldl (fun groups row => add fields row groups) []

end Group

/-- A statistic of a field that a filter or an order refers to. -/
abbrev Wanted := Statistic × String

namespace Having

/-- The key that stands for a statistic of a field: the name of the field, and that of the
    statistic with a capital. -/
def syntheticKey : Wanted → String
  | (.count, field) => field ++ "Count"
  | (.avg, field) => field ++ "Avg"
  | (.sum, field) => field ++ "Sum"
  | (.min, field) => field ++ "Min"
  | (.max, field) => field ++ "Max"

/-- A list of wanted statistics with one more, unless it is there already. -/
def addWanted (wanted : List Wanted) (new : Wanted) : List Wanted :=
  if new ∈ wanted then wanted else wanted ++ [new]

/-- A filter that has been flattened so far, and the statistics that it refers to. -/
structure Flattened where
  filter : Record := []
  wanted : List Wanted := []

/-- Moves the conditions on statistics of one field to their own keys; the other operators stay
    under the field. -/
def flattenField (name : String) (operators : Record) (done : Flattened) : Flattened :=
  let (done, plain) := operators.foldl
    (fun (done, plain) (operator, operand) =>
      match Statistic.ofKey? operator with
      | some statistic =>
          let pair : Wanted := (statistic, name)
          (Flattened.mk (Entries.insert (syntheticKey pair) operand done.filter)
            (addWanted done.wanted pair), plain)
      | none => (done, Entries.insert operator operand plain))
    (done, ([] : Record))
  if plain.isEmpty then done
  else { done with filter := Entries.insert name (.object plain) done.filter }

mutual

/-- Flattens the keys of a filter, in order, after those that are done. -/
def flatten (done : Flattened) : List (String × Value) → Flattened
  | [] => done
  | (key, condition) :: rest => flatten (flattenKey done key condition) rest
termination_by structural filter => filter

/-- Flattens one key of a filter. -/
def flattenKey (done : Flattened) (key : String) : Value → Flattened
  | .array items =>
      match Connective.ofName? key with
      | some _ =>
          let (filters, wanted) := flattenItems done.wanted items
          ⟨Entries.insert key (.array filters) done.filter, wanted⟩
      | none => { done with filter := Entries.insert key (.array items) done.filter }
  | .object fields =>
      match Connective.ofName? key with
      | some _ =>
          let inner := flatten ⟨[], done.wanted⟩ fields
          ⟨Entries.insert key (.array [.object inner.filter]) done.filter, inner.wanted⟩
      | none => flattenField key fields done
  | condition =>
      match Connective.ofName? key with
      | some _ => { done with filter := Entries.insert key (.array []) done.filter }
      | none => { done with filter := Entries.insert key condition done.filter }
termination_by structural condition => condition

/-- Flattens the filters in a list. -/
def flattenItems (wanted : List Wanted) : List Value → List Value × List Wanted
  | [] => ([], wanted)
  | .object filter :: rest =>
      let inner := flatten ⟨[], wanted⟩ filter
      let (filters, wanted) := flattenItems inner.wanted rest
      (.object inner.filter :: filters, wanted)
  | _ :: rest => flattenItems wanted rest
termination_by structural items => items

end

/-- The values that a flattened filter is tested on: those of the group, and the statistics that
    the filter refers to under their keys. -/
def view (model : Model) (wanted : List Wanted) (group : Group) : Record :=
  wanted.foldl (fun acc pair =>
    Entries.insert (syntheticKey pair) (pair.1.ofField model group.rows pair.2) acc) group.key

/-- Whether a group satisfies a `having` filter. -/
def holds (store : Store) (model : Model) (having : Record) (group : Group) : Bool :=
  let flattened := flatten {} having
  store.satisfies model (view model flattened.wanted group) flattened.filter

end Having

namespace GroupOrder

/-- The statistics that an `orderBy` refers to. -/
def wanted (orderBy : Value) : List Wanted :=
  orderBy.objects.flatMap fun entries => entries.flatMap fun (key, spec) =>
    match Statistic.ofKey? key, spec with
    | some statistic, .object fields => fields.map fun (field, _) => (statistic, field)
    | _, _ => []

/-- The values that groups are ordered by: those of the group, and the wanted statistics, nested
    under the key of the statistic and then that of the field. -/
def view (model : Model) (wanted : List Wanted) (group : Group) : Record :=
  wanted.foldl (fun acc (statistic, field) =>
    let slot := (Entries.get? statistic.key acc).getD (.object [])
    match slot with
    | .object fields =>
        let value := statistic.ofField model group.rows field
        Entries.insert statistic.key (.object (Entries.insert field value fields)) acc
    | _ => acc) group.key

end GroupOrder

namespace Store

/-- Groups the records that satisfy a filter, keeps the groups that satisfy `having`, orders them,
    cuts out a page, and answers the values of each group with its statistics. -/
def groupBy (store : Store) (model : Model) (args : GroupByArguments) :
    Except Error (List Record) :=
  let fields := args.keys.strings
  if fields.isEmpty then .error .emptyGrouping
  else
    let rows := store.select model args.filter (store.items model.name)
    let groups := Group.partition fields rows
    let groups := match args.having with
      | some having => groups.filter (Having.holds store model having)
      | none => groups
    let groups := match args.orderBy with
      | some orderBy =>
          store.sortBy model orderBy (GroupOrder.view model (GroupOrder.wanted orderBy)) groups
      | none => groups
    let page := (groups.drop (args.skip.getD 0)).take (args.take.getD groups.length)
    .ok (page.map fun group =>
      Entries.insertAll group.key (args.statistics.compute model group.rows))

end Store

end RecordStore
