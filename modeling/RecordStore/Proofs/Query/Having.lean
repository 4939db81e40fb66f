import Mathlib
import RecordStore.Proofs.Query.Flattening
import RecordStore.Proofs.Relation.Support

/-!
# What a `having` filter means

A `having` filter means what it says when it is read as it stands: connectives combine the filters
in them, a condition on a statistic tests the statistic of the records of the group, and what else
is said of a field is asked of the values of the group.  The flattened filter, tested on the values
of the group with the wanted statistics beside them, gives the same verdict, as long as the keys of
the statistics are apart from what the model declares and from every name that the filter looks up.
-/

namespace RecordStore

namespace Having

variable {store : Store} {model : Model} {group : Group} {pair : Wanted} {wanted : List Wanted}
  {looked : List String} {name key : String} {operators : Record} {condition : Value}

/-! ## The filter as it stands -/

/-- Whether a group is as the operators of a field ask: its statistics pass their conditions, and
    its values pass the other operators, if there are any. -/
def evaluateField (store : Store) (model : Model) (group : Group) (name : String)
    (operators : Record) : Bool :=
  ((asked operators).all fun (statistic, condition) =>
    Condition.matchesScalar .plain (statistic.ofField model group.rows name) condition) &&
  ((plain operators).isEmpty ||
    store.satisfies model group.key [(name, .object (plain operators))])

mutual

/-- Whether a group is as a filter says: connectives act on the filters in them, conditions on
    statistics are asked of the statistics of the group, and all else of its values. -/
def evaluate (store : Store) (model : Model) (group : Group) : List (String × Value) → Bool
  | [] => true
  | (key, condition) :: rest =>
      evaluateKey store model group key condition && evaluate store model group rest
termination_by structural filter => filter

/-- Whether a group is as one key of a filter says. -/
def evaluateKey (store : Store) (model : Model) (group : Group) (key : String) : Value → Bool
  | .array items =>
      match Connective.ofName? key with
      | some connective => connective.combine (evaluateItems store model group items)
      | none => store.satisfies model group.key [(key, .array items)]
  | .object fields =>
      match Connective.ofName? key with
      | some connective => connective.combine [evaluate store model group fields]
      | none => evaluateField store model group key fields
  | condition =>
      match Connective.ofName? key with
      | some connective => connective.combine []
      | none => store.satisfies model group.key [(key, condition)]
termination_by structural condition => condition

/-- What each of the filters in a list says of a group. -/
def evaluateItems (store : Store) (model : Model) (group : Group) : List Value → List Bool
  | [] => []
  | .object filter :: rest =>
      evaluate store model group filter :: evaluateItems store model group rest
  | _ :: rest => evaluateItems store model group rest
termination_by structural items => items

end

/-- Statistics have keys apart from some names, from the fields of a model and from its compound
    keys. -/
structure Apart (model : Model) (names : List String) (wanted : List Wanted) : Prop where
  unnamed : ∀ pair ∈ wanted, syntheticKey pair ∉ names
  undeclared : ∀ pair ∈ wanted, model.field? (syntheticKey pair) = none
  uncompounded : ∀ pair ∈ wanted, model.compoundKey? (syntheticKey pair) = none

/-! ## The values that are tested -/

theorem view_eq (model : Model) (wanted : List Wanted) (group : Group) :
    view model wanted group = Entries.insertAll group.key
      (wanted.map fun pair => (syntheticKey pair, pair.1.ofField model group.rows pair.2)) := by
  rw [Entries.insertAll, List.foldl_map]
  rfl

/-- A wanted statistic is shown under its key. -/
theorem valueAt_view (h : pair ∈ wanted) :
    Record.valueAt (syntheticKey pair) (view model wanted group) =
      pair.1.ofField model group.rows pair.2 := by
  have hmem : syntheticKey pair ∈ Entries.keys (wanted.map fun pair =>
      (syntheticKey pair, pair.1.ofField model group.rows pair.2)) := by
    rw [Entries.keys, List.map_map]
    exact List.mem_map.mpr ⟨pair, h, rfl⟩
  rw [view_eq, Record.valueAt, Entries.get?_insertAll_of_forall hmem]
  · rfl
  · intro entry hentry heq
    obtain ⟨other, -, rfl⟩ := List.mem_map.mp hentry
    obtain rfl := syntheticKey_injective heq
    rfl

/-- Under all other names the group is shown as it is. -/
theorem get?_view (h : ∀ pair ∈ wanted, syntheticKey pair ≠ name) :
    Entries.get? name (view model wanted group) = Entries.get? name group.key := by
  rw [view_eq, Entries.get?_insertAll_of_notMem]
  rw [Entries.keys, List.map_map]
  intro hmem
  obtain ⟨pair, hpair, heq⟩ := List.mem_map.mp hmem
  exact h pair hpair heq

/-! ## One verdict -/

/-- What is asked under other names is asked of the values of the group. -/
theorem satisfies_view (hapart : Apart model looked wanted) {filter : Record}
    (h : Filter.names store.schema model filter ⊆ looked) :
    Filter.satisfies store store.related model (view model wanted group) filter =
      store.satisfies model group.key filter :=
  Filter.satisfies_agree filter fun _ hname =>
    get?_view fun pair hpair heq => hapart.unnamed pair hpair (heq ▸ h hname)

theorem satisfies_view_key (hapart : Apart model looked wanted)
    (h : key :: Filter.namesUnder store.schema model key condition ⊆ looked) :
    Filter.satisfies store store.related model (view model wanted group) [(key, condition)] =
      store.satisfies model group.key [(key, condition)] :=
  satisfies_view hapart (by rwa [Filter.names_singleton])

/-- What is asked under the keys of statistics is asked of the statistics. -/
theorem satisfies_asked (hapart : Apart model looked wanted)
    (asks : List (Statistic × Value)) (h : ∀ entry ∈ asks, (entry.1, name) ∈ wanted) :
    Filter.satisfies store store.related model (view model wanted group)
        (asks.map fun (statistic, operand) => (syntheticKey (statistic, name), operand)) =
      asks.all fun (statistic, operand) =>
        Condition.matchesScalar .plain (statistic.ofField model group.rows name) operand := by
  induction asks with
  | nil => rfl
  | cons entry rest ih =>
      obtain ⟨hpair, hrest⟩ := List.forall_mem_cons.mp h
      obtain ⟨hword, his⟩ := syntheticKey_notReserved (entry.1, name)
      rw [List.map_cons, Filter.satisfies, ih hrest, List.all_cons,
        Filter.satisfiesKey_undeclared hword his (hapart.undeclared _ hpair)
          (hapart.uncompounded _ hpair), valueAt_view hpair]

/-- The entries of a field say of the view what its operators say of the group. -/
theorem satisfies_flatField (hapart : Apart model looked wanted)
    (hword : Connective.ofName? name = none) (hoperators : (Entries.keys operators).Nodup)
    (hpairs : fieldPairs name operators ⊆ wanted)
    (hlooked : name :: Filter.namesUnder store.schema model name (.object operators) ⊆ looked) :
    Filter.satisfies store store.related model (view model wanted group)
        (flatField name operators) = evaluateField store model group name operators := by
  obtain ⟨hname, hunder⟩ := List.cons_subset.mp hlooked
  have hplain : name :: Filter.namesUnder store.schema model name (.object (plain operators)) ⊆
      looked :=
    List.cons_subset.mpr
      ⟨hname, List.Subset.trans (Filter.namesUnder_subset hword (List.filter_subset_self _)) hunder⟩
  rw [flatField, Filter.satisfies_append, satisfies_asked hapart _ fun entry hentry =>
    hpairs (mem_fieldPairs.mpr ⟨entry, hentry, rfl⟩), insertAll_plain hoperators, evaluateField]
  cases (plain operators).isEmpty with
  | true => rfl
  | false => exact congrArg _ (satisfies_view_key hapart hplain)

theorem fieldsHaveDistinctKeys_of_object {filter : Record}
    (h : (Value.object filter).hasDistinctKeys = true) :
    Value.fieldsHaveDistinctKeys filter = true := by
  rw [Value.hasDistinctKeys, Bool.and_eq_true] at h
  exact h.2

/-- A filter that looks up only some names is written as the entries that it becomes. -/
theorem written_eq (hapart : Apart model looked wanted) {filter : Record}
    (hdistinct : (Value.object filter).hasDistinctKeys = true) (hpairs : pairs filter ⊆ wanted)
    (hlooked : Filter.names store.schema model filter ⊆ looked) :
    Entries.insertAll [] (flat filter) = flat filter :=
  insertAll_flat hdistinct fun pair hpair hkey =>
    hapart.unnamed pair (hpairs hpair) (hlooked (Filter.keys_subset_names filter hkey))

/-- A single value is written as it stands, and asked of the group. -/
theorem satisfies_flatKey_of_isScalar (hapart : Apart model looked wanted)
    (hscalar : condition.isScalar = true)
    (hlooked : key :: Filter.namesUnder store.schema model key condition ⊆ looked) :
    Filter.satisfies store store.related model (view model wanted group) (flatKey key condition) =
      evaluateKey store model group key condition := by
  have hevaluate : evaluateKey store model group key condition =
      match Connective.ofName? key with
      | some connective => connective.combine []
      | none => store.satisfies model group.key [(key, condition)] := by
    cases condition with
    | array _ => cases hscalar
    | object _ => cases hscalar
    | _ => rfl
  rw [flatKey_of_isScalar hscalar, hevaluate]
  cases hword : Connective.ofName? key with
  | some connective =>
      dsimp only
      rw [if_pos Option.isSome_some, Filter.satisfies_singleton, Filter.satisfiesKey, hword]
      rfl
  | none => exact satisfies_view_key hapart hlooked

mutual

/-- **The flattened filter says of the view what the filter says of the group.** -/
theorem satisfies_flat (hapart : Apart model looked wanted) : ∀ filter : List (String × Value),
    Value.fieldsHaveDistinctKeys filter = true → pairs filter ⊆ wanted →
    Filter.names store.schema model filter ⊆ looked →
      Filter.satisfies store store.related model (view model wanted group) (flat filter) =
        evaluate store model group filter
  | [], _, _, _ => rfl
  | (key, condition) :: rest, hdistinct, hpairs, hlooked => by
      rw [Value.fieldsHaveDistinctKeys, Bool.and_eq_true] at hdistinct
      obtain ⟨hfirst, hrest⟩ := List.append_subset.mp hpairs
      obtain ⟨hkey, hothers⟩ := List.append_subset.mp hlooked
      rw [flat, Filter.satisfies_append,
        satisfies_flatKey hapart condition key hdistinct.1 hfirst hkey,
        satisfies_flat hapart rest hdistinct.2 hrest hothers, evaluate]
termination_by structural filter => filter

theorem satisfies_flatKey (hapart : Apart model looked wanted) : ∀ (condition : Value)
    (key : String), condition.hasDistinctKeys = true → keyPairs key condition ⊆ wanted →
    key :: Filter.namesUnder store.schema model key condition ⊆ looked →
      Filter.satisfies store store.related model (view model wanted group)
        (flatKey key condition) = evaluateKey store model group key condition
  | .array items, key, hdistinct, hpairs, hlooked => by
      rw [flatKey, evaluateKey]
      cases hword : Connective.ofName? key with
      | some connective =>
          rw [keyPairs, hword] at hpairs
          rw [Filter.namesUnder, hword] at hlooked
          have hverdicts := verdicts_flatItems hapart items hdistinct hpairs
            (List.cons_subset.mp hlooked).2
          dsimp only
          rw [if_pos Option.isSome_some, Filter.satisfies_singleton, Filter.satisfiesKey, hword]
          exact congrArg connective.combine hverdicts
      | none => exact satisfies_view_key hapart hlooked
  | .object fields, key, hdistinct, hpairs, hlooked => by
      rw [flatKey, evaluateKey]
      cases hword : Connective.ofName? key with
      | some connective =>
          rw [keyPairs, hword] at hpairs
          rw [Filter.namesUnder, hword] at hlooked
          have hunder := (List.cons_subset.mp hlooked).2
          have hverdict := satisfies_flat hapart fields
            (fieldsHaveDistinctKeys_of_object hdistinct) hpairs hunder
          dsimp only
          rw [if_pos Option.isSome_some, written_eq hapart hdistinct hpairs hunder,
            Filter.satisfies_singleton, Filter.satisfiesKey, hword]
          exact congrArg (connective.combine [·]) hverdict
      | none =>
          rw [keyPairs, hword] at hpairs
          rw [Value.hasDistinctKeys, Bool.and_eq_true, decide_eq_true_eq] at hdistinct
          exact satisfies_flatField hapart hword hdistinct.1 hpairs hlooked
  | .null, _, _, _, hlooked => satisfies_flatKey_of_isScalar hapart rfl hlooked
  | .bool _, _, _, _, hlooked => satisfies_flatKey_of_isScalar hapart rfl hlooked
  | .integer _, _, _, _, hlooked => satisfies_flatKey_of_isScalar hapart rfl hlooked
  | .double _, _, _, _, hlooked => satisfies_flatKey_of_isScalar hapart rfl hlooked
  | .string _, _, _, _, hlooked => satisfies_flatKey_of_isScalar hapart rfl hlooked
termination_by structural condition => condition

theorem verdicts_flatItems (hapart : Apart model looked wanted) : ∀ items : List Value,
    Value.haveDistinctKeys items = true → itemPairs items ⊆ wanted →
    Filter.namesWithin store.schema model items ⊆ looked →
      Filter.verdicts store store.related model (view model wanted group) (flatItems items) =
        evaluateItems store model group items
  | [], _, _, _ => rfl
  | .object filter :: rest, hdistinct, hpairs, hlooked => by
      rw [Value.haveDistinctKeys, Bool.and_eq_true] at hdistinct
      obtain ⟨hfirst, hrest⟩ := List.append_subset.mp hpairs
      obtain ⟨hnames, hothers⟩ := List.append_subset.mp hlooked
      have hfields := fieldsHaveDistinctKeys_of_object hdistinct.1
      rw [flatItems, evaluateItems, Filter.verdicts, written_eq hapart hdistinct.1 hfirst hnames,
        satisfies_flat hapart filter hfields hfirst hnames,
        verdicts_flatItems hapart rest hdistinct.2 hrest hothers]
  | .null :: rest, hdistinct, hpairs, hlooked =>
      verdicts_flatItems hapart rest hdistinct hpairs hlooked
  | .bool _ :: rest, hdistinct, hpairs, hlooked =>
      verdicts_flatItems hapart rest hdistinct hpairs hlooked
  | .integer _ :: rest, hdistinct, hpairs, hlooked =>
      verdicts_flatItems hapart rest hdistinct hpairs hlooked
  | .double _ :: rest, hdistinct, hpairs, hlooked =>
      verdicts_flatItems hapart rest hdistinct hpairs hlooked
  | .string _ :: rest, hdistinct, hpairs, hlooked =>
      verdicts_flatItems hapart rest hdistinct hpairs hlooked
  | .array _ :: rest, hdistinct, hpairs, hlooked =>
      verdicts_flatItems hapart rest (Bool.and_eq_true _ _ ▸ hdistinct :).2 hpairs hlooked
termination_by structural items => items

end

/-- A `having` filter keeps the groups that are as it says. -/
theorem holds_eq_evaluate {having : Record}
    (hdistinct : (Value.object having).hasDistinctKeys = true)
    (hapart : Apart model (Filter.names store.schema model having) (pairs having))
    (group : Group) : holds store model having group = evaluate store model group having := by
  have hmem (pair : Wanted) : pair ∈ (pairs having).foldl addWanted [] ↔ pair ∈ pairs having := by
    rw [mem_foldl_addWanted, or_iff_left List.not_mem_nil]
  have hwanted : Apart model (Filter.names store.schema model having)
      ((pairs having).foldl addWanted []) :=
    { unnamed := fun pair hpair => hapart.unnamed pair ((hmem pair).mp hpair)
      undeclared := fun pair hpair => hapart.undeclared pair ((hmem pair).mp hpair)
      uncompounded := fun pair hpair => hapart.uncompounded pair ((hmem pair).mp hpair) }
  have hpairs : pairs having ⊆ (pairs having).foldl addWanted [] :=
    fun pair hpair => (hmem pair).mpr hpair
  have hnames : Filter.names store.schema model having ⊆ Filter.names store.schema model having :=
    List.Subset.refl _
  rw [holds, flatten_eq]
  dsimp only
  rw [written_eq hwanted hdistinct hpairs hnames]
  exact satisfies_flat hwanted having (fieldsHaveDistinctKeys_of_object hdistinct) hpairs hnames

end Having

namespace Store

variable {store : Store} {model : Model}

/-- What a grouping answers of the groups that it keeps: a page of them, in order, each with its
    values and its statistics. -/
def answerGroups (store : Store) (model : Model) (args : GroupByArguments) (groups : List Group) :
    List Record :=
  let groups := match args.orderBy with
    | some orderBy =>
        store.sortBy model orderBy (GroupOrder.view model (GroupOrder.wanted orderBy)) groups
    | none => groups
  ((groups.drop (args.skip.getD 0)).take (args.take.getD groups.length)).map fun group =>
    Entries.insertAll group.key (args.statistics.compute model group.rows)

/-- **Grouping keeps exactly the groups that are as `having` says.**  The keys of the statistics
    that it asks for have to be apart from what the model declares and from the names that the
    filter looks up; no two of them are the same. -/
theorem groupBy_of_having {args : GroupByArguments} {having : Record}
    (hhaving : args.having = some having) (hkeys : args.keys.strings ≠ [])
    (hdistinct : (Value.object having).hasDistinctKeys = true)
    (hapart : Having.Apart model (Filter.names store.schema model having) (Having.pairs having)) :
    store.groupBy model args =
        .ok (store.answerGroups model args
          ((Group.partition args.keys.strings
            (store.select model args.filter (store.items model.name))).filter fun group =>
              Having.evaluate store model group having)) ∧
      (∀ group, Having.holds store model having group =
        Having.evaluate store model group having) ∧
      Function.Injective Having.syntheticKey := by
  have hholds : ∀ group, Having.holds store model having group =
      Having.evaluate store model group having :=
    Having.holds_eq_evaluate hdistinct hapart
  have hsome : args.keys.strings.isEmpty = false := by
    rw [Bool.eq_false_iff, ne_eq, List.isEmpty_iff]
    exact hkeys
  refine ⟨?_, hholds, Having.syntheticKey_injective⟩
  unfold groupBy
  simp only [hsome, Bool.false_eq_true, if_false, hhaving]
  rw [funext hholds]
  rfl

end Store

namespace Fleet

/-- Trips of some drivers. -/
def trip : Model where
  name := "Trip"
  fields := [{ name := "driver", kind := .scalar, typeName := "String" },
    { name := "km", kind := .scalar, typeName := "Int" },
    { name := "fuel", kind := .scalar, typeName := "Int" }]

def schema : Schema where
  options := {}
  models := [trip]
  nodup_names := by decide
  targets_known := by decide

def week : Store := (Store.ofSchema schema 0 ⟨0⟩).setItems "Trip" [
  [("driver", .string "ada"), ("km", .integer 70), ("fuel", .integer 4)],
  [("driver", .string "bo"), ("km", .integer 90), ("fuel", .integer 9)],
  [("driver", .string "ada"), ("km", .integer 50), ("fuel", .integer 3)],
  [("driver", .string "cy"), ("km", .integer 20), ("fuel", .integer 1)],
  [("driver", .string "bo"), ("km", .integer 30)]]

/-- More than 100 km in trips that were all long and took little fuel, or a single short trip; in
    either case less than three trips, and not of a driver `dee`. -/
def having : Record :=
  [("OR", .array [
      .object [("km", .object [("_sum", .object [("gt", .integer 100)]),
          ("_min", .object [("gte", .integer 50)])]),
        ("NOT", .object [("fuel", .object [("_max", .object [("gt", .integer 8)])])])],
      .object [("AND", .array [.object [("driver", .object [("_count", .integer 1)])]]),
        ("km", .object [("_max", .object [("lt", .integer 50)])])]]),
    ("driver", .object [("not", .string "dee"), ("_count", .object [("lt", .integer 3)])])]

def byDriver : GroupByArguments where
  keys := .array [.string "driver"]
  having := some having

/-- Of two drivers with the same distance the one whose trips were all long is kept, and so is a
    driver with a single short trip. -/
theorem groupBy_driver :
    byDriver.having = some having ∧ byDriver.keys.strings ≠ [] ∧
      (Value.object having).hasDistinctKeys = true ∧
      Having.Apart trip (Filter.names week.schema trip having) (Having.pairs having) ∧
      week.groupBy trip byDriver =
        .ok [[("driver", .string "ada")], [("driver", .string "cy")]] := by
  have hkeys : byDriver.keys.strings ≠ [] := by decide
  have hdistinct : (Value.object having).hasDistinctKeys = true := by decide
  have hnames : Filter.names week.schema trip having =
      ["OR", "km", "NOT", "fuel", "AND", "driver", "km", "driver"] := by decide
  have hpairs : Having.pairs having = [(.sum, "km"), (.min, "km"), (.max, "fuel"),
      (.count, "driver"), (.max, "km"), (.count, "driver")] := by decide
  have hapart : Having.Apart trip (Filter.names week.schema trip having) (Having.pairs having) := by
    rw [hnames, hpairs]
    exact ⟨by decide, by decide, by decide⟩
  obtain ⟨hkept, -, -⟩ := Store.groupBy_of_having rfl hkeys hdistinct hapart
  refine ⟨rfl, hkeys, hdistinct, hapart, hkept.trans (congrArg Except.ok ?_)⟩
  cbv

end Fleet

namespace Market

/-- Deals refer to their buyer by a column that is not declared. -/
def deal : Model where
  name := "Deal"
  fields := [{ name := "region", kind := .scalar, typeName := "String" },
    { name := "kind", kind := .scalar, typeName := "String" },
    { name := "total", kind := .scalar, typeName := "Int" },
    { name := "buyer", kind := .relation, typeName := "Buyer", relationName := some "bought",
      fromFields := ["totalSum"], toFields := ["id"] }]
  uniqueFields := [["region", "kind"]]

def buyer : Model where
  name := "Buyer"
  fields := [{ name := "id", kind := .scalar, typeName := "Int", isId := true },
    { name := "deals", kind := .relation, typeName := "Deal", isList := true,
      relationName := some "bought" }]

def schema : Schema where
  options := {}
  models := [deal, buyer]
  nodup_names := by decide
  targets_known := by decide

def firstDeal : Record :=
  [("region", .string "north"), ("kind", .string "retail"), ("total", .integer 1)]

def day : Store := (Store.ofSchema schema 0 ⟨0⟩).setItems "Deal" [firstDeal]

/-- The group of the deal. -/
def group (fields : List String) : Group := ⟨Group.keyOf fields firstDeal, [firstDeal]⟩

/-- A total of one, and what else a filter says. -/
def totalling (other : String) (condition : Value) : Record :=
  [("total", .object [("_sum", .object [("equals", .integer 1)])]), (other, condition)]

/-- No buyer: none is found by the column of deals that refers to buyers. -/
def unbought : Record := totalling "buyer" .null

/-- The values of a compound key, and none under a name besides. -/
def onlyRetail : Record := totalling "region_kind"
  (.object [("region", .string "north"), ("kind", .string "retail"), ("totalSum", .null)])

/-- The deal is as a filter says, no statistic of which has a key of the filter, a name that is
    grouped by, or a field or compound key of the model; and yet its group is dropped. -/
def DropsDeal (fields : List String) (having : Record) : Prop :=
  (∀ pair ∈ Having.pairs having, Having.syntheticKey pair ∉ Entries.keys having ∧
    Having.syntheticKey pair ∉ fields ∧ deal.field? (Having.syntheticKey pair) = none ∧
    deal.compoundKey? (Having.syntheticKey pair) = none) ∧
  Group.partition fields (day.items "Deal") = [group fields] ∧
  Having.evaluate day deal (group fields) having = true ∧
  day.groupBy deal { keys := .array (fields.map .string), having := some having } = .ok []

/-- The key of a statistic may also be looked up as the column of a link, or under a compound
    key. -/
theorem drops_deal :
    DropsDeal ["region"] unbought ∧ DropsDeal ["region", "kind"] onlyRetail :=
  ⟨⟨by decide, rfl, by cbv, rfl⟩, ⟨by decide, rfl, by cbv, rfl⟩⟩

end Market

end RecordStore
