import RecordStore.Query.Operator
import RecordStore.Store

/-!
# Filters

A filter is an object whose keys must all hold of a record: logical connectives over filters,
quantifiers over the records linked through a relation, conditions on lists and on single values,
and compound keys.  Which records are linked is found either through key columns, by the filter
that the columns of the record amount to, or through a join.

Key columns that are themselves relation fields would lead from one link to the next, so links are
followed a bounded number of times; with plain columns a single step settles every link.
-/

namespace RecordStore

/-- A way to find the records linked to a record of a model through a relation field. -/
abbrev Links := Model → Field → Record → List Record

/-- The keys that combine filters. -/
inductive Connective where
  | all
  | any
  | none
  deriving DecidableEq, Repr

namespace Connective

/-- The connective of a key. -/
def ofName? : String → Option Connective
  | "AND" => some .all
  | "OR" => some .any
  | "NOT" => some .none
  | _ => Option.none

/-- What a connective makes of the verdicts of its filters. -/
def combine (connective : Connective) (verdicts : List Bool) : Bool :=
  match connective with
  | .all => verdicts.all id
  | .any => verdicts.any id
  | .none => !verdicts.any id

end Connective

/-- The keys that ask how many of the linked records satisfy a filter. -/
inductive Quantifier where
  | some
  | every
  | none
  | is
  | isNot
  deriving DecidableEq, Repr

namespace Quantifier

/-- The quantifier of a key. -/
def ofName? : String → Option Quantifier
  | "some" => Option.some .some
  | "every" => Option.some .every
  | "none" => Option.some .none
  | "is" => Option.some .is
  | "isNot" => Option.some .isNot
  | _ => Option.none

/-- Whether the linked records satisfy a test as the quantifier asks. -/
def holds (quantifier : Quantifier) (linked : List Record) (test : Record → Bool) : Bool :=
  match quantifier with
  | .some => linked.any test
  | .every => linked.all test
  | .none => !linked.any test
  | .is => linked.head?.any test
  | .isNot => !linked.any test

/-- Whether the quantifier holds over null, which `is` and `isNot` take for no linked record and
    the others for no filter. -/
def holdsNull (quantifier : Quantifier) (linked : List Record) : Bool :=
  match quantifier with
  | .is => linked.isEmpty
  | .isNot => !linked.isEmpty
  | quantifier => quantifier.holds linked fun _ => true

end Quantifier

namespace Filter

/-! ## Conditions without filters inside -/

/-- What a condition on a relation comes to when the links of a join decide it by ids alone. -/
def decided? (store : Store) (model : Model) (record : Record) (field : Field) (related : Model)
    (condition : Value) : Option Bool :=
  match related.idFields with
  | [idField] =>
      let id := model.recordId record
      if id.isNull then none
      else store.joins.decide? ⟨field.name, model.name⟩ id idField condition
  | _ => none

/-- Whether nothing is linked through a relation: one of its own key columns is null, or no
    record is found. -/
def isUnlinked (store : Store) (links : Links) (model : Model) (record : Record) (field : Field) :
    Bool :=
  let unlinked := (links model field record).isEmpty
  match store.schema.linkage? model field with
  | some linkage =>
      if linkage.owned then
        linkage.localColumns.any fun column => Record.isNullAt column record
      else unlinked
  | none => unlinked

/-- Whether a condition on a key that holds no filters is satisfied. -/
def satisfiesPlain (store : Store) (links : Links) (model : Model) (record : Record)
    (key : String) (condition : Value) : Bool :=
  match model.field? key with
  | some field =>
      if field.isRelation then
        (store.schema.model? field.typeName).isSome && condition.isNull
          && isUnlinked store links model record field
      else if field.isList then
        Condition.matchesList field.reading (Entries.get? key record) condition
      else Condition.matchesScalar field.reading (Record.valueAt key record) condition
  | none =>
      if (model.compoundKey? key).isSome then
        match condition with
        | .object subset => Record.holdsAll record subset
        | _ => false
      else Condition.matchesScalar .plain (Record.valueAt key record) condition

/-! ## Filters -/

mutual

/-- Whether a record satisfies every key of a filter. -/
def satisfies (store : Store) (links : Links) (model : Model) (record : Record) :
    List (String × Value) → Bool
  | [] => true
  | (key, condition) :: rest =>
      satisfiesKey store links model record key condition
        && satisfies store links model record rest
termination_by structural filter => filter

/-- Whether a record satisfies one key of a filter. -/
def satisfiesKey (store : Store) (links : Links) (model : Model) (record : Record)
    (key : String) : Value → Bool
  | .array items =>
      match Connective.ofName? key with
      | some connective => connective.combine (verdicts store links model record items)
      | none => satisfiesPlain store links model record key (.array items)
  | .object fields =>
      match Connective.ofName? key with
      | some connective => connective.combine [satisfies store links model record fields]
      | none =>
          if key = "is" then satisfies store links model record fields
          else
            match model.relation? key with
            | none => satisfiesPlain store links model record key (.object fields)
            | some field =>
                match store.schema.model? field.typeName with
                | none => false
                | some related =>
                    match decided? store model record field related (.object fields) with
                    | some verdict => verdict
                    | none =>
                        let linked := links model field record
                        if isOperatorObject Quantifier.ofName? fields then
                          quantified store links related linked fields
                        else
                          linked.head?.any fun other => satisfies store links related other fields
  | condition =>
      match Connective.ofName? key with
      | some connective => connective.combine []
      | none => satisfiesPlain store links model record key condition
termination_by structural condition => condition

/-- The verdicts of the filters in a list. -/
def verdicts (store : Store) (links : Links) (model : Model) (record : Record) :
    List Value → List Bool
  | [] => []
  | .object filter :: rest =>
      satisfies store links model record filter :: verdicts store links model record rest
  | _ :: rest => verdicts store links model record rest
termination_by structural items => items

/-- Whether the linked records satisfy every quantifier of a condition.  What is no filter and
    not null holds of every record. -/
def quantified (store : Store) (links : Links) (related : Model) (linked : List Record) :
    List (String × Value) → Bool
  | [] => true
  | (name, .object filter) :: rest =>
      ((Quantifier.ofName? name).all fun quantifier =>
          quantifier.holds linked fun other => satisfies store links related other filter)
        && quantified store links related linked rest
  | (name, .null) :: rest =>
      ((Quantifier.ofName? name).all fun quantifier => quantifier.holdsNull linked)
        && quantified store links related linked rest
  | (name, _) :: rest =>
      ((Quantifier.ofName? name).all fun quantifier => quantifier.holds linked fun _ => true)
        && quantified store links related linked rest
termination_by structural conditions => conditions

end

end Filter

namespace Store

/-! ## Linked records -/

/-- The records linked to a record through a relation field, in insertion order; links found on
    the way are followed at most `depth` times. -/
def linkedWithin (store : Store) : Nat → Links
  | 0, _, _, _ => []
  | depth + 1, model, field, record =>
      match store.schema.model? field.typeName with
      | none => []
      | some related =>
          match store.schema.linkage? model field with
          | some linkage =>
              match linkage.scope record with
              | some scope =>
                  (store.items related.name).filter fun other =>
                    Filter.satisfies store (linkedWithin store depth) related other scope
              | none => []
          | none =>
              match field.relationName with
              | none => []
              | some name =>
                  let ids := store.joins.counterparts name model.name (model.recordId record)
                  (store.items related.name).filter fun other =>
                    ids.any fun id => sameId (related.recordId other) id

/-- A chain of different links is no longer than this: each link starts at a relation field and a
    stored record, but for the first one. -/
def linkDepth (store : Store) : Nat :=
  store.schema.models.foldl (fun total model =>
    total + model.relationFields.length * (store.items model.name).length) 1

/-- The records linked to a record through a relation field, in insertion order. -/
def related (store : Store) (model : Model) (field : Field) (record : Record) : List Record :=
  store.linkedWithin store.linkDepth model field record

/-- Whether a record of a model satisfies a filter. -/
def satisfies (store : Store) (model : Model) (record filter : Record) : Bool :=
  Filter.satisfies store store.related model record filter

/-- The records of a list that satisfy a filter, in order. -/
def select (store : Store) (model : Model) (filter : Option Record) (records : List Record) :
    List Record :=
  match filter with
  | some filter => records.filter fun record => store.satisfies model record filter
  | none => records

/-- The first stored record that satisfies a filter. -/
def first? (store : Store) (model : Model) (filter : Option Record) : Option Record :=
  (store.items model.name).find? fun record =>
    filter.all fun filter => store.satisfies model record filter

end Store

end RecordStore
