import RecordStore.Schema.Linkage

/-!
# Joins

Relations that neither end stores in key columns are kept as joins: ordered sets of directed
pairs of record ids.  A join has two sides, each a field of a model; a pair holds the id of a
record of side `a` and that of a record of side `b`.  When both sides belong to one model the
pairs are read in both directions.
-/

namespace RecordStore

/-- One end of a join. -/
structure Side where
  field : String
  model : String
  deriving DecidableEq, Repr

/-- The ids of two linked records, that of the record of side `a` first. -/
structure Link where
  a : Value
  b : Value

/-- A join and its links, in the order in which they were made. -/
structure Join where
  name : String
  a : Side
  b : Side
  links : List Link := []

/-- All joins of a schema, ordered by name. -/
abbrev Joins := List Join

/-- Equality of record ids: numbers by quantity, all else as data. -/
def sameId (x y : Value) : Bool := Value.equals .plain x y

/-- A list of ids with one more at its end, unless it is there already. -/
def addId (ids : List Value) (id : Value) : List Value :=
  if ids.any fun known => sameId known id then ids else ids ++ [id]

namespace Link

/-- Whether two links join the same records in the same direction. -/
def same (x y : Link) : Bool := sameId x.a y.a && sameId x.b y.b

end Link

namespace Join

/-- Whether both sides belong to one model. -/
def isSymmetric (join : Join) : Bool := join.a.model = join.b.model

/-- The sides, in order. -/
def sides (join : Join) : List Side := [join.a, join.b]

/-- The link between a record and a target as seen from a field of the model of the record. -/
def oriented (join : Join) (side : Side) (id target : Value) : Link :=
  if join.a = side then ⟨id, target⟩ else ⟨target, id⟩

/-- Ids joined with the counterparts of an id on the sides that a model has, in link order. -/
def counterpartsInto (join : Join) (model : String) (id : Value) (ids : List Value) :
    List Value :=
  join.links.foldl (fun ids link =>
    let ids := if join.a.model = model ∧ sameId link.a id then addId ids link.b else ids
    if join.b.model = model ∧ sameId link.b id then addId ids link.a else ids) ids

/-- A join with one more link, unless it is there already. -/
def link (join : Join) (new : Link) : Join :=
  if join.links.any fun old => old.same new then join
  else { join with links := join.links ++ [new] }

/-- A join without one link. -/
def unlink (join : Join) (gone : Link) : Join :=
  { join with links := join.links.filter fun old => !old.same gone }

/-- A join without the links of a record of a model. -/
def strip (join : Join) (model : String) (id : Value) : Join :=
  { join with links := join.links.filter fun link =>
      !(join.a.model = model && sameId link.a id) && !(join.b.model = model && sameId link.b id) }

end Join

namespace Joins

/-! ## Deriving the joins of a schema -/

/-- A relation field with a relation name, and whether it names any key columns. -/
structure NamedEnd where
  relation : String
  side : Side
  keyed : Bool

/-- Every named relation field, in order of declaration. -/
def namedEnds (models : List Model) : List NamedEnd :=
  models.flatMap fun model =>
    model.relationFields.filterMap fun field =>
      field.relationName.map fun relation =>
        ⟨relation, ⟨field.name, model.name⟩,
          !field.fromFields.isEmpty || !field.toFields.isEmpty⟩

/-- A list of names with one more at its place in the order, unless it is there already. -/
def insertName (name : String) : List String → List String
  | [] => [name]
  | other :: rest =>
      if name = other then other :: rest
      else if name < other then name :: other :: rest
      else other :: insertName name rest

/-- The two sides in order: by field, then by model. -/
def orderSides (x y : Side) : Side × Side :=
  match (compare x.field y.field).then (compare x.model y.model) with
  | .gt => (y, x)
  | _ => (x, y)

/-- The join of a relation name, if exactly two fields have it and neither names key columns. -/
def ofEnds? (ends : List NamedEnd) (name : String) : Option Join :=
  match ends.filter fun e => e.relation = name with
  | [x, y] =>
      if x.keyed || y.keyed then none
      else
        let (a, b) := orderSides x.side y.side
        some { name, a, b }
  | _ => none

/-- The joins that some models declare. -/
def ofModels (models : List Model) : Joins :=
  let ends := namedEnds models
  (ends.foldl (fun names e => insertName e.relation names) []).filterMap (ofEnds? ends)

/-! ## Reading -/

/-- The join of a name. -/
def get? (name : String) (joins : Joins) : Option Join :=
  joins.find? fun join => join.name = name

/-- The join that a field of a model is a side of; the last one, should there be several. -/
def ofSide? (side : Side) (joins : Joins) : Option Join :=
  joins.reverse.find? fun join => side ∈ join.sides

/-- The ids joined to an id as seen from a model.  An object with a list under `in` stands for
    the ids of that list. -/
def counterparts (joins : Joins) (name model : String) (id : Value) : List Value :=
  match joins.get? name with
  | none => []
  | some join =>
      match (id.get? "in").bind Value.array? with
      | some ids => ids.foldl (fun out id => join.counterpartsInto model id out) []
      | none => join.counterpartsInto model id []

/-- The id that a filter by id alone asks for: a scalar, or a scalar under `equals`. -/
def wantedId? (idField : String) (filter : Value) : Option Value := do
  let fields ← filter.object?
  let operand ← if fields.length = 1 then Entries.get? idField fields else none
  let operand ← match operand with
    | .object [(key, v)] => if key = "equals" then some v else none
    | v => some v
  if operand.isScalar && !operand.isNull then some operand else none

/-- The ids that conditions of the forms `some` and `none` ask for, if all conditions are of
    these forms and ask by id alone. -/
def wantedIds? (idField : String) : Record → Option (List (Bool × Value))
  | [] => some []
  | (quantifier, filter) :: rest => do
      let expected ←
        if quantifier = "some" then some true
        else if quantifier = "none" then some false
        else none
      let id ← wantedId? idField filter
      let rest ← wantedIds? idField rest
      some ((expected, id) :: rest)

/-- What a condition on a joined relation comes to, if the links alone decide it: it is an object
    of quantifiers `some` and `none` over filters by id. -/
def decide? (joins : Joins) (side : Side) (id : Value) (idField : String) (condition : Value) :
    Option Bool := do
  let join ← joins.ofSide? side
  let conditions ← condition.object?
  if conditions.isEmpty then none
  let wanted ← wantedIds? idField conditions
  let ids := join.counterpartsInto side.model id []
  some (wanted.all fun (expected, target) =>
    (ids.any fun known => sameId known target) == expected)

/-! ## Writing -/

/-- The joins with a change to the one of a name. -/
def modify (name : String) (change : Join → Join) (joins : Joins) : Joins :=
  joins.map fun join => if join.name = name then change join else join

/-- Links a record, seen from a side, with every target; a join of an unknown name is ignored. -/
def connect (joins : Joins) (name : String) (side : Side) (id targets : Value) : Joins :=
  joins.modify name fun join =>
    targets.elements.foldl (fun join target => join.link (join.oriented side id target)) join

/-- Removes exactly the links between a record, seen from a side, and the targets. -/
def disconnect (joins : Joins) (name : String) (side : Side) (id targets : Value) : Joins :=
  joins.modify name fun join =>
    targets.elements.foldl (fun join target => join.unlink (join.oriented side id target)) join

/-- Removes every link of a record. -/
def cleanup (joins : Joins) (model : String) (id : Value) : Joins :=
  joins.map fun join => join.strip model id

/-- The joins without their links. -/
def reset (joins : Joins) : Joins := joins.map fun join => { join with links := [] }

end Joins

end RecordStore
