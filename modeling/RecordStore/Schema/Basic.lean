import RecordStore.Value.Comparison

/-!
# Models and fields

What a schema declares: models with fields, the groups of fields that identify a record or have
to be unique, and the default that fills a field.
-/

namespace RecordStore

/-- What a field holds: a plain value, a constant of an enumeration, a value of a type that the
    store does not interpret, or records of another model. -/
inductive FieldKind where
  | scalar
  | relation
  | enumeration
  | unsupported
  deriving DecidableEq, Repr

/-- What fills a field that is left open. -/
inductive Default where
  | autoincrement
  | now
  | uuid
  | cuid
  | ulid
  | nanoid (size : Option Nat)
  | objectId
  | literal (value : Value)
  | unknown (name : String)

/-- What happens to the records that refer to a deleted one.  The last three leave them alone. -/
inductive DeletePolicy where
  | cascade
  | setNull
  | restrict
  | noAction
  | setDefault
  deriving DecidableEq, Repr

/-- A field of a model.  A relation field that stores the reference names the columns of its own
    model, `fromFields`, and the columns of the other model that they refer to, `toFields`. -/
structure Field where
  name : String
  kind : FieldKind
  typeName : String
  isList : Bool := false
  isRequired : Bool := false
  isUnique : Bool := false
  isId : Bool := false
  isUpdatedAt : Bool := false
  default : Option Default := none
  relationName : Option String := none
  fromFields : List String := []
  toFields : List String := []
  onDelete : Option DeletePolicy := none

/-- A group of fields, with a name of its own or without. -/
structure FieldGroup where
  name : Option String := none
  fields : List String

/-- A model: its fields in order, and the groups of fields that identify its records or have to
    be unique among them. -/
structure Model where
  name : String
  fields : List Field := []
  primaryKey : Option FieldGroup := none
  uniqueFields : List (List String) := []
  uniqueIndexes : List FieldGroup := []

namespace Field

/-- Whether the field stands for records of another model. -/
def isRelation (field : Field) : Bool := field.kind = .relation

/-- Whether the model of the field stores the reference. -/
def ownsForeignKey (field : Field) : Bool := !field.fromFields.isEmpty

/-- Whether the field holds values of any shape, which updates take as they are. -/
def isJson (field : Field) : Bool := field.typeName = "Json"

/-- Whether arithmetic on the field is that of integers. -/
def isInteger (field : Field) : Bool := field.typeName = "Int" || field.typeName = "BigInt"

/-- How values of the field are read before they are compared. -/
def reading (field : Field) : Reading := Reading.ofType (some field.typeName)

/-- Whether a counter fills the field. -/
def isCounted (field : Field) : Bool :=
  match field.default with
  | some .autoincrement => true
  | _ => false

end Field

namespace FieldGroup

/-- The name by which filters address the group. -/
def keyName (group : FieldGroup) : String := group.name.getD ("_".intercalate group.fields)

end FieldGroup

/-- A list in which each run of equal neighbours is one element. -/
def dedupNeighbours : List (List String) → List (List String)
  | [] => []
  | x :: rest =>
      match dedupNeighbours rest with
      | [] => [x]
      | y :: more => if x = y then y :: more else x :: y :: more

namespace Model

/-- The field of a name; the last one, should the name be declared more than once. -/
def field? (model : Model) (name : String) : Option Field :=
  model.fields.reverse.find? fun field => field.name = name

/-- The fields that stand for records of other models, in order. -/
def relationFields (model : Model) : List Field := model.fields.filter (·.isRelation)

/-- The fields that a record of the model holds values under, in order. -/
def scalarFields (model : Model) : List Field := model.fields.filter fun field => !field.isRelation

/-- The relation field of a name. -/
def relation? (model : Model) (name : String) : Option Field :=
  (model.field? name).filter (·.isRelation)

/-- How the values under a name are read before they are compared. -/
def readingOf (model : Model) (name : String) : Reading :=
  Reading.ofType ((model.field? name).map (·.typeName))

/-- The fields that identify a record: those declared as ids, else those of the primary key. -/
def idFields (model : Model) : List String :=
  match (model.fields.filter (·.isId)).map (·.name) with
  | [] => (model.primaryKey.map (·.fields)).getD []
  | ids => ids

/-- The fields of the group that filters address by a name. -/
def compoundKey? (model : Model) (name : String) : Option (List String) :=
  let primary := (model.primaryKey.filter fun key => key.keyName = name).map (·.fields)
  let grouped := model.uniqueFields.find? fun group => "_".intercalate group = name
  let indexed := (model.uniqueIndexes.find? fun index => index.keyName = name).map (·.fields)
  primary.or (grouped.or indexed)

/-- Every group of fields whose values together have to be unique in the collection. -/
def uniqueConstraints (model : Model) : List (List String) :=
  dedupNeighbours <|
    (model.fields.filter fun field => field.isId || field.isUnique).map (fun field => [field.name])
      ++ (model.primaryKey.map (·.fields)).toList
      ++ model.uniqueFields
      ++ model.uniqueIndexes.map (·.fields)

/-- What identifies a record: the value of its id field, or the list of the values of several. -/
def recordId (model : Model) (record : Record) : Value :=
  match model.idFields with
  | [] => .null
  | [id] => Record.valueAt id record
  | ids => .array (ids.map fun id => Record.valueAt id record)

end Model

end RecordStore
