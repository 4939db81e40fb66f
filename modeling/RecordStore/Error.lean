/-!
# Errors

Why an operation fails, by cause.  Every cause belongs to one kind, and the wording of all of
them stands in one function, `Error.message`.
-/

namespace RecordStore

/-- What an operation on a single record looked for in vain. -/
inductive MissingRecord where
  | toDelete
  | toUpdate
  | toFind
  | toConnect
  deriving DecidableEq, Repr

/-- Why an operation fails. -/
inductive Error where
  /-- A definition has two models of one name. -/
  | duplicateModel (model : String)
  /-- A relation field refers to a model that the definition does not have. -/
  | unknownTarget (model field target : String)
  /-- A model is asked for that the schema does not have. -/
  | unknownModel (model : String)
  /-- A nested write goes through a relation that has neither key columns nor a name. -/
  | unnamedRelation (model field : String)
  /-- There is no schema file at a path. -/
  | missingFile (path : String)
  /-- A projection has both a selection and inclusions. -/
  | selectWithInclude
  /-- A count is asked for through a field that is no relation. -/
  | unknownCount (relation model : String)
  /-- A grouping names no field. -/
  | emptyGrouping
  /-- An arithmetic update meets a value or an operand that is no number it can work with. -/
  | invalidOperand (operator field : String)
  /-- A nested operation needs an object. -/
  | expectsObject (operation : String)
  /-- A nested operation needs an object under a key. -/
  | requiresMember (operation member : String)
  /-- Records without a single id field cannot be joined. -/
  | compositeJoin (model relation : String)
  /-- An operation on a single record finds none. -/
  | notFound (model : String) (cause : MissingRecord)
  /-- A record would share the values of a unique group of fields with another one. -/
  | uniqueConstraint (model : String) (fields : List String)
  /-- Arguments do not have the form that the operation takes. -/
  | malformedArguments
  /-- A schema definition does not have the form of one. -/
  | malformedDefinition
  /-- A schema text does not hold a schema definition. -/
  | malformedDocument
  /-- A schema file cannot be read. -/
  | unreadableFile
  /-- Nested writes call each other more often than the payload and the values in records allow. -/
  | nestingExceeded
  deriving DecidableEq, Repr

/-- The families of errors. -/
inductive ErrorKind where
  | schema
  | validation
  | notFound
  | uniqueConstraint
  | malformed
  | document
  | file
  | nesting
  deriving DecidableEq, Repr

namespace MissingRecord

/-- The sentence for what was looked for in vain. -/
def message : MissingRecord → String
  | .toDelete => "Record to delete does not exist."
  | .toUpdate => "Record to update not found."
  | .toFind => "No record was found for a query."
  | .toConnect => "Record to connect not found."

end MissingRecord

namespace Error

/-- The family of an error. -/
def kind : Error → ErrorKind
  | .duplicateModel _ => .schema
  | .unknownTarget _ _ _ => .schema
  | .unknownModel _ => .schema
  | .unnamedRelation _ _ => .schema
  | .missingFile _ => .schema
  | .selectWithInclude => .validation
  | .unknownCount _ _ => .validation
  | .emptyGrouping => .validation
  | .invalidOperand _ _ => .validation
  | .expectsObject _ => .validation
  | .requiresMember _ _ => .validation
  | .compositeJoin _ _ => .validation
  | .notFound _ _ => .notFound
  | .uniqueConstraint _ _ => .uniqueConstraint
  | .malformedArguments => .malformed
  | .malformedDefinition => .malformed
  | .malformedDocument => .document
  | .unreadableFile => .file
  | .nestingExceeded => .nesting

/-- The code that callers of the two constraint failures match on. -/
def code : Error → Option String
  | .notFound _ _ => some "P2025"
  | .uniqueConstraint _ _ => some "P2002"
  | _ => none

/-- What went wrong, without the family. -/
def detail : Error → String
  | .duplicateModel model => "Model '" ++ model ++ "' is defined more than once"
  | .unknownTarget model field target =>
      "Field '" ++ model ++ "." ++ field ++ "' references unknown model '" ++ target ++ "'"
  | .unknownModel model => "Model '" ++ model ++ "' not found in schema"
  | .unnamedRelation model field => model ++ "." ++ field ++ " has no relation name"
  | .missingFile path => "Schema file not found: " ++ path
  | .selectWithInclude =>
      "Please either use `include` or `select`, but not both at the same time."
  | .unknownCount relation model =>
      "Unknown relation '" ++ relation ++ "' in _count on " ++ model
  | .emptyGrouping => "groupBy requires at least one `by` field"
  | .invalidOperand operator field =>
      "Invalid `" ++ operator ++ "` operand for field '" ++ field ++ "'"
  | .expectsObject operation => "`" ++ operation ++ "` expects an object"
  | .requiresMember operation member => "`" ++ operation ++ "` requires `" ++ member ++ "`"
  | .compositeJoin model relation =>
      model ++ " needs a single id field to join through " ++ relation
  | .notFound model cause => "No record found for " ++ model ++ ": " ++ cause.message
  | .uniqueConstraint model fields =>
      "Unique constraint failed on " ++ model ++ ": (" ++ ", ".intercalate fields ++ ")"
  | .malformedArguments => "malformed arguments"
  | .malformedDefinition => "malformed schema definition"
  | .malformedDocument => "malformed schema text"
  | .unreadableFile => "unreadable schema file"
  | .nestingExceeded => "nested writes are nested too deeply"

/-- The text of an error. -/
def message (e : Error) : String :=
  match e.kind with
  | .schema => "Schema error: " ++ e.detail
  | .validation => "Validation error: " ++ e.detail
  | _ => e.detail

end Error

end RecordStore
