import RecordStore.Members
import RecordStore.Schema.Linkage
import RecordStore.Yaml.Reader

/-!
# Reading schema definitions

A definition is read from an object that has the declared members.  Members that are not declared
are ignored; a member that is absent has its default, if it has one.

Definitions are written in two media: as values, whose scalars have types, and as documents, whose
scalars are texts.  The two differ in how the parts of a definition are told apart, and in nothing
else, so a definition is read by way of what its medium says about them.
-/

namespace RecordStore.Decode

open Members

/-- How the parts of a definition are told apart in a medium with some type of nodes. -/
structure Medium (Node : Type) where
  /-- The members of an object that has the declared members. -/
  members : List String → Node → Option (Entries Node)
  /-- The items of a list. -/
  items : Node → Option (List Node)
  /-- A text. -/
  text : Node → Option String
  /-- A truth value. -/
  flag : Node → Option Bool
  /-- A word out of a set of words. -/
  word : Node → Option String
  /-- Whether a node stands for a member that may be absent, and is. -/
  isNull : Node → Bool
  /-- The default of a field. -/
  default : Node → Option Default

/-! ## Lists -/

section

variable {α β : Type}

/-- A list of things that are read in one way. -/
def listOf (medium : Medium α) (read : α → Option β) (node : α) : Option (List β) := do
  (← medium.items node).mapM read

/-- A list of texts. -/
def texts (medium : Medium α) (node : α) : Option (List String) := listOf medium medium.text node

end

/-! ## Values -/

/-- A word, which may also stand as the only key of an object, over null. -/
def valueWord : Value → Option String
  | .object [(name, .null)] => some name
  | v => v.string?

/-- What a generator of a name fills in. -/
def generator (name : String) (arguments : List Value) : Default :=
  match name with
  | "autoincrement" => .autoincrement
  | "sequence" => .autoincrement
  | "now" => .now
  | "uuid" => .uuid
  | "cuid" => .cuid
  | "ulid" => .ulid
  | "nanoid" => .nanoid (arguments.head?.bind Value.uint64?)
  | "auto" => .objectId
  | "dbgenerated" => .objectId
  | other => .unknown other

/-- The members of the call of a generator. -/
def callMembers : List String := ["name", "args"]

/-- The call of a generator: an object with a name, perhaps arguments, and nothing else, or the
    list of the two. -/
def generatorCall? (v : Value) : Option Default := do
  let members ← Members.ofValue? callMembers v
  let name ← required Value.string? "name" members
  let arguments ← withDefault Value.array? [] "args" members
  if members.all fun (key, _) => callMembers.contains key then some (generator name arguments)
  else none

/-- A default: the call of a generator, and everything else literally. -/
def valueDefault (v : Value) : Default := (generatorCall? v).getD (.literal v)

/-- Definitions written as values. -/
def values : Medium Value where
  members := Members.ofValue?
  items := Value.array?
  text := Value.string?
  flag := Value.bool?
  word := valueWord
  isNull := Value.isNull
  default := fun v => some (valueDefault v)

/-! ## Documents -/

/-- Whether no two members have the same one of some names. -/
def areDistinct {α : Type} (names : List String) (members : Entries α) : Bool :=
  (members.keys.filter names.contains).Nodup

/-- The members of a mapping.  A declared member may not come twice. -/
def documentMembers (names : List String) (node : Yaml.Node) : Option (Entries Yaml.Node) :=
  node.entries?.filter fun members => areDistinct names members

/-- How deeply the default of a field may be nested: a document may be nested 128 deep, and five of
    these levels lie around a default. -/
def defaultDepth : Nat := 123

/-- The default of a field, read as the value of its node.  An object that repeats a member is no
    call of a generator. -/
def documentDefault (node : Yaml.Node) : Option Default :=
  if node.depth ≤ defaultDepth then
    node.value?.map fun v =>
      if node.entries?.all (areDistinct callMembers) then valueDefault v else .literal v
  else none

/-- Definitions written as documents. -/
def documents : Medium Yaml.Node where
  members := documentMembers
  items := Yaml.Node.items?
  text := Yaml.Node.text?
  flag := fun node => node.scalar?.bind Yaml.Scalar.bool?
  word := Yaml.Node.text?
  isNull := Yaml.Node.isNull
  default := documentDefault

/-! ## Fields -/

section

variable {α : Type} (medium : Medium α)

/-- The kind of a field, by its word. -/
def kind (node : α) : Option FieldKind :=
  match medium.word node with
  | some "scalar" => some .scalar
  | some "object" => some .relation
  | some "enum" => some .enumeration
  | some "unsupported" => some .unsupported
  | _ => none

/-- A policy for deletes, by its word. -/
def deletePolicy (node : α) : Option DeletePolicy :=
  match medium.word node with
  | some "Cascade" => some .cascade
  | some "SetNull" => some .setNull
  | some "Restrict" => some .restrict
  | some "NoAction" => some .noAction
  | some "SetDefault" => some .setDefault
  | _ => none

/-- A field of a model. -/
def field (node : α) : Option Field := do
  let members ← medium.members
    ["name", "kind", "type", "isList", "isRequired", "isUnique", "isId", "isUpdatedAt",
      "hasDefaultValue", "default", "relationName", "relationFromFields", "relationToFields",
      "relationOnDelete"] node
  let flag (name : String) : Option Bool := withDefault medium.flag false name members
  let name ← required medium.text "name" members
  let kind ← required (kind medium) "kind" members
  let typeName ← required medium.text "type" members
  let isList ← flag "isList"
  let isRequired ← flag "isRequired"
  let isUnique ← flag "isUnique"
  let isId ← flag "isId"
  let isUpdatedAt ← flag "isUpdatedAt"
  let _ ← flag "hasDefaultValue"
  let default ← nullable medium.isNull medium.default "default" members
  let relationName ← nullable medium.isNull medium.text "relationName" members
  let fromFields ← withDefault (texts medium) [] "relationFromFields" members
  let toFields ← withDefault (texts medium) [] "relationToFields" members
  let onDelete ← nullable medium.isNull (deletePolicy medium) "relationOnDelete" members
  some { name, kind, typeName, isList, isRequired, isUnique, isId, isUpdatedAt, default,
         relationName, fromFields, toFields, onDelete }

/-! ## Models -/

/-- A group of fields. -/
def fieldGroup (node : α) : Option FieldGroup := do
  let members ← medium.members ["name", "fields"] node
  let name ← nullable medium.isNull medium.text "name" members
  let fields ← required (texts medium) "fields" members
  some ⟨name, fields⟩

/-- A model. -/
def model (node : α) : Option Model := do
  let members ← medium.members
    ["name", "fields", "primaryKey", "uniqueFields", "uniqueIndexes"] node
  let name ← required medium.text "name" members
  let fields ← withDefault (listOf medium (field medium)) [] "fields" members
  let primaryKey ← nullable medium.isNull (fieldGroup medium) "primaryKey" members
  let uniqueFields ← withDefault (listOf medium (texts medium)) [] "uniqueFields" members
  let uniqueIndexes ← withDefault (listOf medium (fieldGroup medium)) [] "uniqueIndexes" members
  some { name, fields, primaryKey, uniqueFields, uniqueIndexes }

/-- The switches of the store. -/
def options (node : α) : Option StoreOptions := do
  let members ← medium.members ["reset_counters", "enforce_unique"] node
  let resetCounters ← withDefault medium.flag false "reset_counters" members
  let enforceUnique ← withDefault medium.flag true "enforce_unique" members
  some { resetCounters, enforceUnique }

/-- A whole definition. -/
def definition (node : α) : Option Definition := do
  let members ← medium.members ["options", "models"] node
  let options ← withDefault (options medium) {} "options" members
  let models ← withDefault (listOf medium (model medium)) [] "models" members
  some { options, models }

end

end RecordStore.Decode

namespace RecordStore.Definition

/-- The definition that a value stands for. -/
def ofValue (v : Value) : Except Error Definition :=
  match Decode.definition Decode.values v with
  | some definition => .ok definition
  | none => .error .malformedDefinition

/-- The definition that a text holds as its document; a text without a document holds the empty
    definition. -/
def ofText (text : String) : Except Error Definition :=
  match (Yaml.parse text).bind (Decode.definition Decode.documents) with
  | some definition => .ok definition
  | none => .error .malformedDocument

end RecordStore.Definition
