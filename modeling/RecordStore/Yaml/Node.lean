import RecordStore.Entries
import RecordStore.Yaml.Scalar

/-!
# Nodes of a document

A document is a tree of scalars, sequences and mappings.  The keys of a mapping are nodes
themselves, and a key may come more than once.
-/

namespace RecordStore.Yaml

/-- A node of a document. -/
inductive Node where
  | scalar (scalar : Scalar)
  | sequence (items : List Node)
  | mapping (entries : List (Node × Node))

namespace Node

/-- The node where nothing is written. -/
def empty : Node := .scalar .empty

/-- The scalar that a node is. -/
def scalar? : Node → Option Scalar
  | .scalar s => some s
  | _ => none

/-- The text of a scalar, as it is written. -/
def text? (node : Node) : Option String := node.scalar?.map (·.text)

/-- The items of a sequence; where nothing is written there are none. -/
def items? : Node → Option (List Node)
  | .sequence items => some items
  | .scalar s => if s.isEmpty then some [] else none
  | .mapping _ => none

/-- The entries of a mapping by the texts of their keys, which have to be scalars; where nothing
    is written there are none. -/
def entries? : Node → Option (Entries Node)
  | .mapping entries => entries.mapM fun (key, node) => key.text?.map (·, node)
  | .scalar s => if s.isEmpty then some [] else none
  | .sequence _ => none

/-- Whether a node is a scalar that stands for null. -/
def isNull (node : Node) : Bool := node.scalar?.any (·.isNull)

/-- The string that a node stands for, when it is a scalar that stands for one. -/
def string? (node : Node) : Option String :=
  (node.scalar?.bind Scalar.value?).bind Value.string?

mutual

/-- How deeply sequences and mappings are nested in a node; keys are not looked into. -/
def depth : Node → Nat
  | .scalar _ => 0
  | .sequence items => itemsDepth items + 1
  | .mapping entries => entriesDepth entries + 1
termination_by structural node => node

/-- The greatest depth among nodes. -/
def itemsDepth : List Node → Nat
  | [] => 0
  | node :: rest => max (depth node) (itemsDepth rest)
termination_by structural items => items

/-- The greatest depth among the nodes under the keys of a mapping. -/
def entriesDepth : List (Node × Node) → Nat
  | [] => 0
  | (_, node) :: rest => max (depth node) (entriesDepth rest)
termination_by structural entries => entries

end

mutual

/-- The value of a node.  The keys of a mapping have to stand for strings; of an entry that comes
    again the last value counts. -/
def value? : Node → Option Value
  | .scalar s => s.value?
  | .sequence items => (itemValues? items).map .array
  | .mapping entries => (entryValues? [] entries).map .object
termination_by structural node => node

/-- The values of nodes in order. -/
def itemValues? : List Node → Option (List Value)
  | [] => some []
  | node :: rest => do
      let value ← value? node
      let values ← itemValues? rest
      some (value :: values)
termination_by structural items => items

/-- A record with the values of more entries. -/
def entryValues? (record : Record) : List (Node × Node) → Option Record
  | [] => some record
  | (key, node) :: rest => do
      let name ← key.string?
      let value ← value? node
      entryValues? (Entries.insert name value record) rest
termination_by structural entries => entries

end

end Node

end RecordStore.Yaml
