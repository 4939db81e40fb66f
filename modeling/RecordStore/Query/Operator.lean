import RecordStore.Schema.Basic

/-!
# Conditions on stored values

A condition on a stored value is an operator object, whose operators must all hold, or a literal,
which stands for equality.  A null or absent value satisfies no operator but `equals: null`, as in
three-valued logic.  Lists of values have operators of their own.
-/

namespace RecordStore

/-- The operators on one stored value.  A `mode` is no test of its own: it says how the others
    treat case. -/
inductive ScalarOperator where
  | equals
  | startsWith
  | endsWith
  | contains
  | gt
  | gte
  | lt
  | lte
  | oneOf
  | not
  | noneOf
  | mode
  deriving DecidableEq, Repr

/-- The operators on a stored list of values. -/
inductive ListOperator where
  | equals
  | has
  | hasSome
  | hasEvery
  | isEmpty
  deriving DecidableEq, Repr

namespace ScalarOperator

/-- The operator of a name. -/
def ofName? : String → Option ScalarOperator
  | "equals" => some .equals
  | "startsWith" => some .startsWith
  | "endsWith" => some .endsWith
  | "contains" => some .contains
  | "gt" => some .gt
  | "gte" => some .gte
  | "lt" => some .lt
  | "lte" => some .lte
  | "in" => some .oneOf
  | "not" => some .not
  | "notIn" => some .noneOf
  | "mode" => some .mode
  | _ => none

end ScalarOperator

namespace ListOperator

/-- The operator of a name. -/
def ofName? : String → Option ListOperator
  | "equals" => some .equals
  | "has" => some .has
  | "hasSome" => some .hasSome
  | "hasEvery" => some .hasEvery
  | "isEmpty" => some .isEmpty
  | _ => none

end ListOperator

/-- Whether an object has keys, and all of them name operators. -/
def isOperatorObject {α : Type} (ofName? : String → Option α) (fields : Record) : Bool :=
  !fields.isEmpty && fields.all fun (name, _) => (ofName? name).isSome

namespace Condition

/-! ## Operators on one value -/

/-- Whether the first text starts with the second. -/
def startsWith (text part : String) : Bool := part.toList.isPrefixOf text.toList

/-- Whether the first text ends with the second. -/
def endsWith (text part : String) : Bool := part.toList.isSuffixOf text.toList

/-- Whether a list of characters occurs in another. -/
def occursIn (part : List Char) : List Char → Bool
  | [] => part.isEmpty
  | c :: rest => part.isPrefixOf (c :: rest) || occursIn part rest

/-- Whether the second text occurs in the first. -/
def contains (text part : String) : Bool := occursIn part.toList text.toList

/-- The items of a list, or one value as a list, with case folded away where it is ignored. -/
def foldedItems (insensitive : Bool) : Value → List Value
  | .array items => items.map (Value.fold insensitive)
  | v => [v.fold insensitive]

/-- A test of two texts; no other values pass it. -/
def onTexts (test : String → String → Bool) (stored operand : Value) : Bool :=
  match stored, operand with
  | .string text, .string part => test text part
  | _, _ => false

/-- A test of the order of a stored value and an operand; values that are not comparable do not
    pass it. -/
def onOrder (reading : Reading) (accept : Ordering → Bool) (stored operand : Value) : Bool :=
  match Value.compare reading stored operand with
  | some order => accept order
  | none => false

/-- Whether a stored value is one of some items. -/
def isMember (reading : Reading) (insensitive : Bool) (stored operand : Value) : Bool :=
  (foldedItems insensitive operand).any fun item => Value.equals reading stored item

/-- Whether a value that is not null passes an operator with a literal operand.  The value comes
    with case folded away already; the operand does not. -/
def passes (reading : Reading) (insensitive : Bool) (stored : Value) (operator : ScalarOperator)
    (operand : Value) : Bool :=
  let folded := operand.fold insensitive
  match operator with
  | .equals => !operand.isNull && Value.equals reading stored folded
  | .startsWith => onTexts startsWith stored folded
  | .endsWith => onTexts endsWith stored folded
  | .contains => onTexts contains stored folded
  | .gt => !operand.isNull && onOrder reading (· == .gt) stored folded
  | .gte => !operand.isNull && onOrder reading (· != .lt) stored folded
  | .lt => !operand.isNull && onOrder reading (· == .lt) stored folded
  | .lte => !operand.isNull && onOrder reading (· != .gt) stored folded
  | .oneOf => isMember reading insensitive stored operand
  | .noneOf => !isMember reading insensitive stored operand
  | .not => operand.isNull || !Value.equals reading stored folded
  | .mode => true

/-- Whether a null or absent value passes an operator. -/
def passesNull (operator : ScalarOperator) (operand : Value) : Bool :=
  match operator with
  | .equals => operand.isNull
  | .mode => true
  | _ => false

/-- Whether case is ignored under an operator object inside one that may ignore it: its own mode
    decides if it has one. -/
def ignoresCase (inherited : Bool) (operators : Record) : Bool :=
  match Entries.get? "mode" operators with
  | some (.string mode) => mode = "insensitive"
  | some _ => false
  | none => inherited

mutual

/-- Whether a value that is not null passes every operator of an object. -/
def passesAll (reading : Reading) (insensitive : Bool) (stored : Value) :
    List (String × Value) → Bool
  | [] => true
  | (name, operand) :: rest =>
      passesNamed reading insensitive stored name operand
        && passesAll reading insensitive stored rest
termination_by structural operators => operators

/-- Whether a value that is not null passes one operator.  Under `not`, an operator object is
    negated as a whole. -/
def passesNamed (reading : Reading) (insensitive : Bool) (stored : Value) (name : String) :
    Value → Bool
  | .object operators =>
      if name = "not" ∧ isOperatorObject ScalarOperator.ofName? operators then
        !passesAll reading (ignoresCase insensitive operators) stored operators
      else named (.object operators)
  | operand => named operand
termination_by structural operand => operand
where
  /-- The operator of the name with a literal operand; a name of no operator holds. -/
  named (operand : Value) : Bool :=
    match ScalarOperator.ofName? name with
    | some operator =>
        passes reading insensitive (stored.fold insensitive) operator operand
    | none => true

end

/-- Whether a stored value, null or absent ones included, satisfies an operator object. -/
def satisfies (reading : Reading) (stored : Value) (operators : Record) : Bool :=
  if stored.isNull then
    operators.all fun (name, operand) =>
      match ScalarOperator.ofName? name with
      | some operator => passesNull operator operand
      | none => true
  else passesAll reading (ignoresCase false operators) stored operators

/-- Whether a stored value satisfies a condition: null asks for null, an empty object for
    nothing, an operator object for its operators, and a literal for equality. -/
def matchesScalar (reading : Reading) (stored condition : Value) : Bool :=
  match condition with
  | .null => stored.isNull
  | .object [] => true
  | .object fields =>
      if isOperatorObject ScalarOperator.ofName? fields then satisfies reading stored fields
      else !stored.isNull && Value.equals reading stored condition
  | literal => !stored.isNull && Value.equals reading stored literal

/-! ## Operators on a list of values -/

/-- Whether a stored list passes an operator. -/
def passesList (reading : Reading) (stored : Option Value) (operator : ListOperator)
    (operand : Value) : Bool :=
  let items := (stored.bind Value.array?).getD []
  let holds (wanted : Value) : Bool := items.any fun item => Value.equals reading item wanted
  match operator with
  | .equals => match stored with
      | some v => Value.same v operand
      | none => false
  | .has => !operand.isNull && holds operand
  | .hasSome => match operand with
      | .array wanted => wanted.any holds
      | _ => false
  | .hasEvery => match operand with
      | .array wanted => wanted.all holds
      | _ => false
  | .isEmpty => match operand with
      | .bool b => b == items.isEmpty
      | _ => false

/-- Whether a stored list satisfies a condition: null asks for null, an operator object for its
    operators, and a literal for equality as data. -/
def matchesList (reading : Reading) (stored : Option Value) (condition : Value) : Bool :=
  match condition with
  | .null => (stored.getD .null).isNull
  | .object fields =>
      if isOperatorObject ListOperator.ofName? fields then
        fields.all fun (name, operand) =>
          match ListOperator.ofName? name with
          | some operator => passesList reading stored operator operand
          | none => true
      else literal
  | _ => literal
where
  /-- Equality of the stored value and the condition as data. -/
  literal : Bool :=
    match stored with
    | some v => Value.same v condition
    | none => false

end Condition

end RecordStore
