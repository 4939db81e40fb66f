import RecordStore.Schema.Linkage

/-!
# Updates of plain fields

What an update makes of the value of a plain field: an object with one of the update operators as
its only key changes the value, and everything else replaces it.  Arithmetic on integer fields is
exact; what exceeds 128 bits is refused.  A null stays null under arithmetic.
-/

namespace RecordStore

/-- The operators of an update. -/
inductive ScalarUpdate where
  | set
  | push
  | increment
  | decrement
  | multiply
  | divide
  deriving DecidableEq, Repr

namespace ScalarUpdate

/-- The name of an operator. -/
def name : ScalarUpdate → String
  | .set => "set"
  | .push => "push"
  | .increment => "increment"
  | .decrement => "decrement"
  | .multiply => "multiply"
  | .divide => "divide"

/-- The operator of a name. -/
def ofName? : String → Option ScalarUpdate
  | "set" => some .set
  | "push" => some .push
  | "increment" => some .increment
  | "decrement" => some .decrement
  | "multiply" => some .multiply
  | "divide" => some .divide
  | _ => none

/-- Exact arithmetic; division goes toward zero, and there is none by zero. -/
def onIntegers (operator : ScalarUpdate) (a b : Int) : Option Int :=
  match operator with
  | .increment => some (a + b)
  | .decrement => some (a - b)
  | .multiply => some (a * b)
  | _ => if b = 0 then none else some (a.tdiv b)

/-- Arithmetic of doubles. -/
def onDoubles (operator : ScalarUpdate) (a b : Float) : Float :=
  match operator with
  | .increment => a + b
  | .decrement => a - b
  | .multiply => a * b
  | _ => a / b

/-- Arithmetic on an integer field.  A text stays a text, and so does a result that no 64-bit
    signed word holds. -/
def integerResult (operator : ScalarUpdate) (current operand : Value) : Option Value := do
  let a ← current.bigInteger?
  let b ← operand.bigInteger?
  let result ← operator.onIntegers a b
  if Numeral.fitsInt128 result then
    match current with
    | .string _ => some (.string (toString result))
    | _ => some (Value.ofInteger result)
  else none

/-- Arithmetic on any other field. -/
def doubleResult (operator : ScalarUpdate) (current operand : Value) : Option Value := do
  let a ← current.double?
  let b ← operand.double?
  some (Value.ofDouble (operator.onDoubles a b))

/-- The list in a field with one more item, or with those of a list. -/
def pushed (current operand : Value) : Value :=
  let items := current.array?.getD []
  match operand with
  | .array more => .array (items ++ more)
  | single => .array (items ++ [single])

/-- What an operator makes of the value of a field. -/
def apply (operator : ScalarUpdate) (field : Field) (current operand : Value) :
    Except Error Value :=
  match operator with
  | .set => .ok operand
  | .push => .ok (pushed current operand)
  | arithmetic =>
      if current.isNull then .ok .null
      else
        let result :=
          if field.isInteger then arithmetic.integerResult current operand
          else arithmetic.doubleResult current operand
        match result with
        | some value => .ok value
        | none => .error (.invalidOperand arithmetic.name field.name)

end ScalarUpdate

namespace Field

/-- The value of a plain field after an update. -/
def updated (field : Field) (current update : Value) : Except Error Value :=
  match update with
  | .object [(name, operand)] =>
      if field.isJson then .ok update
      else
        match ScalarUpdate.ofName? name with
        | some operator => operator.apply field current operand
        | none => .ok update
  | literal => .ok literal

/-- The value that a plain field is given on creation: a list may stand under `set`. -/
def created (field : Field) (given : Value) : Value :=
  match given with
  | .object [(name, items)] => if field.isList && name = "set" then items else given
  | literal => literal

end Field

end RecordStore
