import Mathlib
import RecordStore.Proofs.Entries
import RecordStore.Query.Operator

/-!
# Operators in three-valued logic

An operator object tests a stored value by all of its operators.  Of a null or absent value nothing
is known, so it fails every one of them, also the negative ones, but for the question whether it is
null.  Of any other value each operator asks a question of its own: the object is the conjunction
of its operators under its mode, `not` denies what it holds, and `notIn` denies `in`.
-/

namespace RecordStore

namespace Condition

variable {reading : Reading} {insensitive : Bool} {stored operand : Value} {name : String}
  {operators : Record}

/-! ## Modes -/

/-- Whether a mode asks for case to be ignored. -/
def isInsensitive : Option Value → Bool
  | some (.string mode) => mode = "insensitive"
  | _ => false

/-- Operators under a mode, unless they have one of their own. -/
def inMode (mode : Option Value) (operators : Record) : Record :=
  match mode with
  | some mode =>
      if Entries.contains "mode" operators then operators else operators ++ [("mode", mode)]
  | none => operators

theorem ignoresCase_of_mode (inherited : Bool) {mode : Value}
    (h : Entries.get? "mode" operators = some mode) :
    ignoresCase inherited operators = isInsensitive (some mode) := by
  rw [ignoresCase, h]
  cases mode <;> rfl

theorem ignoresCase_of_no_mode (inherited : Bool) (h : Entries.get? "mode" operators = none) :
    ignoresCase inherited operators = inherited := by
  rw [ignoresCase, h]

/-- Operators under a mode treat case as they do where they inherit the mode. -/
theorem ignoresCase_inMode (mode : Option Value) (operators : Record) :
    ignoresCase false (inMode mode operators) = ignoresCase (isInsensitive mode) operators := by
  cases mode with
  | none => rfl
  | some mode =>
      rw [inMode, Entries.contains]
      cases hown : Entries.get? "mode" operators with
      | some own =>
          rw [if_pos (by rfl), ignoresCase_of_mode _ hown, ignoresCase_of_mode _ hown]
      | none =>
          have hmode : Entries.get? "mode" (operators ++ [("mode", mode)]) = some mode := by
            rw [Entries.get?_append, hown]
            rfl
          rw [if_neg (by simp), ignoresCase_of_mode _ hmode, ignoresCase_of_no_mode _ hown]

/-- Operators are still operators under a mode. -/
theorem isOperatorObject_inMode (mode : Option Value)
    (h : isOperatorObject ScalarOperator.ofName? operators = true) :
    isOperatorObject ScalarOperator.ofName? (inMode mode operators) = true := by
  unfold inMode
  split
  · split
    · exact h
    · rw [isOperatorObject, Bool.and_eq_true] at h ⊢
      refine ⟨by simp, ?_⟩
      rw [List.all_append, h.2]
      rfl
  · exact h

/-! ## One operator after the other -/

theorem passesAll_eq_all (reading : Reading) (insensitive : Bool) (stored : Value)
    (operators : Record) : passesAll reading insensitive stored operators =
      operators.all fun entry => passesNamed reading insensitive stored entry.1 entry.2 := by
  induction operators with
  | nil => rfl
  | cons entry rest ih => rw [passesAll, ih, List.all_cons]

/-- A mode is no test. -/
theorem passesNamed_mode (reading : Reading) (insensitive : Bool) (stored operand : Value) :
    passesNamed reading insensitive stored "mode" operand = true := by
  cases operand <;> rfl

/-- A mode adds no test to some operators. -/
theorem passesAll_inMode (mode : Option Value) :
    passesAll reading insensitive stored (inMode mode operators) =
      passesAll reading insensitive stored operators := by
  unfold inMode
  split
  · split
    · rfl
    · rw [passesAll_eq_all, List.all_append, ← passesAll_eq_all, List.all_cons, passesNamed_mode]
      exact Bool.and_true _
  · rfl

/-- A value that is not null satisfies operators under a mode if it passes them where they inherit
    the mode. -/
theorem matchesScalar_inMode (mode : Option Value) (hstored : stored.isNull = false)
    (h : isOperatorObject ScalarOperator.ofName? operators = true) :
    matchesScalar reading stored (.object (inMode mode operators)) =
      passesAll reading (ignoresCase (isInsensitive mode) operators) stored operators := by
  have hmode := isOperatorObject_inMode mode h
  have hmatches (fields : Record) (h : isOperatorObject ScalarOperator.ofName? fields = true) :
      matchesScalar reading stored (.object fields) =
        passesAll reading (ignoresCase false fields) stored fields := by
    cases fields with
    | nil => cases h
    | cons entry rest =>
        simp only [matchesScalar, h, if_true, satisfies, hstored, Bool.false_eq_true, if_false]
  rw [hmatches _ hmode, ignoresCase_inMode, passesAll_inMode]

/-- Alone under a mode an operator asks what it asks among others under that mode. -/
theorem matchesScalar_alone (mode : Option Value) (hstored : stored.isNull = false)
    (h : (ScalarOperator.ofName? name).isSome = true) :
    matchesScalar reading stored (.object (inMode mode [(name, operand)])) =
      passesNamed reading (isInsensitive mode) stored name operand := by
  have hoperators : isOperatorObject ScalarOperator.ofName? [(name, operand)] = true :=
    Bool.and_eq_true_iff.mpr ⟨rfl, List.all_eq_true.mpr (List.forall_mem_singleton.mpr h)⟩
  rw [matchesScalar_inMode mode hstored hoperators, passesAll, passesAll, Bool.and_true]
  by_cases hmode : name = "mode"
  · rw [hmode, passesNamed_mode, passesNamed_mode]
  · rw [ignoresCase_of_no_mode _ (by rw [Entries.get?_cons, if_neg hmode, Entries.get?_nil])]

/-- The mode of some operators is the one that they have among them. -/
theorem ignoresCase_eq_isInsensitive (operators : Record) :
    ignoresCase false operators = isInsensitive (Entries.get? "mode" operators) := by
  cases h : Entries.get? "mode" operators with
  | some mode => exact ignoresCase_of_mode false h
  | none => exact ignoresCase_of_no_mode false h

/-- Operators hold together if each of them holds alone under their mode. -/
theorem matchesScalar_iff_forall (hstored : stored.isNull = false)
    (h : isOperatorObject ScalarOperator.ofName? operators = true) :
    matchesScalar reading stored (.object operators) = true ↔
      ∀ entry ∈ operators, matchesScalar reading stored
        (.object (inMode (Entries.get? "mode" operators) [entry])) = true := by
  have hnames := List.all_eq_true.mp (Bool.and_eq_true_iff.mp h).2
  have hall : matchesScalar reading stored (.object (inMode none operators)) =
      passesAll reading (ignoresCase (isInsensitive none) operators) stored operators :=
    matchesScalar_inMode none hstored h
  rw [show inMode none operators = operators from rfl, passesAll_eq_all] at hall
  rw [hall, List.all_eq_true, show isInsensitive none = false from rfl,
    ignoresCase_eq_isInsensitive]
  refine forall₂_congr fun entry hentry => ?_
  rw [matchesScalar_alone _ hstored (hnames entry hentry)]

/-! ## Negative operators -/

/-- A literal operand is tested by the operator of the name. -/
theorem passesNamed_of_literal {operator : ScalarOperator}
    (hoperator : ScalarOperator.ofName? name = some operator)
    (hliteral : ∀ inner, operand = .object inner →
      ¬(name = "not" ∧ isOperatorObject ScalarOperator.ofName? inner = true)) :
    passesNamed reading insensitive stored name operand =
      passes reading insensitive (stored.fold insensitive) operator operand := by
  have hnamed : passesNamed.named reading insensitive stored name operand =
      passes reading insensitive (stored.fold insensitive) operator operand := by
    rw [passesNamed.named, hoperator]
  rw [← hnamed]
  cases operand with
  | object inner => exact if_neg (hliteral inner rfl)
  | _ => rfl

/-- `not` denies operators as a whole, under its mode if they have none. -/
theorem matchesScalar_not_operators (mode : Option Value) (hstored : stored.isNull = false)
    (h : isOperatorObject ScalarOperator.ofName? operators = true) :
    matchesScalar reading stored (.object (inMode mode [("not", .object operators)])) =
      !matchesScalar reading stored (.object (inMode mode operators)) := by
  rw [matchesScalar_alone mode hstored rfl, matchesScalar_inMode mode hstored h]
  exact if_pos ⟨rfl, h⟩

/-- `not` denies equality with a literal. -/
theorem matchesScalar_not_literal (mode : Option Value) (hstored : stored.isNull = false)
    (hliteral : ∀ inner, operand = .object inner →
      isOperatorObject ScalarOperator.ofName? inner = false) :
    matchesScalar reading stored (.object (inMode mode [("not", operand)])) =
      !matchesScalar reading stored (.object (inMode mode [("equals", operand)])) := by
  have hnot : ∀ inner, operand = .object inner →
      ¬("not" = "not" ∧ isOperatorObject ScalarOperator.ofName? inner = true) :=
    fun inner hinner h => by rw [hliteral inner hinner] at h; cases h.2
  have hequals : ∀ inner, operand = .object inner →
      ¬("equals" = "not" ∧ isOperatorObject ScalarOperator.ofName? inner = true) :=
    fun _ _ h => absurd h.1 (by decide)
  rw [matchesScalar_alone mode hstored rfl, matchesScalar_alone mode hstored rfl,
    passesNamed_of_literal rfl hnot, passesNamed_of_literal rfl hequals]
  simp only [passes, Bool.not_and, Bool.not_not]

/-- `notIn` denies `in`. -/
theorem matchesScalar_notIn (mode : Option Value) (hstored : stored.isNull = false)
    (items : Value) :
    matchesScalar reading stored (.object (inMode mode [("notIn", items)])) =
      !matchesScalar reading stored (.object (inMode mode [("in", items)])) := by
  rw [matchesScalar_alone mode hstored rfl, matchesScalar_alone mode hstored rfl,
    passesNamed_of_literal rfl fun _ _ h => absurd h.1 (by decide),
    passesNamed_of_literal rfl fun _ _ h => absurd h.1 (by decide)]
  rfl

/-! ## Null -/

/-- Null passes an operator only if that asks for null, or is a mode. -/
theorem passesNull_iff {operator : ScalarOperator}
    (hoperator : ScalarOperator.ofName? name = some operator) :
    passesNull operator operand = true ↔ (name ≠ "mode" → name = "equals" ∧ operand = .null) := by
  have hnull : operand.isNull = true ↔ operand = .null := by
    cases operand <;> simp [Value.isNull]
  unfold ScalarOperator.ofName? at hoperator
  split at hoperator <;> cases hoperator <;> simp [passesNull, hnull]

/-- Null satisfies operators only if each of them asks for null, or is a mode. -/
theorem matchesScalar_of_isNull (hstored : stored.isNull = true)
    (h : isOperatorObject ScalarOperator.ofName? operators = true) :
    matchesScalar reading stored (.object operators) = true ↔
      ∀ entry ∈ operators, entry.1 ≠ "mode" → entry.1 = "equals" ∧ entry.2 = .null := by
  have hnames := List.all_eq_true.mp (Bool.and_eq_true_iff.mp h).2
  have hmatches : matchesScalar reading stored (.object operators) =
      satisfies reading stored operators := by
    cases operators with
    | nil => cases h
    | cons entry rest => exact if_pos h
  rw [hmatches, satisfies, if_pos hstored, List.all_eq_true]
  refine forall₂_congr fun entry hentry => ?_
  obtain ⟨operator, hoperator⟩ := Option.isSome_iff_exists.mp (hnames entry hentry)
  simp only [hoperator, passesNull_iff hoperator]

/-- **Scalar operators follow three-valued logic.**  A null or absent value satisfies an operator
    object exactly if all operators but a mode ask for null.  Any other value satisfies it exactly
    if it satisfies each operator alone under the mode of the object; under every mode `not` denies
    the operators that it holds, or equality with a literal, and `notIn` denies `in`. -/
theorem operators_threeValued (reading : Reading) (key : String) (record : Record)
    (hoperators : isOperatorObject ScalarOperator.ofName? operators = true) :
    (Record.isNullAt key record = true →
      (matchesScalar reading (Record.valueAt key record) (.object operators) = true ↔
        ∀ entry ∈ operators, entry.1 ≠ "mode" → entry.1 = "equals" ∧ entry.2 = .null)) ∧
    (Record.isNullAt key record = false →
      (matchesScalar reading (Record.valueAt key record) (.object operators) = true ↔
        ∀ entry ∈ operators, matchesScalar reading (Record.valueAt key record)
          (.object (inMode (Entries.get? "mode" operators) [entry])) = true) ∧
      ∀ mode : Option Value,
        (∀ inner, isOperatorObject ScalarOperator.ofName? inner = true →
          matchesScalar reading (Record.valueAt key record)
              (.object (inMode mode [("not", .object inner)])) =
            !matchesScalar reading (Record.valueAt key record) (.object (inMode mode inner))) ∧
        (∀ operand : Value, (∀ inner, operand = .object inner →
            isOperatorObject ScalarOperator.ofName? inner = false) →
          matchesScalar reading (Record.valueAt key record)
              (.object (inMode mode [("not", operand)])) =
            !matchesScalar reading (Record.valueAt key record)
              (.object (inMode mode [("equals", operand)]))) ∧
        ∀ items : Value,
          matchesScalar reading (Record.valueAt key record)
              (.object (inMode mode [("notIn", items)])) =
            !matchesScalar reading (Record.valueAt key record)
              (.object (inMode mode [("in", items)]))) :=
  ⟨fun hnull => matchesScalar_of_isNull hnull hoperators,
    fun hpresent => ⟨matchesScalar_iff_forall hpresent hoperators, fun mode =>
      ⟨fun _ hinner => matchesScalar_not_operators mode hpresent hinner,
        fun _ hliteral => matchesScalar_not_literal mode hpresent hliteral,
        matchesScalar_notIn mode hpresent⟩⟩⟩

end Condition

namespace Guests

open Condition

/-- A guest with a name and no nickname. -/
def ada : Record := [("name", .string "Ada"), ("nickname", .null)]

/-- Neither of two names, whatever the case. -/
def neither : Record :=
  [("not", .object [("equals", .string "EVE")]), ("notIn", .array [.string "BOB"]),
    ("mode", .string "insensitive")]

/-- Ada has neither of the names, but it is not known of her nickname. -/
theorem neither_ada :
    isOperatorObject ScalarOperator.ofName? neither = true ∧
      Record.isNullAt "nickname" ada = true ∧ Record.isNullAt "name" ada = false ∧
      matchesScalar .plain (Record.valueAt "nickname" ada) (.object neither) = false ∧
      matchesScalar .plain (Record.valueAt "name" ada) (.object neither) = true ∧
      matchesScalar .plain (Record.valueAt "name" ada) (.object [("not", .object neither)]) =
        false := by
  have hoperators : isOperatorObject ScalarOperator.ofName? neither = true := by decide
  have hnull : Record.isNullAt "nickname" ada = true := rfl
  have hpresent : Record.isNullAt "name" ada = false := rfl
  obtain ⟨hnone, -⟩ := operators_threeValued .plain "nickname" ada hoperators
  obtain ⟨-, hname⟩ := operators_threeValued .plain "name" ada hoperators
  obtain ⟨hforall, hnegative⟩ := hname hpresent
  have hholds : matchesScalar .plain (Record.valueAt "name" ada) (.object neither) = true := by
    refine hforall.mpr ?_
    unfold neither
    simp only [List.forall_mem_cons]
    exact ⟨by cbv, by cbv, by cbv, List.forall_mem_nil _⟩
  refine ⟨hoperators, hnull, hpresent, Bool.eq_false_iff.mpr fun h => ?_, hholds, ?_⟩
  · exact absurd ((hnone hnull).mp h _ List.mem_cons_self (by decide)).1 (by decide)
  · exact ((hnegative none).1 neither hoperators).trans (congrArg not hholds)

end Guests

end RecordStore
