import Mathlib
import RecordStore.Proofs.Comparison
import RecordStore.Proofs.Lowercase
import RecordStore.Proofs.Query.Operators

/-!
# Operators that compare

Comparison and equality of values are one order, and the operators that ask about it agree.  Of
`lt`, `equals` and `gt` exactly one holds between a stored value and an operand that compare, `gte`
is `gt` or `equals`, and `lte` is `lt` or `equals`.  Case that is ignored is folded away before
values are compared, which leaves those that compare comparable, and texts of integers and dates as
they are read.
-/

namespace RecordStore

namespace Value

variable {reading : Reading} {a b v : Value}

theorem isNull_fold (insensitive : Bool) (v : Value) : (v.fold insensitive).isNull = v.isNull := by
  cases v <;> rfl

theorem numberFits_fold (insensitive : Bool) (v : Value) :
    (v.fold insensitive).numberFits = v.numberFits := by
  cases v <;> rfl

/-- Values that compare do so with case folded away. -/
theorem isSome_compare_fold (insensitive : Bool) (h : (compare reading a b).isSome = true) :
    (compare reading (a.fold insensitive) (b.fold insensitive)).isSome = true := by
  cases reading with
  | instant =>
      obtain ⟨ha, hb⟩ := timestamps_of_compare h
      obtain ⟨x, hx⟩ := Option.isSome_iff_exists.mp ha
      obtain ⟨y, hy⟩ := Option.isSome_iff_exists.mp hb
      rw [comparesBy_timestamp.compare (timestamp?_fold insensitive hx)
        (timestamp?_fold insensitive hy)]
      rfl
  | integer =>
      obtain ⟨ha, hb⟩ := bigIntegers_of_compare h
      obtain ⟨x, hx⟩ := Option.isSome_iff_exists.mp ha
      obtain ⟨y, hy⟩ := Option.isSome_iff_exists.mp hb
      rw [comparesBy_bigInteger.compare (bigInteger?_fold insensitive hx)
        (bigInteger?_fold insensitive hy)]
      rfl
  | plain =>
      cases a <;> cases b <;> first | rfl | exact h

/-- Values that compare are equal with case folded away if they are equal apart from case. -/
theorem equals_fold_of_compare (h : (compare reading a b).isSome = true) :
    equals reading (a.fold true) (b.fold true) = equalsInsensitive reading a b := by
  cases reading with
  | instant =>
      obtain ⟨ha, hb⟩ := timestamps_of_compare h
      obtain ⟨x, hx⟩ := Option.isSome_iff_exists.mp ha
      obtain ⟨y, hy⟩ := Option.isSome_iff_exists.mp hb
      simp only [equals, equalsInsensitive, hx, hy, timestamp?_fold true hx, timestamp?_fold true hy]
  | integer =>
      obtain ⟨ha, hb⟩ := bigIntegers_of_compare h
      obtain ⟨x, hx⟩ := Option.isSome_iff_exists.mp ha
      obtain ⟨y, hy⟩ := Option.isSome_iff_exists.mp hb
      simp only [equals, equalsInsensitive, hx, hy, bigInteger?_fold true hx,
        bigInteger?_fold true hy]
  | plain =>
      cases a <;> cases b <;> rfl

end Value

namespace Condition

variable {reading : Reading} {mode : Option Value} {stored operand : Value} {order : Ordering}
  {name : String}

/-- Whether a stored value satisfies an operator that stands alone, or with a mode. -/
def satisfiesAlone (reading : Reading) (mode : Option Value) (stored : Value) (name : String)
    (operand : Value) : Bool :=
  matchesScalar reading stored (.object (inMode mode [(name, operand)]))

/-- The operator that asks for an order. -/
def operatorFor : Ordering → String
  | .lt => "lt"
  | .eq => "equals"
  | .gt => "gt"

/-- Of the operators that compare, exactly one of the strict ones and of `equals` holds, and the
    others are what their names say. -/
structure Trichotomy (reading : Reading) (mode : Option Value) (stored operand : Value) : Prop where
  one : ∃! name, name ∈ ["lt", "equals", "gt"] ∧
    satisfiesAlone reading mode stored name operand = true
  gte : satisfiesAlone reading mode stored "gte" operand =
    (satisfiesAlone reading mode stored "gt" operand ||
      satisfiesAlone reading mode stored "equals" operand)
  lte : satisfiesAlone reading mode stored "lte" operand =
    (satisfiesAlone reading mode stored "lt" operand ||
      satisfiesAlone reading mode stored "equals" operand)

/-- A value that is not null satisfies an operator other than `not` if it passes it. -/
theorem satisfiesAlone_eq {operator : ScalarOperator}
    (hoperator : ScalarOperator.ofName? name = some operator) (hname : name ≠ "not")
    (hstored : stored.isNull = false) :
    satisfiesAlone reading mode stored name operand =
      passes reading (isInsensitive mode) (stored.fold (isInsensitive mode)) operator operand := by
  rw [satisfiesAlone, matchesScalar_alone mode hstored (by rw [hoperator]; rfl),
    passesNamed_of_literal hoperator fun _ _ h => hname h.1]

/-- An operator that asks for the order of what compares is answered by this order. -/
theorem satisfiesAlone_of_compare {operator : ScalarOperator} (accept : Ordering → Bool)
    (hoperator : ScalarOperator.ofName? name = some operator) (hname : name ≠ "not")
    (hpasses : ∀ value, passes reading (isInsensitive mode) value operator operand =
      (!operand.isNull && onOrder reading accept value (operand.fold (isInsensitive mode))))
    (h : Value.compare reading (stored.fold (isInsensitive mode))
      (operand.fold (isInsensitive mode)) = some order) :
    satisfiesAlone reading mode stored name operand = accept order := by
  obtain ⟨hstored, hoperand⟩ := Value.isNull_of_compare (by rw [h]; rfl)
  rw [Value.isNull_fold] at hstored hoperand
  rw [satisfiesAlone_eq hoperator hname hstored, hpasses, hoperand, onOrder, h]
  rfl

/-- What compares is equal if it ties. -/
theorem satisfiesAlone_equals (hstored : stored.numberFits = true)
    (hoperand : operand.numberFits = true)
    (h : Value.compare reading (stored.fold (isInsensitive mode))
      (operand.fold (isInsensitive mode)) = some order) :
    satisfiesAlone reading mode stored "equals" operand = (order == .eq) := by
  obtain ⟨hnull, hnull'⟩ := Value.isNull_of_compare (by rw [h]; rfl)
  rw [Value.isNull_fold] at hnull hnull'
  obtain ⟨-, hequals⟩ := Value.compare_swap_and_equals (by rw [Value.numberFits_fold, hstored])
    (by rw [Value.numberFits_fold, hoperand]) h
  rw [satisfiesAlone_eq rfl (by decide) hnull, passes, hnull', Bool.not_false, Bool.true_and,
    Bool.eq_iff_iff, hequals, beq_iff_eq]

/-- Where case is ignored, what compares satisfies `equals` if it is equal apart from case. -/
theorem satisfiesAlone_equals_insensitive
    (h : (Value.compare reading stored operand).isSome = true) :
    satisfiesAlone reading (some (.string "insensitive")) stored "equals" operand =
      Value.equalsInsensitive reading stored operand := by
  obtain ⟨hstored, hoperand⟩ := Value.isNull_of_compare h
  have hmode : isInsensitive (some (.string "insensitive")) = true := by decide
  rw [satisfiesAlone_eq rfl (by decide) hstored, hmode, passes, hoperand, Bool.not_false,
    Bool.true_and]
  exact Value.equals_fold_of_compare h

/-- What compares, with case treated as a mode says, is decided by its order. -/
theorem trichotomy_of_compare (hstored : stored.numberFits = true)
    (hoperand : operand.numberFits = true)
    (h : Value.compare reading (stored.fold (isInsensitive mode))
      (operand.fold (isInsensitive mode)) = some order) :
    Trichotomy reading mode stored operand := by
  have hlt : satisfiesAlone reading mode stored "lt" operand = (order == .lt) :=
    satisfiesAlone_of_compare (· == .lt) rfl (by decide) (fun _ => rfl) h
  have hgt : satisfiesAlone reading mode stored "gt" operand = (order == .gt) :=
    satisfiesAlone_of_compare (· == .gt) rfl (by decide) (fun _ => rfl) h
  have hlte : satisfiesAlone reading mode stored "lte" operand = (order != .gt) :=
    satisfiesAlone_of_compare (· != .gt) rfl (by decide) (fun _ => rfl) h
  have hgte : satisfiesAlone reading mode stored "gte" operand = (order != .lt) :=
    satisfiesAlone_of_compare (· != .lt) rfl (by decide) (fun _ => rfl) h
  have hequals := satisfiesAlone_equals hstored hoperand h
  constructor
  case one =>
    have hstrict : ∀ wanted : Ordering,
        satisfiesAlone reading mode stored (operatorFor wanted) operand = (order == wanted)
      | .lt => hlt
      | .eq => hequals
      | .gt => hgt
    refine ⟨operatorFor order, ⟨by cases order <;> decide, ?_⟩, ?_⟩
    · rw [hstrict, beq_self_eq_true]
    · rintro name ⟨hmem, hname⟩
      obtain ⟨wanted, rfl⟩ : ∃ wanted, name = operatorFor wanted := by
        simp only [List.mem_cons, List.not_mem_nil, or_false] at hmem
        rcases hmem with rfl | rfl | rfl
        · exact ⟨.lt, rfl⟩
        · exact ⟨.eq, rfl⟩
        · exact ⟨.gt, rfl⟩
      rw [hstrict, beq_iff_eq] at hname
      rw [hname]
  case gte =>
    rw [hgte, hgt, hequals]
    cases order <;> rfl
  case lte =>
    rw [hlte, hlt, hequals]
    cases order <;> rfl

/-- **Comparison and equality are one order.**  Compared the other way round, values are in the
    reverse order, and they are equal exactly if they tie.  Comparison is transitive.  Of values
    that compare, as they are or with case treated as a mode says, the operators under the mode say
    one thing.  Any two texts compare, and only the same ones tie. -/
theorem comparison_one_order (reading : Reading) {a b c : Value} (ha : a.numberFits = true)
    (hb : b.numberFits = true) (hc : c.numberFits = true) :
    (∀ order, Value.compare reading a b = some order →
      Value.compare reading b a = some order.swap ∧
        (Value.equals reading a b = true ↔ order = .eq)) ∧
    (∀ first second, Value.compare reading a b = some first → first.isLE = true →
      Value.compare reading b c = some second → second.isLE = true →
      ∃ order, Value.compare reading a c = some order ∧ order.isLE = true) ∧
    (∀ mode : Option Value,
      (Value.compare reading a b).isSome = true ∨
        (Value.compare reading (a.fold (isInsensitive mode))
          (b.fold (isInsensitive mode))).isSome = true →
      Trichotomy reading mode a b) ∧
    ∀ s t : String, ∃ order, Value.compare .plain (.string s) (.string t) = some order ∧
      (order = .eq ↔ s = t) := by
  refine ⟨fun _ => Value.compare_swap_and_equals ha hb,
    fun _ _ hab hfirst hbc hsecond => Value.compare_trans ha hb hc hab hfirst hbc hsecond,
    fun mode h => ?_, fun s t => ⟨_, rfl, Std.LawfulEqCmp.compare_eq_iff_eq⟩⟩
  obtain ⟨order, horder⟩ := Option.isSome_iff_exists.mp
    (h.elim (Value.isSome_compare_fold (isInsensitive mode)) id)
  exact trichotomy_of_compare ha hb horder

end Condition

namespace Clock

open Condition

/-- Noon east of Greenwich, the same instant as the zone of Greenwich has it, and a millisecond
    more. -/
def noon : Value := .string "2024-01-01T12:00:00+02:00"
def morning : Value := .string "2024-01-01T10:00:00Z"
def later : Value := .integer 1704103200001

/-- Both texts are one instant, before the number, whatever their case. -/
theorem noon_is_morning :
    (noon.numberFits = true ∧ morning.numberFits = true ∧ later.numberFits = true) ∧
      Value.compare .instant noon morning = some .eq ∧
      Value.compare .instant morning later = some .lt ∧
      Value.compare .instant morning noon = some .eq ∧
      Value.equals .instant noon morning = true ∧
      (∃ order, Value.compare .instant noon later = some order ∧ order.isLE = true) ∧
      Trichotomy .instant (some (.string "insensitive")) noon morning := by
  have hnoon : noon.numberFits = true := rfl
  have hmorning : morning.numberFits = true := rfl
  have hlater : later.numberFits = true := by decide
  have htie : Value.compare .instant noon morning = some .eq := by cbv
  have hless : Value.compare .instant morning later = some .lt := by cbv
  obtain ⟨hlaws, htrans, htrichotomy, -⟩ :=
    comparison_one_order .instant hnoon hmorning hlater
  obtain ⟨hswap, hequals⟩ := hlaws .eq htie
  exact ⟨⟨hnoon, hmorning, hlater⟩, htie, hless, hswap, hequals.mpr rfl,
    htrans .eq .lt htie rfl hless rfl, htrichotomy _ (.inl (by rw [htie]; rfl))⟩

end Clock

end RecordStore
