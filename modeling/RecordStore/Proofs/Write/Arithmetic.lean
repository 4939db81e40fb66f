import Mathlib
import RecordStore.Write.Scalar

/-!
# Exact arithmetic on integer fields

An arithmetic update of an integer field reads the stored value and the operand as integers, and
writes the exact result or nothing: what a value is written as is read back as the same integer, in
digits as well as in a number, so no result is rounded or wraps around.  The update fails when one
of the two is no integer, when it divides by zero, and when 128 bits do not hold the result.
Decrements therefore take back what increments have added.
-/

namespace RecordStore

/-! ## Reading what has been printed -/

namespace Numeral

variable {c : Char} {cs : List Char}

/-- The value of a digit is its place behind zero. -/
theorem digit?_of_isDigit (h : c.isDigit = true) : digit? c = some (c.toNat - '0'.toNat) := by
  have hrange : '0' ≤ c ∧ c ≤ '9' := by
    rw [Char.isDigit, Bool.and_eq_true, decide_eq_true_eq, decide_eq_true_eq] at h
    exact h
  rw [digit?, if_pos hrange]

theorem digitsFrom_eq_ofDigitChars (h : ∀ c ∈ cs, c.isDigit = true) (acc : Nat) :
    digitsFrom acc cs = some (Nat.ofDigitChars 10 cs acc) := by
  induction cs generalizing acc with
  | nil => rfl
  | cons c rest ih =>
      obtain ⟨hfirst, hrest⟩ := List.forall_mem_cons.mp h
      rw [digitsFrom, digit?_of_isDigit hfirst]
      exact ih hrest _

theorem isDigit_toDigits (n : Nat) : ∀ c ∈ Nat.toDigits 10 n, c.isDigit = true :=
  fun _ hc => Nat.isDigit_of_mem_toDigits (by decide) (by decide) hc

/-- The digits of a natural number stand for it. -/
theorem natural?_toDigits (n : Nat) : natural? (Nat.toDigits 10 n) = some n := by
  have hread : digitsFrom 0 (Nat.toDigits 10 n) = some n := by
    rw [digitsFrom_eq_ofDigitChars (isDigit_toDigits n), Nat.ofDigitChars_ten_toDigits]
  revert hread
  cases hdigits : Nat.toDigits 10 n with
  | nil => exact absurd hdigits Nat.toDigits_ne_nil
  | cons c rest => exact id

/-- Digits have no sign in front of them. -/
theorem signed_toDigits (n : Nat) : signed (Nat.toDigits 10 n) = (false, Nat.toDigits 10 n) := by
  have hdigits := isDigit_toDigits n
  revert hdigits
  cases Nat.toDigits 10 n with
  | nil => exact fun _ => rfl
  | cons c rest =>
      intro hdigits
      have hfirst : c.isDigit = true := hdigits c List.mem_cons_self
      unfold signed
      split
      case h_1 heq => cases heq; cases hfirst
      case h_2 heq => cases heq; cases hfirst
      case h_3 => rfl

/-- An integer is printed as the digits of its size, after a minus if it is negative. -/
theorem toList_toString (i : Int) : (toString i).toList =
    if 0 ≤ i then Nat.toDigits 10 i.natAbs else '-' :: Nat.toDigits 10 i.natAbs := by
  cases i with
  | ofNat n => exact Nat.toList_repr
  | negSucc n =>
      show ("-" ++ (n + 1).repr).toList = _
      rw [String.toList_append, Nat.toList_repr]
      rfl

/-- **Reading undoes printing**: an integer that 128 bits hold is read from what it is printed
    as. -/
theorem integer?_toString {i : Int} (h : fitsInt128 i = true) :
    integer? (toString i).toList = some i := by
  rw [toList_toString]
  split
  case isTrue hnonneg =>
    simp only [integer?, signed_toDigits, natural?_toDigits, Bool.false_eq_true, if_false,
      Int.natAbs_of_nonneg hnonneg, h, if_true]
  case isFalse hneg =>
    have habs : -(i.natAbs : Int) = i := by omega
    simp only [integer?, signed, natural?_toDigits, habs, h, if_true]

end Numeral

namespace Text

theorem isBlank_of_isDigit {c : Char} (h : c.isDigit = true) : isBlank c = false := by
  have hrange : 48 ≤ c.toNat ∧ c.toNat ≤ 57 := by
    rw [Char.isDigit, Bool.and_eq_true, decide_eq_true_eq, decide_eq_true_eq] at h
    exact h
  unfold isBlank
  grind

/-- A text without white space is trimmed to itself. -/
theorem trim_eq_self {cs : List Char} (h : ∀ c ∈ cs, isBlank c = false) : trim cs = cs := by
  have hstart {cs : List Char} (h : ∀ c ∈ cs, isBlank c = false) : trimStart cs = cs := by
    cases cs with
    | nil => rfl
    | cons c rest =>
        exact List.dropWhile_cons_of_neg (by rw [h c List.mem_cons_self]; exact Bool.false_ne_true)
  rw [trim, hstart h, hstart fun c hc => h c (List.mem_reverse.mp hc), List.reverse_reverse]

end Text

namespace Value

variable {i : Int}

/-- An integer that 128 bits hold is read from its digits. -/
theorem bigInteger?_toString (h : Numeral.fitsInt128 i = true) :
    (Value.string (toString i)).bigInteger? = some i := by
  have hblank : ∀ c ∈ (toString i).toList, Text.isBlank c = false := by
    have hdigits : ∀ c ∈ Nat.toDigits 10 i.natAbs, Text.isBlank c = false :=
      fun c hc => Text.isBlank_of_isDigit (Numeral.isDigit_toDigits _ c hc)
    rw [Numeral.toList_toString]
    split
    case isTrue => exact hdigits
    case isFalse => exact List.forall_mem_cons.mpr ⟨rfl, hdigits⟩
  rw [bigInteger?, Text.trim_eq_self hblank, Numeral.integer?_toString h]

/-- A value that an integer is read from is not null. -/
theorem isNull_of_bigInteger? {v : Value} (h : v.bigInteger? = some i) : v.isNull = false := by
  cases v with
  | null => cases h
  | _ => rfl

end Value

/-! ## One update -/

namespace ScalarUpdate

variable {operator : ScalarUpdate} {current operand : Value} {a b result : Int}

/-- The operators that calculate. -/
def isArithmetic : ScalarUpdate → Bool
  | .set => false
  | .push => false
  | _ => true

/-- What an operator makes of two integers.  A quotient is cut off toward zero, and there is none
    by zero. -/
inductive Computes : ScalarUpdate → Int → Int → Int → Prop where
  | increment (a b : Int) : Computes .increment a b (a + b)
  | decrement (a b : Int) : Computes .decrement a b (a - b)
  | multiply (a b : Int) : Computes .multiply a b (a * b)
  | divide (a b : Int) : b ≠ 0 → Computes .divide a b (a.tdiv b)

/-- The integers in a stored value and an operand have an exact result, and 128 bits hold it. -/
structure Yields (operator : ScalarUpdate) (current operand : Value) (a b result : Int) : Prop where
  current : current.bigInteger? = some a
  operand : operand.bigInteger? = some b
  computes : operator.Computes a b result
  fits : Numeral.fitsInt128 result = true

/-- How a result takes the place of a stored value: in digits if the value is a text or 64 bits do
    not hold the result, and else as a number. -/
def written (current : Value) (result : Int) : Value :=
  if current.string?.isSome || !fitsInt64 result then .string (toString result)
  else .integer result

/-- What a result is written as is read as the result. -/
theorem bigInteger?_written (current : Value) (h : Numeral.fitsInt128 result = true) :
    (written current result).bigInteger? = some result := by
  unfold written
  split
  · exact Value.bigInteger?_toString h
  · rfl

theorem onIntegers_eq_some_iff (harith : operator.isArithmetic = true) :
    operator.onIntegers a b = some result ↔ operator.Computes a b result := by
  constructor
  · intro h
    cases operator with
    | set => cases harith
    | push => cases harith
    | increment => cases h; exact .increment a b
    | decrement => cases h; exact .decrement a b
    | multiply => cases h; exact .multiply a b
    | divide =>
        simp only [onIntegers] at h
        split at h
        case isTrue => cases h
        case isFalse hb => cases h; exact .divide a b hb
  · intro h
    cases h with
    | divide _ _ hb => exact if_neg hb
    | _ => rfl

theorem ofInteger_eq_written (h : current.string? = none) (result : Int) :
    Value.ofInteger result = written current result := by
  simp only [written, h, Option.isSome_none, Bool.false_or, Value.ofInteger]
  cases fitsInt64 result <;> rfl

theorem integerResult_eq (operator : ScalarUpdate) (current operand : Value) :
    operator.integerResult current operand =
      current.bigInteger?.bind fun a => operand.bigInteger?.bind fun b =>
        (operator.onIntegers a b).bind fun result =>
          if Numeral.fitsInt128 result then some (written current result) else none := by
  cases hstring : current.string? with
  | some text =>
      cases current with
      | string _ => rfl
      | _ => cases hstring
  | none =>
      simp only [← ofInteger_eq_written hstring]
      cases current with
      | string _ => cases hstring
      | _ => rfl

/-- Arithmetic on an integer field writes the exact result, and has none when there is no such
    result. -/
theorem integerResult_eq_some_iff (harith : operator.isArithmetic = true) {new : Value} :
    operator.integerResult current operand = some new ↔
      ∃ a b result, operator.Yields current operand a b result ∧ new = written current result := by
  rw [integerResult_eq]
  simp only [Option.bind_eq_some_iff]
  constructor
  · rintro ⟨a, ha, b, hb, result, hresult, h⟩
    split at h
    case isTrue hfits =>
      exact ⟨a, b, result, ⟨ha, hb, (onIntegers_eq_some_iff harith).mp hresult, hfits⟩,
        (Option.some.inj h).symm⟩
    case isFalse => cases h
  · rintro ⟨a, b, result, ⟨ha, hb, hcomputes, hfits⟩, rfl⟩
    exact ⟨a, ha, b, hb, result, (onIntegers_eq_some_iff harith).mpr hcomputes, if_pos hfits⟩

end ScalarUpdate

namespace Field

open ScalarUpdate

variable {field : Field} {operator : ScalarUpdate} {current operand new : Value}
  {a b result : Int}

/-- An arithmetic update of a value in an integer field writes what the arithmetic comes to, and
    else blames the operand. -/
theorem updated_arithmetic (hfield : field.isInteger = true)
    (harith : operator.isArithmetic = true) (hcurrent : current.isNull = false) :
    field.updated current (.object [(operator.name, operand)]) =
      match operator.integerResult current operand with
      | some new => .ok new
      | none => .error (.invalidOperand operator.name field.name) := by
  have hjson : field.isJson = false := by
    refine decide_eq_false fun htype => ?_
    rw [isInteger, htype] at hfield
    exact absurd hfield (by decide)
  have hname : ScalarUpdate.ofName? operator.name = some operator := by cases operator <;> rfl
  have happly : operator.apply field current operand =
      if current.isNull then .ok .null
      else
        match (if field.isInteger then operator.integerResult current operand
          else operator.doubleResult current operand) with
        | some new => .ok new
        | none => .error (.invalidOperand operator.name field.name) := by
    cases operator with
    | set => cases harith
    | push => cases harith
    | _ => rfl
  simp only [updated, hjson, Bool.false_eq_true, if_false, hname]
  rw [happly, if_neg (Bool.eq_false_iff.mp hcurrent), if_pos hfield]

/-- The update succeeds exactly when there is an exact result, and writes it. -/
theorem updated_eq_ok_iff (hfield : field.isInteger = true)
    (harith : operator.isArithmetic = true) (hcurrent : current.isNull = false) :
    field.updated current (.object [(operator.name, operand)]) = .ok new ↔
      ∃ a b result, operator.Yields current operand a b result ∧ new = written current result := by
  rw [updated_arithmetic hfield harith hcurrent, ← integerResult_eq_some_iff harith]
  cases operator.integerResult current operand with
  | some found => exact ⟨fun h => congrArg some (Except.ok.inj h),
      fun h => congrArg Except.ok (Option.some.inj h)⟩
  | none => exact ⟨(nomatch ·), (nomatch ·)⟩

/-- A value that is written holds the exact result. -/
theorem bigInteger?_of_updated (hfield : field.isInteger = true)
    (harith : operator.isArithmetic = true) (hcurrent : current.bigInteger? = some a)
    (h : field.updated current (.object [(operator.name, operand)]) = .ok new) :
    ∃ b result, operator.Yields current operand a b result ∧ new.bigInteger? = some result := by
  have hnull := Value.isNull_of_bigInteger? hcurrent
  obtain ⟨_, b, result, hyields, rfl⟩ := (updated_eq_ok_iff hfield harith hnull).mp h
  obtain rfl := Option.some.inj (hcurrent.symm.trans hyields.current)
  exact ⟨b, result, hyields, bigInteger?_written current hyields.fits⟩

/-! ## Several updates -/

/-- The value of a field after one update after another with the same operator. -/
def updatedBy (field : Field) (operator : ScalarUpdate) (operands : List Value) (current : Value) :
    Except Error Value :=
  operands.foldlM (fun current operand =>
    field.updated current (.object [(operator.name, operand)])) current

theorem updatedBy_cons_eq_ok_iff {operands : List Value} :
    field.updatedBy operator (operand :: operands) current = .ok new ↔
      ∃ next, field.updated current (.object [(operator.name, operand)]) = .ok next ∧
        field.updatedBy operator operands next = .ok new := by
  rw [updatedBy, List.foldlM_cons]
  cases field.updated current (.object [(operator.name, operand)]) with
  | error e => exact ⟨(nomatch ·), fun ⟨_, h, _⟩ => nomatch h⟩
  | ok next => exact ⟨fun h => ⟨next, rfl, h⟩, fun ⟨_, heq, h⟩ => Except.ok.inj heq ▸ h⟩

theorem updatedBy_concat_of_ok {operands : List Value} {next : Value}
    (h : field.updatedBy operator operands current = .ok next) :
    field.updatedBy operator (operands ++ [operand]) current =
      field.updated next (.object [(operator.name, operand)]) := by
  unfold updatedBy at h ⊢
  rw [List.foldlM_append, h]
  exact bind_pure (field.updated next (.object [(operator.name, operand)]))

/-- The integer that an operand adds or takes away. -/
def amountOf (operand : Value) : Int := operand.bigInteger?.getD 0

/-- Updates that add or take away come to their amounts together. -/
theorem bigInteger?_of_updatedBy (hfield : field.isInteger = true)
    (harith : operator.isArithmetic = true) {sign : Int}
    (hsign : ∀ a b result, operator.Computes a b result → result = a + sign * b) :
    ∀ {operands : List Value} {current : Value} {a : Int}, current.bigInteger? = some a →
      field.updatedBy operator operands current = .ok new →
      new.bigInteger? = some (a + sign * (operands.map amountOf).sum) := by
  intro operands
  induction operands with
  | nil =>
      intro current a hcurrent h
      rw [← Except.ok.inj h, hcurrent, List.map_nil, List.sum_nil, Int.mul_zero, Int.add_zero]
  | cons operand rest ih =>
      intro current a hcurrent h
      obtain ⟨next, hfirst, hrest⟩ := updatedBy_cons_eq_ok_iff.mp h
      obtain ⟨b, result, hyields, hnext⟩ := bigInteger?_of_updated hfield harith hcurrent hfirst
      obtain rfl := hsign _ _ _ hyields.computes
      have hamount : amountOf operand = b := by rw [amountOf, hyields.operand, Option.getD_some]
      rw [ih hnext hrest, List.map_cons, List.sum_cons, hamount, Int.mul_add, Int.add_assoc]

/-- What increments have added is taken back by the same decrements, the last one first, whatever
    the sum is written as. -/
theorem exists_decremented (hfield : field.isInteger = true) :
    ∀ {operands : List Value} {current : Value} {a : Int}, current.bigInteger? = some a →
      Numeral.fitsInt128 a = true → field.updatedBy .increment operands current = .ok new →
      ∃ last, field.updatedBy .decrement operands.reverse new = .ok last ∧
        last.bigInteger? = some a := by
  intro operands
  induction operands with
  | nil =>
      intro current a hcurrent _ h
      obtain rfl := Except.ok.inj h
      exact ⟨current, rfl, hcurrent⟩
  | cons operand rest ih =>
      intro current a hcurrent hfits h
      obtain ⟨next, hfirst, hrest⟩ := updatedBy_cons_eq_ok_iff.mp h
      obtain ⟨b, result, hyields, hnext⟩ := bigInteger?_of_updated hfield rfl hcurrent hfirst
      obtain ⟨before, hbefore, hread⟩ := ih hnext hyields.fits hrest
      -- the first increment is undone last, from a value that holds what it came to
      have hundo : Yields .decrement before operand result b a := by
        refine ⟨hread, hyields.operand, ?_, hfits⟩
        have hcomputes := hyields.computes
        cases hcomputes
        have hback := Computes.decrement (a + b) b
        rwa [Int.add_sub_cancel] at hback
      refine ⟨written before a, ?_, bigInteger?_written before hfits⟩
      rw [List.reverse_cons, updatedBy_concat_of_ok hbefore]
      exact (updated_eq_ok_iff hfield rfl (Value.isNull_of_bigInteger? hread)).mpr
        ⟨_, _, _, hundo, rfl⟩

/-- **Integer updates are exact.**  Where the integers in a stored value and an operand have an
    exact result that 128 bits hold, an arithmetic update of an integer field writes it, so that it
    is read again as it is; in all other cases the update is refused.  Decrements therefore give
    back the integer that the same increments started from: one after another in reverse they never
    fail, and in whatever order they succeed. -/
theorem integer_updates_exact (hfield : field.isInteger = true)
    (hcurrent : current.isNull = false) :
    (∀ (operator : ScalarUpdate) (operand : Value), operator.isArithmetic = true →
      (∀ a b result, operator.Yields current operand a b result →
        ∃ new, field.updated current (.object [(operator.name, operand)]) = .ok new ∧
          new.bigInteger? = some result ∧
          new = if current.string?.isSome || !fitsInt64 result then .string (toString result)
            else .integer result) ∧
      ((∀ a b result, ¬operator.Yields current operand a b result) →
        ∃ e, field.updated current (.object [(operator.name, operand)]) = .error e ∧
          e = .invalidOperand operator.name field.name ∧ e.kind = .validation)) ∧
    ∀ a, current.bigInteger? = some a → Numeral.fitsInt128 a = true →
      ∀ increments new, field.updatedBy .increment increments current = .ok new →
        (∃ last, field.updatedBy .decrement increments.reverse new = .ok last ∧
          last.bigInteger? = some a) ∧
        ∀ decrements last, decrements.Perm increments →
          field.updatedBy .decrement decrements new = .ok last → last.bigInteger? = some a := by
  refine ⟨fun operator operand harith => ⟨fun a b result hyields => ?_, fun hnone => ?_⟩,
    fun a ha hfits increments new hnew => ⟨?_, fun decrements last hperm hlast => ?_⟩⟩
  · exact ⟨written current result,
      (updated_eq_ok_iff hfield harith hcurrent).mpr ⟨a, b, result, hyields, rfl⟩,
      bigInteger?_written current hyields.fits, rfl⟩
  · refine ⟨_, ?_, rfl, rfl⟩
    rw [updated_arithmetic hfield harith hcurrent]
    cases hresult : operator.integerResult current operand with
    | none => rfl
    | some new =>
        obtain ⟨a, b, result, hyields, -⟩ := (integerResult_eq_some_iff harith).mp hresult
        exact absurd hyields (hnone a b result)
  · exact exists_decremented hfield ha hfits hnew
  · have hadded : new.bigInteger? = some (a + 1 * (increments.map amountOf).sum) :=
      bigInteger?_of_updatedBy hfield rfl
        (fun _ _ _ h => by cases h; rw [Int.one_mul]) ha hnew
    have htaken : last.bigInteger? = some (a + 1 * (increments.map amountOf).sum +
        -1 * (decrements.map amountOf).sum) :=
      bigInteger?_of_updatedBy hfield rfl
        (fun _ _ _ h => by cases h; rw [Int.neg_one_mul, Int.sub_eq_add_neg]) hadded hlast
    rw [htaken, (hperm.map amountOf).sum_eq]
    congr 1
    omega

end Field

namespace Odometer

open ScalarUpdate

def metres : Field := { name := "metres", kind := .scalar, typeName := "BigInt" }

/-- The greatest integer that 64 bits hold. -/
def full : Value := .integer 9223372036854775807

/-- One metre more is written in digits, and taken away again it leaves digits behind. -/
theorem update_full :
    metres.isInteger = true ∧ full.isNull = false ∧
      Yields .increment full (.integer 1) 9223372036854775807 1 9223372036854775808 ∧
      metres.updated full (.object [("increment", .integer 1)]) =
        .ok (.string "9223372036854775808") ∧
      (∃ e, metres.updated full (.object [("divide", .string "0")]) = .error e ∧
        e = .invalidOperand "divide" "metres" ∧ e.kind = .validation) ∧
      ∃ last, metres.updatedBy .decrement [.string "2", .integer 1]
          (.string "9223372036854775810") = .ok last ∧
        last.bigInteger? = some 9223372036854775807 := by
  have hinteger : metres.isInteger = true := by decide
  have hnull : full.isNull = false := rfl
  have hyields : Yields .increment full (.integer 1) 9223372036854775807 1 9223372036854775808 :=
    ⟨rfl, rfl, .increment _ _, by decide⟩
  have hwritten : metres.updatedBy .increment [.integer 1, .string "2"] full =
      .ok (.string "9223372036854775810") := by cbv
  obtain ⟨hupdates, hundo⟩ := Field.integer_updates_exact hinteger hnull
  obtain ⟨new, hnew, -, rfl⟩ := (hupdates .increment (.integer 1) rfl).1 _ _ _ hyields
  refine ⟨hinteger, hnull, hyields, hnew, (hupdates .divide (.string "0") rfl).2 ?_, ?_⟩
  · rintro a b result ⟨-, hb, hcomputes, -⟩
    obtain rfl : (0 : Int) = b := Option.some.inj hb
    cases hcomputes with
    | divide _ _ hzero => exact hzero rfl
  · exact (hundo _ rfl (by decide) _ _ hwritten).1

end Odometer

end RecordStore
