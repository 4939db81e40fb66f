import Mathlib
import RecordStore.Proofs.Entries
import RecordStore.Value.Comparison

/-!
# The laws of equality

Plain equality of values is symmetric and transitive.  It is reflexive but for what is not a
number, so its laws are those of a partial equivalence; what holds of values holds of records,
field by field.  The quantitative equality of `Value.equals` is symmetric too, but not transitive:
two integers beyond the precision of doubles differ, and both may equal one double.
-/

namespace RecordStore

/-! ## Doubles -/

open Float.Model in
/-- Two unpacked doubles tie exactly when both are zero, of either sign, or when they are one
    number. -/
theorem compare_eq_some_eq_iff (a b : UnpackedFloat) :
    a.compare b = some .eq ↔
      (∃ s t, a = .zero s ∧ b = .zero t) ∨ (a = b ∧ a ≠ .notANumber) := by
  -- by kind and sign: only two numbers of one sign are told apart by their digits
  rcases a with (_ | _) | _ | s | ⟨_ | _, m, e, hm⟩ <;>
    rcases b with (_ | _) | _ | t | ⟨_ | _, n, f, hn⟩ <;>
    simp [UnpackedFloat.compare]
  all_goals first
    | rfl
    | exact and_comm

/-- Doubles are equal when their comparison is a tie. -/
theorem double_beq_iff (x y : Float) :
    (x == y) = true ↔ x.toModel.unpack.compare y.toModel.unpack = some .eq := by
  show (x.toModel.unpack.compare y.toModel.unpack == some .eq) = true ↔ _
  exact beq_iff_eq

/-- Equality of doubles is symmetric. -/
theorem double_beq_symm {x y : Float} (h : (x == y) = true) : (y == x) = true := by
  rw [double_beq_iff, compare_eq_some_eq_iff] at h ⊢
  rcases h with ⟨s, t, hx, hy⟩ | ⟨heq, hnum⟩
  · exact Or.inl ⟨t, s, hy, hx⟩
  · exact Or.inr ⟨heq.symm, heq ▸ hnum⟩

/-- Equality of doubles is transitive. -/
theorem double_beq_trans {x y z : Float} (hxy : (x == y) = true) (hyz : (y == z) = true) :
    (x == z) = true := by
  rw [double_beq_iff, compare_eq_some_eq_iff] at hxy hyz ⊢
  rcases hxy with ⟨s, t, hx, hy⟩ | ⟨heq, hnum⟩
  · rcases hyz with ⟨t', u, -, hz⟩ | ⟨heq', -⟩
    · exact Or.inl ⟨s, u, hx, hz⟩
    · exact Or.inl ⟨s, t, hx, heq' ▸ hy⟩
  · rcases hyz with ⟨t, u, hy, hz⟩ | ⟨heq', -⟩
    · exact Or.inl ⟨t, u, heq.trans hy, hz⟩
    · exact Or.inr ⟨heq.trans heq', hnum⟩

/-! ## Plain equality -/

namespace Value

/-- Induction on values: what holds of a container may be shown from what holds of each of its
    parts. -/
theorem induction {P : Value → Prop} (scalar : ∀ v, v.isScalar = true → P v)
    (array : ∀ items, (∀ v ∈ items, P v) → P (.array items))
    (object : ∀ fields, (∀ entry ∈ fields, P entry.2) → P (.object fields)) : ∀ v, P v
  | .null => scalar _ rfl
  | .bool _ => scalar _ rfl
  | .integer _ => scalar _ rfl
  | .double _ => scalar _ rfl
  | .string _ => scalar _ rfl
  | .array items => array items fun v _ => induction scalar array object v
  | .object fields => object fields fun entry hentry =>
      have : sizeOf entry.2 < sizeOf fields := by
        have hlt := List.sizeOf_lt_of_mem hentry
        obtain ⟨key, value⟩ := entry
        simp only [Prod.mk.sizeOf_spec] at hlt
        show sizeOf value < sizeOf fields
        omega
      induction scalar array object entry.2
termination_by v => sizeOf v

/-- Lists are equal item by item. -/
theorem sameItems_iff (xs ys : List Value) :
    sameItems xs ys = true ↔ List.Forall₂ (fun a b => same a b = true) xs ys := by
  induction xs generalizing ys with
  | nil =>
      cases ys with
      | nil => exact ⟨fun _ => .nil, fun _ => rfl⟩
      | cons y ys => exact ⟨(nomatch ·), (nomatch ·)⟩
  | cons x xs ih =>
      cases ys with
      | nil => exact ⟨(nomatch ·), (nomatch ·)⟩
      | cons y ys =>
          rw [sameItems, Bool.and_eq_true, List.forall₂_cons, ih ys]

/-- Records are equal name by name: under every name they hold equal values. -/
theorem sameFields_iff (xs ys : Record) :
    sameFields xs ys = true ↔
      ∀ name, List.Forall₂ (fun a b => same a b = true) (Entries.valuesAt name xs)
        (Entries.valuesAt name ys) := by
  induction xs generalizing ys with
  | nil =>
      constructor
      · intro h name
        have : ys = [] := List.isEmpty_iff.mp h
        rw [this]
        exact .nil
      · intro h
        cases ys with
        | nil => rfl
        | cons entry rest =>
            obtain ⟨key, value⟩ := entry
            have := h key
            rw [Entries.valuesAt_cons_self] at this
            cases this
  | cons entry rest ih =>
      obtain ⟨key, v⟩ := entry
      -- the head meets the first value of its name, and both lists go on without it
      cases htake : Entries.take? key ys with
      | none =>
          have hempty := (Entries.take?_eq_none_iff key ys).mp htake
          refine ⟨fun h => ?_, fun h => ?_⟩
          · rw [sameFields, htake] at h
            cases h
          · have := h key
            rw [Entries.valuesAt_cons_self, hempty] at this
            cases this
      | some found =>
          obtain ⟨w, others⟩ := found
          obtain ⟨hself, hother⟩ := Entries.valuesAt_of_take? htake
          have hstep : sameFields ((key, v) :: rest) ys
              = (same v w && sameFields rest others) := by
            rw [sameFields, htake]
          rw [hstep, Bool.and_eq_true, ih others]
          constructor
          · rintro ⟨hvw, hrest⟩ name
            by_cases hname : name = key
            · subst hname
              rw [Entries.valuesAt_cons_self, hself]
              exact .cons hvw (hrest name)
            · rw [Entries.valuesAt_cons_of_ne (Ne.symm hname), hother name hname]
              exact hrest name
          · intro h
            have hkey := h key
            rw [Entries.valuesAt_cons_self, hself, List.forall₂_cons] at hkey
            refine ⟨hkey.1, fun name => ?_⟩
            by_cases hname : name = key
            · subst hname
              exact hkey.2
            · have := h name
              rw [Entries.valuesAt_cons_of_ne (Ne.symm hname), hother name hname] at this
              exact this

/-- Items that are equal pairwise are so the other way round, if that holds item by item. -/
theorem forall₂_same_symm {xs ys : List Value}
    (hsymm : ∀ x ∈ xs, ∀ y, same x y = true → same y x = true)
    (h : List.Forall₂ (fun a b => same a b = true) xs ys) :
    List.Forall₂ (fun a b => same a b = true) ys xs := by
  induction h with
  | nil => exact .nil
  | cons hxy _ ih =>
      refine .cons (hsymm _ List.mem_cons_self _ hxy) (ih fun x hx => ?_)
      exact hsymm x (List.mem_cons_of_mem _ hx)

/-- Items that are equal pairwise to equal items are equal, if that holds item by item. -/
theorem forall₂_same_trans {xs ys zs : List Value}
    (htrans : ∀ x ∈ xs, ∀ y z, same x y = true → same y z = true → same x z = true)
    (hxy : List.Forall₂ (fun a b => same a b = true) xs ys)
    (hyz : List.Forall₂ (fun a b => same a b = true) ys zs) :
    List.Forall₂ (fun a b => same a b = true) xs zs := by
  induction hxy generalizing zs with
  | nil => exact hyz
  | cons h _ ih =>
      cases hyz with
      | cons h' hrest =>
          refine .cons (htrans _ List.mem_cons_self _ _ h h') (ih ?_ hrest)
          exact fun x hx => htrans x (List.mem_cons_of_mem _ hx)

/-- Plain equality is symmetric. -/
theorem same_symm (a : Value) : ∀ b, same a b = true → same b a = true := by
  induction a using Value.induction with
  | scalar v hv =>
      intro b h
      cases v with
      | null => cases b <;> first | rfl | cases h
      | bool p =>
          cases b with
          | bool q => exact beq_iff_eq.mpr (beq_iff_eq.mp h).symm
          | _ => cases h
      | integer i =>
          cases b with
          | integer j => exact beq_iff_eq.mpr (beq_iff_eq.mp h).symm
          | _ => cases h
      | double x =>
          cases b with
          | double y => exact double_beq_symm h
          | _ => cases h
      | string s =>
          cases b with
          | string t => exact beq_iff_eq.mpr (beq_iff_eq.mp h).symm
          | _ => cases h
      | array _ => cases hv
      | object _ => cases hv
  | array items ih =>
      intro b h
      cases b with
      | array others =>
          rw [same, sameItems_iff] at h ⊢
          exact forall₂_same_symm ih h
      | _ => cases h
  | object fields ih =>
      intro b h
      cases b with
      | object others =>
          rw [same, sameFields_iff] at h ⊢
          intro name
          refine forall₂_same_symm (fun x hx => ?_) (h name)
          exact ih (name, x) (Entries.mem_of_mem_valuesAt hx)
      | _ => cases h

/-- Plain equality is transitive. -/
theorem same_trans (a : Value) :
    ∀ b c, same a b = true → same b c = true → same a c = true := by
  induction a using Value.induction with
  | scalar v hv =>
      intro b c hab hbc
      cases v with
      | null => cases b <;> first | exact hbc | cases hab
      | bool p =>
          cases b with
          | bool q => rw [beq_iff_eq.mp (show (p == q) = true from hab)]; exact hbc
          | _ => cases hab
      | integer i =>
          cases b with
          | integer j => rw [beq_iff_eq.mp (show (i == j) = true from hab)]; exact hbc
          | _ => cases hab
      | double x =>
          cases b with
          | double y =>
              cases c with
              | double z => exact double_beq_trans hab hbc
              | _ => cases hbc
          | _ => cases hab
      | string s =>
          cases b with
          | string t => rw [beq_iff_eq.mp (show (s == t) = true from hab)]; exact hbc
          | _ => cases hab
      | array _ => cases hv
      | object _ => cases hv
  | array items ih =>
      intro b c hab hbc
      cases b with
      | array others =>
          cases c with
          | array more =>
              rw [same, sameItems_iff] at hab hbc ⊢
              exact forall₂_same_trans ih hab hbc
          | _ => cases hbc
      | _ => cases hab
  | object fields ih =>
      intro b c hab hbc
      cases b with
      | object others =>
          cases c with
          | object more =>
              rw [same, sameFields_iff] at hab hbc ⊢
              intro name
              refine forall₂_same_trans (fun x hx => ?_) (hab name) (hbc name)
              exact ih (name, x) (Entries.mem_of_mem_valuesAt hx)
          | _ => cases hbc
      | _ => cases hab

/-! ## Equality by quantity -/

/-- How two plainly read values can be equal: as 64-bit integers, else as doubles, else as
    data. -/
theorem equalsPlain_iff (a b : Value) :
    equalsPlain a b = true ↔
      (∃ i, a.int64? = some i ∧ b.int64? = some i) ∨
      ((a.int64? = none ∨ b.int64? = none) ∧
        ((∃ x y, a.number? = some x ∧ b.number? = some y ∧ (x == y) = true) ∨
          ((a.number? = none ∨ b.number? = none) ∧ same a b = true))) := by
  unfold equalsPlain
  generalize a.int64? = i
  generalize b.int64? = j
  generalize a.number? = x
  generalize b.number? = y
  cases i <;> cases j <;> cases x <;> cases y <;> grind

/-- The equality of plainly read values is symmetric. -/
theorem equalsPlain_symm {a b : Value} (h : equalsPlain a b = true) :
    equalsPlain b a = true := by
  rw [equalsPlain_iff] at h ⊢
  rcases h with ⟨i, ha, hb⟩ | ⟨hint, ⟨x, y, ha, hb, hxy⟩ | ⟨hnum, hsame⟩⟩
  · exact Or.inl ⟨i, hb, ha⟩
  · exact Or.inr ⟨hint.symm, Or.inl ⟨y, x, hb, ha, double_beq_symm hxy⟩⟩
  · exact Or.inr ⟨hint.symm, Or.inr ⟨hnum.symm, same_symm a b hsame⟩⟩

/-- A value that equals anything by quantity equals whatever is plainly equal to it. -/
theorem equalsPlain_of_same {a b c : Value} (hab : same a b = true)
    (hac : equalsPlain a c = true) : equalsPlain a b = true := by
  rw [equalsPlain_iff] at hac ⊢
  cases a with
  | integer i =>
      have hb : b = .integer i := by
        cases b with
        | integer j => rw [beq_iff_eq.mp (show (i == j) = true from hab)]
        | _ => cases hab
      subst hb
      rcases hac with ⟨j, hi, -⟩ | ⟨-, ⟨x, y, hx, -, hxy⟩ | ⟨hnum, hsame⟩⟩
      · exact Or.inl ⟨j, hi, hi⟩
      · -- an integer beyond 64 bits is compared as a double, and its double equals itself
        cases hint : (Value.integer i).int64? with
        | some j => exact Or.inl ⟨j, rfl, rfl⟩
        | none =>
            have hself : (x == x) = true := double_beq_trans hxy (double_beq_symm hxy)
            exact Or.inr ⟨Or.inl rfl, Or.inl ⟨x, x, hx, hx, hself⟩⟩
      · cases c with
        | integer j => rcases hnum with h | h <;> cases h
        | _ => cases hsame
  | double x =>
      cases b with
      | double y => exact Or.inr ⟨Or.inl rfl, Or.inl ⟨x, y, rfl, rfl, hab⟩⟩
      | _ => cases hab
  | _ => exact Or.inr ⟨Or.inl rfl, Or.inr ⟨Or.inl rfl, hab⟩⟩

/-- Plainly equal values are both null or both not. -/
theorem isNull_of_same {a b : Value} (h : same a b = true) : a.isNull = b.isNull := by
  cases a <;> cases b <;> first | rfl | cases h

/-- Under no reading does null equal a single value that is not null. -/
theorem isNull_of_equals {reading : Reading} {a target : Value} (hnull : target.isNull = false)
    (h : equals reading a target = true) : a.isNull = false := by
  cases a with
  | null =>
      cases reading with
      | plain =>
          cases target with
          | null => cases hnull
          | _ => cases h
      | _ => cases h
  | _ => rfl

end Value

/-! ## Equality of records -/

namespace Record

/-- Equality of records is symmetric. -/
theorem same_symm {a b : Record} (h : same a b = true) : same b a = true := by
  rw [same_eq] at h ⊢
  exact Value.same_symm _ _ h

/-- Equality of records is transitive. -/
theorem same_trans {a b c : Record} (hab : same a b = true) (hbc : same b c = true) :
    same a c = true := by
  rw [same_eq] at hab hbc ⊢
  exact Value.same_trans _ _ _ hab hbc

/-- Equal records have a field both or neither, and hold equal values in it. -/
theorem get?_of_same {a b : Record} (h : same a b = true) (name : String) :
    Option.Rel (fun x y => Value.same x y = true) (Entries.get? name a)
      (Entries.get? name b) := by
  have hvalues := (Value.sameFields_iff a b).mp h name
  rw [Entries.get?_eq_head?_valuesAt, Entries.get?_eq_head?_valuesAt]
  generalize Entries.valuesAt name a = xs at hvalues
  generalize Entries.valuesAt name b = ys at hvalues
  cases hvalues with
  | nil => exact .none
  | cons hxy _ => exact .some hxy

/-- Equal records show equal values everywhere. -/
theorem valueAt_of_same {a b : Record} (h : same a b = true) (name : String) :
    Value.same (valueAt name a) (valueAt name b) = true := by
  have hget := get?_of_same h name
  unfold valueAt
  generalize Entries.get? name a = x at hget
  generalize Entries.get? name b = y at hget
  cases hget with
  | none => rfl
  | some hxy => exact hxy

end Record

end RecordStore
