import RecordStore.Proofs.Query.StableSort
import Mathlib

/-!
# The order of values

Values that compare at all are of one kind: a reading reads all of them as instants or as integers,
or they are all integers of 64 bits, all texts or all truth values.  The values of one kind are in
one order, a total preorder in which exactly the equal ones tie.  So comparison reverses when the
two values change places, and it is transitive.
-/

namespace RecordStore

open Std StableSort

/-! ## Values of one kind -/

/-- Every value that is not null can be read. -/
def Value.AllRead {β : Type} (read : Value → Option β) (values : List Value) : Prop :=
  ∀ value ∈ values, value.isNull = false → (read value).isSome = true

/-- Values that are comparable under a reading: they all stand for instants or all for integers, or
    they are all integers of 64 bits, all texts or all truth values.  Nulls may be among them. -/
def Reading.OfOneKind (reading : Reading) (values : List Value) : Prop :=
  match reading with
  | .instant => Value.AllRead Value.timestamp? values
  | .integer => Value.AllRead Value.bigInteger? values
  | .plain => Value.AllRead Value.int64? values ∨ Value.AllRead Value.string? values ∨
      Value.AllRead Value.bool? values

/-- A way to read values, and an order of what is read, that values are compared by. -/
structure Reading.ComparesBy (reading : Reading) {β : Type} (read : Value → Option β)
    (cmp : β → β → Ordering) : Prop where
  null : read .null = none
  compare {a b : Value} {x y : β} : read a = some x → read b = some y →
    Value.compare reading a b = some (cmp x y)

/-- A way to read values by which they are told apart. -/
def Reading.EqualsBy (reading : Reading) {β : Type} (read : Value → Option β) : Prop :=
  ∀ {a b : Value} {x y : β}, read a = some x → read b = some y →
    (Value.equals reading a b = true ↔ x = y)

namespace Value

instance : TransCmp localeCompare :=
  inferInstanceAs (TransCmp (compareLex (compareOn Text.lowercase) fun a b => Ord.compare b a))

/-- Texts that tie are the same. -/
instance : LawfulEqCmp localeCompare where
  compare_self := ReflCmp.compare_self
  eq_of_compare h := (LawfulEqCmp.eq_of_compare (Ordering.then_eq_eq.mp h).2).symm

/-- Instants are in the order of time. -/
theorem comparesBy_timestamp :
    Reading.instant.ComparesBy timestamp? (Ord.compare : Int → Int → Ordering) where
  null := rfl
  compare hx hy := by simp only [Value.compare, hx, hy]

/-- Integers of any form are in the order of the integers that they stand for. -/
theorem comparesBy_bigInteger :
    Reading.integer.ComparesBy bigInteger? (Ord.compare : Int → Int → Ordering) where
  null := rfl
  compare hx hy := by simp only [Value.compare, hx, hy]

/-- So are plain integers of 64 bits. -/
theorem comparesBy_int64 :
    Reading.plain.ComparesBy int64? (Ord.compare : Int → Int → Ordering) where
  null := rfl
  compare {a b x y} hx hy := by
    cases a with
    | integer i =>
        cases b with
        | integer j => simp only [Value.compare, comparePlain, hx, hy]
        | _ => cases hy
    | _ => cases hx

/-- Plain texts are in their own order. -/
theorem comparesBy_string : Reading.plain.ComparesBy string? localeCompare where
  null := rfl
  compare {a b x y} hx hy := by
    cases a with
    | string s =>
        cases b with
        | string t => cases hx; cases hy; rfl
        | _ => cases hy
    | _ => cases hx

/-- Of two plain truth values false comes first. -/
theorem comparesBy_bool :
    Reading.plain.ComparesBy bool? (Ord.compare : Bool → Bool → Ordering) where
  null := rfl
  compare {a b x y} hx hy := by
    cases a with
    | bool s =>
        cases b with
        | bool t => cases hx; cases hy; rfl
        | _ => cases hy
    | _ => cases hx

/-- Each of these readings also tells when values are equal. -/
theorem equalsBy_timestamp : Reading.instant.EqualsBy timestamp? := fun hx hy => by
  simp only [equals, hx, hy, beq_iff_eq]

theorem equalsBy_bigInteger : Reading.integer.EqualsBy bigInteger? := fun hx hy => by
  simp only [equals, hx, hy, beq_iff_eq]

theorem equalsBy_int64 : Reading.plain.EqualsBy int64? := fun hx hy => by
  simp only [equals, equalsPlain, hx, hy, beq_iff_eq]

theorem equalsBy_string : Reading.plain.EqualsBy string? := fun {a b x y} hx hy => by
  cases a with
  | string s =>
      cases b with
      | string t => cases hx; cases hy; exact beq_iff_eq
      | _ => cases hy
  | _ => cases hx

theorem equalsBy_bool : Reading.plain.EqualsBy bool? := fun {a b x y} hx hy => by
  cases a with
  | bool s =>
      cases b with
      | bool t => cases hx; cases hy; exact beq_iff_eq
      | _ => cases hy
  | _ => cases hx

/-! ## Values that compare -/

/-- Whether the number of a value, if it is one, is an integer of 64 bits. -/
def numberFits : Value → Bool
  | .integer i => fitsInt64 i
  | .double _ => false
  | _ => true

/-- An integer that fits is read as it is. -/
theorem int64?_of_numberFits {i : Int} (h : (integer i).numberFits = true) :
    (integer i).int64? = some i := if_pos h

/-- Under the reading of instants only instants compare. -/
theorem timestamps_of_compare {a b : Value} (h : (compare .instant a b).isSome = true) :
    a.timestamp?.isSome = true ∧ b.timestamp?.isSome = true := by
  simp only [compare] at h
  split at h
  case h_1 hx hy => rw [hx, hy]; exact ⟨rfl, rfl⟩
  case h_2 => cases h

/-- Under the reading of integers only integers compare. -/
theorem bigIntegers_of_compare {a b : Value} (h : (compare .integer a b).isSome = true) :
    a.bigInteger?.isSome = true ∧ b.bigInteger?.isSome = true := by
  simp only [compare] at h
  split at h
  case h_1 hx hy => rw [hx, hy]; exact ⟨rfl, rfl⟩
  case h_2 => cases h

/-- Null compares to nothing. -/
theorem isNull_of_compare {reading : Reading} {a b : Value}
    (h : (compare reading a b).isSome = true) : a.isNull = false ∧ b.isNull = false := by
  cases reading with
  | instant =>
      obtain ⟨ha, hb⟩ := timestamps_of_compare h
      constructor
      · cases a <;> first | rfl | cases ha
      · cases b <;> first | rfl | cases hb
  | integer =>
      obtain ⟨ha, hb⟩ := bigIntegers_of_compare h
      constructor
      · cases a <;> first | rfl | cases ha
      · cases b <;> first | rfl | cases hb
  | plain =>
      cases a <;> cases b <;>
        first | exact ⟨rfl, rfl⟩ | simp [compare, comparePlain, int64?, number?] at h

end Value

namespace Reading

variable {reading : Reading} {base : Value} {values : List Value}

/-- Values of one kind are read in one way, and are ordered and told apart by what is read of
    them. -/
theorem OfOneKind.exists_read (h : reading.OfOneKind values) :
    ∃ (β : Type) (_ : Inhabited β) (read : Value → Option β) (cmp : β → β → Ordering),
      TransCmp cmp ∧ LawfulEqCmp cmp ∧ reading.ComparesBy read cmp ∧ reading.EqualsBy read ∧
        Value.AllRead read values := by
  cases reading with
  | instant =>
      exact ⟨Int, ⟨0⟩, _, _, inferInstance, inferInstance, Value.comparesBy_timestamp,
        Value.equalsBy_timestamp, h⟩
  | integer =>
      exact ⟨Int, ⟨0⟩, _, _, inferInstance, inferInstance, Value.comparesBy_bigInteger,
        Value.equalsBy_bigInteger, h⟩
  | plain =>
      rcases h with hint | htext | hbool
      · exact ⟨Int, ⟨0⟩, _, _, inferInstance, inferInstance, Value.comparesBy_int64,
          Value.equalsBy_int64, hint⟩
      · exact ⟨String, ⟨""⟩, _, _, inferInstance, inferInstance, Value.comparesBy_string,
          Value.equalsBy_string, htext⟩
      · exact ⟨Bool, ⟨false⟩, _, _, inferInstance, inferInstance, Value.comparesBy_bool,
          Value.equalsBy_bool, hbool⟩

/-- **Values of one kind are in one order**: those that are not null compare by a total preorder,
    in which exactly the equal ones tie. -/
theorem OfOneKind.exists_transCmp (h : reading.OfOneKind values) :
    ∃ cmp : Value → Value → Ordering, TransCmp cmp ∧
      ∀ a ∈ values, a.isNull = false → ∀ b ∈ values, b.isNull = false →
        Value.compare reading a b = some (cmp a b) ∧
          (Value.equals reading a b = true ↔ cmp a b = .eq) := by
  obtain ⟨β, _, read, cmp, _, _, hcompares, hequals, hread⟩ := h.exists_read
  refine ⟨fun a b => cmp ((read a).getD default) ((read b).getD default),
    transCmp_comap cmp fun v => (read v).getD default, fun a ha hna b hb hnb => ?_⟩
  obtain ⟨x, hx⟩ := Option.isSome_iff_exists.mp (hread a ha hna)
  obtain ⟨y, hy⟩ := Option.isSome_iff_exists.mp (hread b hb hnb)
  simp only [hcompares.compare hx hy, hequals hx hy, hx, hy, Option.getD_some,
    LawfulEqCmp.compare_eq_iff_eq, and_self]

/-- Values whose numbers are integers of 64 bits are of one kind if one of them compares to all
    others. -/
theorem ofOneKind_of_compare (hbase : base.numberFits = true) (hne : values ≠ [])
    (h : ∀ v ∈ values, v.numberFits = true ∧ (Value.compare reading base v).isSome = true) :
    reading.OfOneKind (base :: values) := by
  obtain ⟨first, hfirst⟩ := List.exists_mem_of_ne_nil values hne
  have hread {β : Type} {read : Value → Option β} (hself : (read base).isSome = true)
      (hothers : ∀ v ∈ values, (read v).isSome = true) : Value.AllRead read (base :: values) :=
    fun v hv _ => (List.mem_cons.mp hv).elim (fun h => h ▸ hself) (hothers v)
  cases reading with
  | instant =>
      exact hread (Value.timestamps_of_compare (h first hfirst).2).1
        fun v hv => (Value.timestamps_of_compare (h v hv).2).2
  | integer =>
      exact hread (Value.bigIntegers_of_compare (h first hfirst).2).1
        fun v hv => (Value.bigIntegers_of_compare (h v hv).2).2
  | plain =>
      -- a plainly read value compares to values of its own kind only
      cases base with
      | integer i =>
          have hi := Value.int64?_of_numberFits hbase
          refine .inl (hread (by rw [hi]; rfl) fun v hv => ?_)
          obtain ⟨hfits, hcompare⟩ := h v hv
          cases v with
          | integer j => rw [Value.int64?_of_numberFits hfits]; rfl
          | double _ => cases hfits
          | _ =>
              simp only [Value.compare, Value.comparePlain, hi] at hcompare
              cases hcompare
      | string s =>
          refine .inr (.inl (hread rfl fun v hv => ?_))
          have hv := (h v hv).2
          cases v <;> first | rfl | cases hv
      | bool p =>
          refine .inr (.inr (hread rfl fun v hv => ?_))
          have hv := (h v hv).2
          cases v <;> first | rfl | cases hv
      | double _ => cases hbase
      | _ =>
          have hfirst := (h first hfirst).2
          cases first <;> cases hfirst

end Reading

namespace Value

variable {reading : Reading} {a b c : Value} {first second order : Ordering}

/-- Compared the other way round, comparable values are in the reverse order, and they are equal
    exactly if they tie. -/
theorem compare_swap_and_equals (ha : a.numberFits = true) (hb : b.numberFits = true)
    (h : compare reading a b = some order) :
    compare reading b a = some order.swap ∧ (equals reading a b = true ↔ order = .eq) := by
  have hsome : (compare reading a b).isSome = true := by rw [h]; rfl
  obtain ⟨hna, hnb⟩ := isNull_of_compare hsome
  obtain ⟨cmp, _, hcmp⟩ := (Reading.ofOneKind_of_compare ha (List.cons_ne_nil b [])
    (List.forall_mem_singleton.mpr ⟨hb, hsome⟩)).exists_transCmp
  have hmem : b ∈ [a, b] := List.mem_cons_of_mem a List.mem_cons_self
  obtain ⟨hab, hequals⟩ := hcmp a List.mem_cons_self hna b hmem hnb
  obtain ⟨hba, -⟩ := hcmp b hmem hnb a List.mem_cons_self hna
  obtain rfl := Option.some.inj (hab.symm.trans h)
  exact ⟨hba.trans (congrArg some OrientedCmp.eq_swap), hequals⟩

/-- What does not exceed a value exceeds nothing that the value does not exceed. -/
theorem compare_trans (ha : a.numberFits = true) (hb : b.numberFits = true)
    (hc : c.numberFits = true) (hab : compare reading a b = some first)
    (hfirst : first.isLE = true) (hbc : compare reading b c = some second)
    (hsecond : second.isLE = true) :
    ∃ order, compare reading a c = some order ∧ order.isLE = true := by
  obtain ⟨hba, -⟩ := compare_swap_and_equals ha hb hab
  obtain ⟨hnb, hna⟩ := isNull_of_compare (by rw [hba]; rfl)
  obtain ⟨-, hnc⟩ := isNull_of_compare (by rw [hbc]; rfl)
  obtain ⟨cmp, _, hcmp⟩ := (Reading.ofOneKind_of_compare hb (List.cons_ne_nil a [c])
    (List.forall_mem_cons.mpr ⟨⟨ha, by rw [hba]; rfl⟩,
      List.forall_mem_singleton.mpr ⟨hc, by rw [hbc]; rfl⟩⟩)).exists_transCmp
  have hb' : b ∈ [b, a, c] := by simp
  have ha' : a ∈ [b, a, c] := by simp
  have hc' : c ∈ [b, a, c] := by simp
  obtain rfl := Option.some.inj ((hcmp a ha' hna b hb' hnb).1.symm.trans hab)
  obtain rfl := Option.some.inj ((hcmp b hb' hnb c hc' hnc).1.symm.trans hbc)
  exact ⟨cmp a c, (hcmp a ha' hna c hc' hnc).1, TransCmp.isLE_trans hfirst hsecond⟩

end Value

end RecordStore
