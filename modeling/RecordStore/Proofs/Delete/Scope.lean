import Mathlib.Data.List.Forall2
import RecordStore.Proofs.Columns
import RecordStore.Proofs.Equality
import RecordStore.Query.Filter

/-!
# Scopes of key columns

The scope of a record picks the records that refer to it, by the values in its key columns.  On
plain columns that is a comparison column by column, so it depends on nothing but these columns:
neither on the rest of the store, nor on columns nulled in the meantime, nor on which of several
equal values stands in a column.
-/

namespace RecordStore

/-! ## Records with nulled columns -/

namespace Record

/-- A record as it was, but for nulls in some of its columns. -/
def Detached (columns : String → Prop) (before after : Record) : Prop :=
  List.Forall₂ (fun old new => new.1 = old.1 ∧ (new.2 = old.2 ∨ columns old.1 ∧ new.2 = .null))
    before after

variable {columns : String → Prop} {a b c : Record}

theorem Detached.refl (record : Record) : Detached columns record record := by
  induction record with
  | nil => exact .nil
  | cons entry rest ih => exact .cons ⟨rfl, Or.inl rfl⟩ ih

theorem Detached.trans (hab : Detached columns a b) (hbc : Detached columns b c) :
    Detached columns a c := by
  induction hab generalizing c with
  | nil => exact hbc
  | cons hfirst _ ih =>
      cases hbc with
      | cons hsecond hrest =>
          refine .cons ⟨hsecond.1.trans hfirst.1, ?_⟩ (ih hrest)
          obtain ⟨hname, hvalue⟩ := hfirst
          rcases hsecond.2 with hkept | ⟨hcolumn, hnull⟩
          · rw [hkept]
            exact hvalue
          · exact Or.inr ⟨hname ▸ hcolumn, hnull⟩

/-- All other columns hold what they held. -/
theorem Detached.get?_eq (h : Detached columns a b) {name : String} (hname : ¬ columns name) :
    Entries.get? name b = Entries.get? name a := by
  induction h with
  | nil => rfl
  | @cons old new before after hentry _ ih =>
      obtain ⟨key, value⟩ := old
      obtain ⟨key', value'⟩ := new
      obtain ⟨rfl, hvalue⟩ : key' = key ∧ _ := hentry
      rw [Entries.get?_cons, Entries.get?_cons, ih]
      rcases hvalue with hkept | ⟨hcolumn, -⟩
      · rw [show value' = value from hkept]
      · have hne : key' ≠ name := fun heq => hname (heq ▸ hcolumn)
        rw [if_neg hne, if_neg hne]

/-- Writing null into a column that is there is detaching. -/
theorem detached_insert_null {name : String} (hcolumn : columns name) {record : Record}
    (hpresent : name ∈ Entries.keys record) :
    Detached columns record (Entries.insert name .null record) := by
  induction record with
  | nil => cases hpresent
  | cons entry rest ih =>
      obtain ⟨key, value⟩ := entry
      rw [Entries.insert]
      by_cases h : key = name
      · subst h
        rw [if_pos rfl]
        exact .cons ⟨rfl, Or.inr ⟨hcolumn, rfl⟩⟩ (Detached.refl rest)
      · rw [if_neg h]
        refine .cons ⟨rfl, Or.inl rfl⟩ (ih ?_)
        exact (List.mem_cons.mp hpresent).resolve_left (Ne.symm h)

/-- Writing nulls into columns that are there is detaching. -/
theorem detached_insertAll {more : Record}
    (hmore : ∀ entry ∈ more, columns entry.1 ∧ entry.2 = .null) :
    ∀ record : Record, (∀ name ∈ Entries.keys more, name ∈ Entries.keys record) →
      Detached columns record (Entries.insertAll record more) := by
  induction more with
  | nil => exact fun record _ => Detached.refl record
  | cons entry rest ih =>
      obtain ⟨name, value⟩ := entry
      intro record hpresent
      obtain ⟨hcolumn, hnull⟩ := hmore (name, value) List.mem_cons_self
      obtain rfl : value = .null := hnull
      have hname : name ∈ Entries.keys record := hpresent name List.mem_cons_self
      refine (detached_insert_null hcolumn hname).trans ?_
      refine ih (fun other hother => hmore other (List.mem_cons_of_mem _ hother)) _ ?_
      intro other hother
      exact Entries.mem_keys_insert.mpr (Or.inr (hpresent other (List.mem_cons_of_mem _ hother)))

end Record

/-! ## Equal values in scopes -/

namespace Value

/-- One value, or two that are plainly equal. -/
def Alike (a b : Value) : Prop := a = b ∨ same a b = true

variable {a b c : Value}

theorem Alike.isNull_eq (h : Alike a b) : a.isNull = b.isNull := by
  rcases h with rfl | hsame
  · rfl
  · exact isNull_of_same hsame

theorem Alike.isScalar_eq (h : Alike a b) : a.isScalar = b.isScalar := by
  rcases h with rfl | hsame
  · rfl
  · cases a <;> cases b <;> first | rfl | cases hsame

/-- Plainly equal scalars are one scalar, but for doubles that compare as equal. -/
theorem eq_or_doubles_of_same (ha : a.isScalar = true) (h : same a b = true) :
    a = b ∨ ∃ x y, a = .double x ∧ b = .double y ∧ (x == y) = true := by
  cases a with
  | double x =>
      cases b with
      | double y => exact Or.inr ⟨x, y, rfl, rfl, h⟩
      | _ => cases h
  | null => cases b <;> first | exact Or.inl rfl | cases h
  | bool p =>
      cases b with
      | bool q => exact Or.inl (congrArg Value.bool (beq_iff_eq.mp h))
      | _ => cases h
  | integer i =>
      cases b with
      | integer j => exact Or.inl (congrArg Value.integer (beq_iff_eq.mp h))
      | _ => cases h
  | string s =>
      cases b with
      | string t => exact Or.inl (congrArg Value.string (beq_iff_eq.mp h))
      | _ => cases h
  | _ => cases ha

/-- A double equals one of two equal doubles as soon as it equals the other. -/
theorem double_beq_congr {x y z : Float} (h : (x == y) = true) : (z == x) = (z == y) := by
  rw [Bool.eq_iff_iff]
  exact ⟨fun hzx => double_beq_trans hzx h, fun hzy => double_beq_trans hzy (double_beq_symm h)⟩

/-- Nothing tells alike scalars apart. -/
theorem equals_congr (reading : Reading) (stored : Value) (ha : a.isScalar = true)
    (h : Alike a b) : equals reading stored a = equals reading stored b := by
  rcases h with rfl | hsame
  · rfl
  · rcases eq_or_doubles_of_same ha hsame with rfl | ⟨x, y, rfl, rfl, hxy⟩
    · rfl
    · -- as an instant or an integer a double is nothing, so only the plain reading matters
      cases reading with
      | instant => rfl
      | integer => rfl
      | plain =>
          cases stored with
          | double z => exact double_beq_congr hxy
          | integer i =>
              have hcongr := double_beq_congr (z := Numeral.doubleOfInt i) hxy
              show equalsPlain _ _ = equalsPlain _ _
              unfold equalsPlain
              cases (Value.integer i).int64? <;> exact hcongr
          | _ => rfl

end Value

namespace Condition

/-- A scalar that is not null, as a condition, asks for equality. -/
theorem matchesScalar_of_isScalar (reading : Reading) (stored : Value) {operand : Value}
    (hscalar : operand.isScalar = true) (hnull : operand.isNull = false) :
    matchesScalar reading stored operand =
      (!stored.isNull && Value.equals reading stored operand) := by
  cases operand with
  | null => cases hnull
  | object _ => cases hscalar
  | _ => rfl

end Condition

/-- Records with the same names and alike values under them. -/
def Record.Alike (a b : Record) : Prop :=
  List.Forall₂ (fun x y => y.1 = x.1 ∧ Value.Alike x.2 y.2) a b

/-! ## Filters on plain columns -/

/-- A column whose name means itself in a filter, and that holds one plain value. -/
def Model.IsPlain (model : Model) (column : String) : Prop :=
  Connective.ofName? column = none ∧
    ∃ field, model.field? column = some field ∧ field.isRelation = false ∧ field.isList = false

namespace Filter

/-- Whether a record has the values of a scope in its columns. -/
def fits (model : Model) (scope record : Record) : Bool :=
  scope.all fun entry => Condition.matchesScalar (model.readingOf entry.1)
    (Record.valueAt entry.1 record) entry.2

/-- A filter by scalars in plain columns. -/
def Plain (model : Model) (filter : Record) : Prop :=
  ∀ entry ∈ filter, model.IsPlain entry.1 ∧ entry.2.isScalar = true ∧ entry.2.isNull = false

/-- Such a filter compares column by column. -/
theorem satisfies_eq_fits {model : Model} {filter : Record} (hplain : Plain model filter)
    (store : Store) (links : Links) (record : Record) :
    satisfies store links model record filter = fits model filter record := by
  induction filter with
  | nil => rfl
  | cons entry rest ih =>
      obtain ⟨key, value⟩ := entry
      obtain ⟨⟨hname, field, hfield, hrelation, hlist⟩, hscalar, -⟩ :=
        hplain (key, value) List.mem_cons_self
      -- the key is no connective and its field holds one plain value, so the value is compared
      have hkey : satisfiesKey store links model record key value =
          Condition.matchesScalar (model.readingOf key) (Record.valueAt key record) value := by
        have hreading : model.readingOf key = field.reading := by
          rw [Model.readingOf, hfield]
          rfl
        have hcondition : satisfiesPlain store links model record key value =
            Condition.matchesScalar field.reading (Record.valueAt key record) value := by
          unfold satisfiesPlain
          rw [hfield]
          simp only [hrelation, hlist, Bool.false_eq_true, if_false]
        rw [hreading, ← hcondition]
        cases value with
        | array _ => cases hscalar
        | object _ => cases hscalar
        | _ => rw [satisfiesKey, hname] <;> (intro _ h; cases h)
      rw [satisfies, hkey, ih fun other hother => hplain other (List.mem_cons_of_mem _ hother)]
      rfl

/-- What fits a plain scope fits every scope with alike values. -/
theorem fits_congr {model : Model} {scope other : Record} (hplain : Plain model scope)
    (h : Record.Alike scope other) (record : Record) : fits model scope record = fits model other record := by
  induction h with
  | nil => rfl
  | @cons x y scope other hentry _ ih =>
      obtain ⟨hname, halike⟩ := hentry
      obtain ⟨-, hscalar, hnull⟩ := hplain x List.mem_cons_self
      have hrest := ih fun entry hentry => hplain entry (List.mem_cons_of_mem _ hentry)
      unfold fits at hrest ⊢
      rw [List.all_cons, List.all_cons, hrest, hname,
        Condition.matchesScalar_of_isScalar _ _ hscalar hnull,
        Condition.matchesScalar_of_isScalar _ _ (halike.isScalar_eq ▸ hscalar)
          (halike.isNull_eq ▸ hnull),
        Value.equals_congr _ _ hscalar halike]

/-- Nulls in columns that a scope does not look at do not matter. -/
theorem fits_of_detached {columns : String → Prop} {model : Model} {scope before after : Record}
    (h : Record.Detached columns before after) (hapart : ∀ entry ∈ scope, ¬ columns entry.1) :
    fits model scope after = fits model scope before := by
  unfold fits Record.valueAt
  rw [Bool.eq_iff_iff, List.all_eq_true, List.all_eq_true]
  refine forall₂_congr fun entry hentry => ?_
  rw [h.get?_eq (hapart entry hentry)]

end Filter

/-! ## The scope of a record -/

namespace Linkage

/-- A scope under construction with the value of one more column. -/
def addColumn (record filter : Record) (pair : String × String) : Option Record :=
  match Entries.get? pair.1 record with
  | some value => if value.isNull then none else some (Entries.insert pair.2 value filter)
  | none => none

theorem scope_eq_foldlM (linkage : Linkage) (record : Record) :
    linkage.scope record = linkage.columns.foldlM (addColumn record) [] := rfl

/-- A column is added when it holds a value that is not null. -/
theorem addColumn_eq_some {record filter next : Record} {pair : String × String}
    (h : addColumn record filter pair = some next) :
    ∃ value, Entries.get? pair.1 record = some value ∧ value.isNull = false ∧
      next = Entries.insert pair.2 value filter := by
  unfold addColumn at h
  split at h
  · rename_i value hvalue
    split at h
    · cases h
    · rename_i hnull
      exact ⟨value, hvalue, Bool.not_eq_true _ ▸ hnull, (Option.some.inj h).symm⟩
  · cases h

/-- A column that is not there counts as one that holds null. -/
theorem addColumn_eq (record filter : Record) (pair : String × String) :
    addColumn record filter pair =
      if (Record.valueAt pair.1 record).isNull then none
      else some (Entries.insert pair.2 (Record.valueAt pair.1 record) filter) := by
  unfold addColumn Record.valueAt
  cases Entries.get? pair.1 record <;> rfl

/-- Records with the same values in the columns of a link have one scope. -/
theorem scope_congr {linkage : Linkage} {a b : Record}
    (h : ∀ pair ∈ linkage.columns, Record.valueAt pair.1 a = Record.valueAt pair.1 b) :
    linkage.scope a = linkage.scope b := by
  have hfold (pairs : List (String × String)) : pairs ⊆ linkage.columns → ∀ acc : Record,
      pairs.foldlM (addColumn a) acc = pairs.foldlM (addColumn b) acc := by
    induction pairs with
    | nil => exact fun _ _ => rfl
    | cons pair rest ih =>
        intro hpairs acc
        have hcolumn : addColumn a acc pair = addColumn b acc pair := by
          rw [addColumn_eq, addColumn_eq, h pair (hpairs List.mem_cons_self)]
        rw [List.foldlM_cons, List.foldlM_cons, hcolumn]
        exact congrArg _ (funext fun next =>
          ih (fun _ hmem => hpairs (List.mem_cons_of_mem _ hmem)) next)
  exact hfold linkage.columns (fun _ hmem => hmem) []

/-- A scope holds values of the record that are not null, under the columns that refer to them. -/
theorem mem_scope {linkage : Linkage} {record scope : Record}
    (h : linkage.scope record = some scope) :
    ∀ entry ∈ scope, ∃ column, (column, entry.1) ∈ linkage.columns ∧
      Entries.get? column record = some entry.2 ∧ entry.2.isNull = false := by
  -- by induction on the columns that are left, for any scope made from the ones before
  have hfold : ∀ (pairs : List (String × String)) (acc : Record), pairs ⊆ linkage.columns →
      (∀ entry ∈ acc, ∃ column, (column, entry.1) ∈ linkage.columns ∧
        Entries.get? column record = some entry.2 ∧ entry.2.isNull = false) →
      pairs.foldlM (addColumn record) acc = some scope →
      ∀ entry ∈ scope, ∃ column, (column, entry.1) ∈ linkage.columns ∧
        Entries.get? column record = some entry.2 ∧ entry.2.isNull = false := by
    intro pairs
    induction pairs with
    | nil =>
        intro acc _ hacc hscope
        rw [← Option.some.inj hscope]
        exact hacc
    | cons pair rest ih =>
        intro acc hpairs hacc hscope
        rw [List.foldlM_cons] at hscope
        obtain ⟨next, hnext, hrest⟩ := Option.bind_eq_some_iff.mp hscope
        obtain ⟨value, hvalue, hnull, rfl⟩ := addColumn_eq_some hnext
        refine ih _ (fun _ hmem => hpairs (List.mem_cons_of_mem _ hmem)) (fun entry hentry => ?_)
          hrest
        rcases Entries.mem_insert hentry with rfl | hold
        · exact ⟨pair.1, hpairs List.mem_cons_self, hvalue, hnull⟩
        · exact hacc entry hold
  rw [scope_eq_foldlM] at h
  exact hfold linkage.columns [] (fun _ hmem => hmem) (List.forall_mem_nil _) h

/-- A scope has every column that refers to the record. -/
theorem mem_keys_scope {linkage : Linkage} {record scope : Record}
    (h : linkage.scope record = some scope) :
    ∀ pair ∈ linkage.columns, pair.2 ∈ Entries.keys scope := by
  have hfold : ∀ (pairs : List (String × String)) (acc : Record),
      pairs.foldlM (addColumn record) acc = some scope →
      (∀ name ∈ Entries.keys acc, name ∈ Entries.keys scope) ∧
        ∀ pair ∈ pairs, pair.2 ∈ Entries.keys scope := by
    intro pairs
    induction pairs with
    | nil =>
        intro acc hscope
        rw [← Option.some.inj hscope]
        exact ⟨fun _ hname => hname, List.forall_mem_nil _⟩
    | cons pair rest ih =>
        intro acc hscope
        rw [List.foldlM_cons] at hscope
        obtain ⟨next, hnext, hrest⟩ := Option.bind_eq_some_iff.mp hscope
        obtain ⟨value, -, -, rfl⟩ := addColumn_eq_some hnext
        obtain ⟨hkept, hadded⟩ := ih _ hrest
        refine ⟨fun name hname => hkept name (Entries.mem_keys_insert.mpr (Or.inr hname)), ?_⟩
        rintro other hother
        rcases List.mem_cons.mp hother with rfl | hmem
        · exact hkept _ (Entries.mem_keys_insert.mpr (Or.inl rfl))
        · exact hadded other hmem
  rw [scope_eq_foldlM] at h
  exact (hfold linkage.columns [] h).2

/-- Writing alike values keeps records alike. -/
theorem alike_insert {name : String} {v w : Value} (hvalue : Value.Alike v w) {a b : Record}
    (h : Record.Alike a b) : Record.Alike (Entries.insert name v a) (Entries.insert name w b) := by
  induction h with
  | nil => exact .cons ⟨rfl, hvalue⟩ .nil
  | @cons x y before after hentry hrest ih =>
      obtain ⟨key, value⟩ := x
      obtain ⟨key', value'⟩ := y
      obtain ⟨rfl, halike⟩ : key' = key ∧ _ := hentry
      rw [Entries.insert, Entries.insert]
      split
      · exact .cons ⟨rfl, hvalue⟩ hrest
      · exact .cons ⟨rfl, halike⟩ ih

/-- One more column keeps scopes alike, or ends them both. -/
theorem alike_addColumn {a b filter other : Record} {pair : String × String}
    (h : Option.Rel Value.Alike (Entries.get? pair.1 a) (Entries.get? pair.1 b))
    (hfilter : Record.Alike filter other) :
    Option.Rel Record.Alike (addColumn a filter pair) (addColumn b other pair) := by
  unfold addColumn
  generalize Entries.get? pair.1 a = x at h
  generalize Entries.get? pair.1 b = y at h
  cases h with
  | none => exact .none
  | @some v w halike =>
      dsimp only
      rw [halike.isNull_eq]
      split
      · exact .none
      · exact .some (alike_insert halike hfilter)

/-- Records with alike values in the columns of a link have alike scopes, or none. -/
theorem scope_alike {linkage : Linkage} {a b : Record}
    (h : ∀ pair ∈ linkage.columns,
      Option.Rel Value.Alike (Entries.get? pair.1 a) (Entries.get? pair.1 b)) :
    Option.Rel Record.Alike (linkage.scope a) (linkage.scope b) := by
  -- the two scopes grow in step, or the same column ends both
  have hfold : ∀ (pairs : List (String × String)) (filter other : Record),
      pairs ⊆ linkage.columns → Record.Alike filter other →
      Option.Rel Record.Alike (pairs.foldlM (addColumn a) filter)
        (pairs.foldlM (addColumn b) other) := by
    intro pairs
    induction pairs with
    | nil => exact fun _ _ _ halike => .some halike
    | cons pair rest ih =>
        intro filter other hpairs halike
        rw [List.foldlM_cons, List.foldlM_cons]
        have hfirst := alike_addColumn (h pair (hpairs List.mem_cons_self)) halike
        generalize addColumn a filter pair = x at hfirst
        generalize addColumn b other pair = y at hfirst
        cases hfirst with
        | none => exact .none
        | some hnext => exact ih _ _ (fun _ hmem => hpairs (List.mem_cons_of_mem _ hmem)) hnext
  exact hfold linkage.columns [] [] (fun _ hmem => hmem) .nil

end Linkage

end RecordStore
