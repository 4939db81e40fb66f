import RecordStore.Proofs.Delete.Scope
import RecordStore.Proofs.Uniqueness

/-!
# Look-ups by unique groups

A look-up asks for the values of a unique group.  Records are told apart by what is stored in the
group, compared plainly, while a filter compares as the fields are read; so a look-up may find two
records exactly when it takes different stored values for the one that it asks for.  Values that
only one quantity equals leave no room for that in fields that are read plainly.
-/

namespace RecordStore

/-- A value that no two different quantities equal: a text, a truth value, or an integer of 64
    bits. -/
def Value.isExact : Value → Bool
  | .string _ | .bool _ => true
  | .integer i => fitsInt64 i
  | _ => false

namespace Value

variable {a b target : Value}

/-- Only the same data equals what is no number. -/
theorem same_of_equals (htarget : target.number? = none) (h : equals .plain a target = true) :
    same a target = true := by
  rcases (equalsPlain_iff a target).mp h with ⟨i, -, hi⟩ | ⟨-, ⟨x, y, -, hy, -⟩ | ⟨-, hsame⟩⟩
  · cases target with
    | integer j => cases htarget
    | _ => cases hi
  · rw [htarget] at hy
    cases hy
  · exact hsame

/-- What equals a 64-bit integer is the integer itself, or no such integer and a double equal to
    its own. -/
theorem eq_or_double_of_equals {i : Int} (hi : fitsInt64 i = true)
    (h : equals .plain a (.integer i) = true) :
    a = .integer i ∨
      a.int64? = none ∧ ∃ x, a.number? = some x ∧ (x == Numeral.doubleOfInt i) = true := by
  have hword : (Value.integer i).int64? = some i := if_pos hi
  rcases (equalsPlain_iff a _).mp h with ⟨j, ha, hj⟩ | ⟨hint, ⟨x, y, hx, hy, hxy⟩ | ⟨hnum, hsame⟩⟩
  · obtain rfl : i = j := Option.some.inj (hword.symm.trans hj)
    cases a with
    | integer k =>
        rw [int64?] at ha
        split at ha
        · exact Or.inl (congrArg Value.integer (Option.some.inj ha))
        · cases ha
    | _ => cases ha
  · rw [hword] at hint
    obtain rfl := Option.some.inj hy
    exact Or.inr ⟨hint.resolve_right (nomatch ·), x, hx, hxy⟩
  · cases a with
    | integer k => rcases hnum with hnum | hnum <;> cases hnum
    | _ => cases hsame

/-- What equals an exact value equals whatever else does. -/
theorem equals_of_isExact (h : target.isExact = true) (ha : equals .plain a target = true)
    (hb : equals .plain b target = true) : equals .plain a b = true := by
  have hdata (htarget : target.number? = none) : equals .plain a b = true :=
    equalsPlain_of_same (same_trans _ _ _ (same_of_equals htarget ha)
      (same_symm _ _ (same_of_equals htarget hb))) ha
  cases target with
  | string text => exact hdata rfl
  | bool truth => exact hdata rfl
  | integer i =>
      rcases eq_or_double_of_equals h hb with rfl | ⟨hb64, y, hy, hyi⟩
      · exact ha
      · rcases eq_or_double_of_equals h ha with rfl | ⟨ha64, x, hx, hxi⟩
        · exact equalsPlain_symm hb
        · refine (equalsPlain_iff a b).mpr (Or.inr ⟨Or.inl ha64, Or.inl ⟨x, y, hx, hy, ?_⟩⟩)
          exact double_beq_trans hxi (double_beq_symm hyi)
  | _ => cases h

end Value

namespace Filter

variable {model : Model} {filter : Record} {group : List String} {a b : Record}

/-- A filter asks for the fields of a group and no others, all of them plain, by single values. -/
structure Asks (model : Model) (group : List String) (filter : Record) : Prop where
  plain : Filter.Plain model filter
  fields : ∀ name, name ∈ Entries.keys filter ↔ name ∈ group

/-- Whether a record holds what a filter asks for, as its fields are read. -/
def Reads (model : Model) (filter record : Record) : Prop :=
  ∀ entry ∈ filter,
    Value.equals (model.readingOf entry.1) (Record.valueAt entry.1 record) entry.2 = true

/-- A filter takes two records for what it asks for, though they hold different values. -/
def Confuses (model : Model) (filter a b : Record) : Prop :=
  Reads model filter a ∧ Reads model filter b ∧ ∃ entry ∈ filter,
    Value.equals .plain (Record.valueAt entry.1 a) (Record.valueAt entry.1 b) = false

/-- A record satisfies a filter on plain fields when it holds what the filter asks for. -/
theorem satisfies_iff_reads (hplain : Filter.Plain model filter) (store : Store)
    (record : Record) : store.satisfies model record filter = true ↔ Reads model filter record := by
  rw [Store.satisfies, satisfies_eq_fits hplain, fits, List.all_eq_true]
  refine forall₂_congr fun entry hentry => ?_
  obtain ⟨-, hscalar, hnull⟩ := hplain entry hentry
  rw [Condition.matchesScalar_of_isScalar _ _ hscalar hnull, Bool.and_eq_true, Bool.not_eq_true']
  exact ⟨fun h => h.2, fun h => ⟨Value.isNull_of_equals hnull h, h⟩⟩

/-- Records that do not collide are found together only if they are confused. -/
theorem confuses_of_reads (hasks : Asks model group filter) (hapart : ¬ Record.Collide group a b)
    (ha : Reads model filter a) (hb : Reads model filter b) : Confuses model filter a b := by
  by_contra hexact
  refine hapart fun name hname => ?_
  obtain ⟨entry, hentry, rfl⟩ := List.mem_map.mp ((hasks.fields name).mpr hname)
  obtain ⟨-, -, hnull⟩ := hasks.plain entry hentry
  refine ⟨Value.isNull_of_equals hnull (ha entry hentry),
    Value.isNull_of_equals hnull (hb entry hentry), ?_⟩
  by_contra hdiffers
  exact hexact ⟨ha, hb, entry, hentry, Bool.not_eq_true _ ▸ hdiffers⟩

/-- A filter that reads plainly and asks for exact values confuses nothing. -/
theorem not_confuses_of_isExact (hexact : ∀ entry ∈ filter,
    model.readingOf entry.1 = .plain ∧ entry.2.isExact = true) : ¬ Confuses model filter a b := by
  rintro ⟨ha, hb, entry, hentry, hdiffers⟩
  obtain ⟨hreading, hvalue⟩ := hexact entry hentry
  have ha := ha entry hentry
  have hb := hb entry hentry
  rw [hreading] at ha hb
  rw [Value.equals_of_isExact hvalue ha hb] at hdiffers
  cases hdiffers

end Filter

namespace Store

/-- At most one item of a list passes a test exactly when no two do. -/
theorem length_filter_le_one_iff {α : Type} (test : α → Bool) (items : List α) :
    (items.filter test).length ≤ 1 ↔
      items.Pairwise fun a b => ¬(test a = true ∧ test b = true) := by
  induction items with
  | nil => simp
  | cons item rest ih =>
      rw [List.pairwise_cons]
      by_cases h : test item = true
      · rw [List.filter_cons_of_pos h, List.length_cons]
        constructor
        · intro hle
          have hnil : rest.filter test = [] := List.length_eq_zero_iff.mp (by omega)
          refine ⟨fun other hother hboth => ?_, ih.mp (by omega)⟩
          exact List.filter_eq_nil_iff.mp hnil other hother hboth.2
        · rintro ⟨hfirst, -⟩
          rw [List.filter_eq_nil_iff.mpr fun other hother htest => hfirst other hother ⟨h, htest⟩]
          exact Nat.le_refl 1
      · rw [List.filter_cons_of_neg h, ih]
        exact ⟨fun hrest => ⟨fun _ _ hboth => h hboth.1, hrest⟩, fun hall => hall.2⟩

/-- With unique groups enforced, a look-up by the plain fields of a unique group finds one record at
    most, after any run of a client, exactly when it confuses no two of the collection; and it never
    does when all of the fields are read plainly and all values that it asks for are exact. -/
theorem lookup_le_one_iff (schema : Schema) (henforced : schema.options.enforceUnique = true)
    (clock : Int) (entropy : Entropy) (requests : List Request) {model : Model}
    (hmodel : model ∈ schema.models) {group : List String}
    (hgroup : group ∈ model.uniqueConstraints) {filter : Record}
    (hasks : Filter.Asks model group filter) :
    let store := (ofSchema schema clock entropy).run requests
    ((store.select model (some filter) (store.items model.name)).length ≤ 1 ↔
      (store.items model.name).Pairwise fun a b => ¬ Filter.Confuses model filter a b) ∧
    ((∀ entry ∈ filter, model.readingOf entry.1 = .plain ∧ entry.2.isExact = true) →
      (store.select model (some filter) (store.items model.name)).length ≤ 1) := by
  intro store
  obtain ⟨hschema, hunique⟩ := (holdsUnique_ofSchema schema clock entropy).run henforced requests
  have hpairs : (store.items model.name).Pairwise fun a b => ¬ Record.Collide group a b :=
    hunique.pairwise (hschema ▸ hmodel) hgroup
  have hiff : (store.select model (some filter) (store.items model.name)).length ≤ 1 ↔
      (store.items model.name).Pairwise fun a b => ¬ Filter.Confuses model filter a b := by
    rw [select, length_filter_le_one_iff]
    simp only [Filter.satisfies_iff_reads hasks.plain]
    constructor
    · exact List.Pairwise.imp fun hnot hconfuses => hnot ⟨hconfuses.1, hconfuses.2.1⟩
    · intro hexact
      refine (hpairs.and hexact).imp fun ⟨hapart, hnot⟩ ⟨ha, hb⟩ => ?_
      exact hnot (Filter.confuses_of_reads hasks hapart ha hb)
  refine ⟨hiff, fun hexact => hiff.mpr ?_⟩
  exact hpairs.imp fun _ => Filter.not_confuses_of_isExact hexact

end Store

namespace Ledger

open Store

/-- Accounts whose numbers may be given as digits, each with a holder of its own. -/
def account : Model where
  name := "Account"
  fields := [{ name := "id", kind := .scalar, typeName := "BigInt", isId := true },
    { name := "holder", kind := .scalar, typeName := "String", isUnique := true }]

def schema : Schema where
  options := {}
  models := [account]
  nodup_names := by decide
  targets_known := by decide

/-- An account is opened under digits, and another one under the number. -/
def openings : List Request := [
  .write .create "Account" (.object [("data", .object [("id", .string "10"),
    ("holder", .string "a")])]),
  .write .create "Account" (.object [("data", .object [("id", .integer 10),
    ("holder", .string "b")])])]

/-- The accounts of the ledger that a look-up finds. -/
def found (filter : Record) : List Record :=
  ((ofSchema schema 0 ⟨0⟩).run openings).select account (some filter)
    (((ofSchema schema 0 ⟨0⟩).run openings).items account.name)

theorem asks_number : Filter.Asks account ["id"] [("id", .integer 10)] where
  plain := List.forall_mem_singleton.mpr ⟨⟨rfl, _, rfl, rfl, rfl⟩, rfl, rfl⟩
  fields _ := Iff.rfl

theorem asks_holder : Filter.Asks account ["holder"] [("holder", .string "a")] where
  plain := List.forall_mem_singleton.mpr ⟨⟨rfl, _, rfl, rfl, rfl⟩, rfl, rfl⟩
  fields _ := Iff.rfl

/-- Both accounts are found under the one number. -/
theorem two_found :
    ¬∀ (schema : Schema) (clock : Int) (entropy : Entropy) (requests : List Request)
        (model : Model) (group : List String) (filter : Record),
      schema.options.enforceUnique = true → model ∈ schema.models →
        group ∈ model.uniqueConstraints → Filter.Asks model group filter →
          (((ofSchema schema clock entropy).run requests).select model (some filter)
            (((ofSchema schema clock entropy).run requests).items model.name)).length ≤ 1 := by
  intro h
  have hone : (found [("id", .integer 10)]).length ≤ 1 :=
    h schema 0 ⟨0⟩ openings account ["id"] _ rfl (.head _) (.head _) asks_number
  exact absurd hone (by decide)

/-- The look-up by number confuses the accounts, and the one by holder does not. -/
theorem lookups :
    schema.options.enforceUnique = true ∧
      (found [("id", .integer 10)]).length = 2 ∧
      ¬(((ofSchema schema 0 ⟨0⟩).run openings).items account.name).Pairwise
        (fun a b => ¬ Filter.Confuses account [("id", .integer 10)] a b) ∧
      (found [("holder", .string "a")]).length ≤ 1 := by
  have htwo : (found [("id", .integer 10)]).length = 2 := by decide
  refine ⟨rfl, htwo, fun hexact => ?_, ?_⟩
  · have hone : (found [("id", .integer 10)]).length ≤ 1 :=
      (lookup_le_one_iff schema rfl 0 ⟨0⟩ openings (.head _) (.head _) asks_number).1.mpr hexact
    omega
  · exact (lookup_le_one_iff schema rfl 0 ⟨0⟩ openings (.head _) (.tail _ (.head _))
      asks_holder).2 (List.forall_mem_singleton.mpr ⟨rfl, rfl⟩)

end Ledger

end RecordStore
