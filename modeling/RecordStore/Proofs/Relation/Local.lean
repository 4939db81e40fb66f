import RecordStore.Proofs.Delete.Scope
import RecordStore.Write.Basic

/-!
# Filters that look at one record

A filter that names no relation asks about nothing but the record itself, so its verdict does not
depend on the store.  Narrowing a filter to a scope asks for both.
-/

namespace RecordStore

namespace Filter

mutual

/-- Whether a filter names no relation, at any depth of its connectives. -/
def isLocal (model : Model) : List (String × Value) → Bool
  | [] => true
  | (key, condition) :: rest => isLocalKey model key condition && isLocal model rest
termination_by structural filter => filter

/-- Whether a key with its condition names no relation. -/
def isLocalKey (model : Model) (key : String) : Value → Bool
  | .array items =>
      match Connective.ofName? key with
      | some _ => areLocal model items
      | none => (model.relation? key).isNone
  | .object fields =>
      match Connective.ofName? key with
      | some _ => isLocal model fields
      | none => if key = "is" then isLocal model fields else (model.relation? key).isNone
  | _ => (Connective.ofName? key).isSome || (model.relation? key).isNone
termination_by structural condition => condition

/-- Whether all filters in a list name no relation. -/
def areLocal (model : Model) : List Value → Bool
  | [] => true
  | .object filter :: rest => isLocal model filter && areLocal model rest
  | _ :: rest => areLocal model rest
termination_by structural items => items

end

variable {store other : Store} {links links' : Links} {model : Model} {record : Record}

/-- A condition on a key of no relation reads the record alone. -/
theorem satisfiesPlain_congr {key : String} (h : (model.relation? key).isNone = true)
    (condition : Value) :
    satisfiesPlain store links model record key condition =
      satisfiesPlain other links' model record key condition := by
  unfold satisfiesPlain
  cases hfield : model.field? key with
  | none => rfl
  | some field =>
      have hplain : field.isRelation = false := by
        simpa [Model.relation?, hfield, Option.filter_some] using h
      simp only [hplain, Bool.false_eq_true, if_false]

theorem satisfies_singleton (key : String) (condition : Value) :
    satisfies store links model record [(key, condition)] =
      satisfiesKey store links model record key condition :=
  Bool.and_true _

/-- Filters one after the other ask for both. -/
theorem satisfies_append (first second : Record) :
    satisfies store links model record (first ++ second) =
      (satisfies store links model record first && satisfies store links model record second) := by
  induction first with
  | nil => rfl
  | cons entry rest ih => rw [List.cons_append, satisfies, satisfies, ih, Bool.and_assoc]

/-- What a key asks of a record with a single value holds no other filter. -/
theorem satisfiesKey_of_isScalar {condition : Value} (hscalar : condition.isScalar = true)
    (store : Store) (links : Links) (model : Model) (record : Record) (key : String) :
    satisfiesKey store links model record key condition =
      match Connective.ofName? key with
      | some connective => connective.combine []
      | none => satisfiesPlain store links model record key condition := by
  cases condition with
  | array _ => cases hscalar
  | object _ => cases hscalar
  | _ => rfl

/-- A single value under a key holds no filters, so the key decides. -/
theorem satisfiesKey_congr_of_isScalar {key : String} {condition : Value}
    (hscalar : condition.isScalar = true) (h : isLocalKey model key condition = true) :
    satisfiesKey store links model record key condition =
      satisfiesKey other links' model record key condition := by
  have hsplit : (Connective.ofName? key).isSome = true ∨ (model.relation? key).isNone = true := by
    cases condition with
    | array _ => cases hscalar
    | object _ => cases hscalar
    | _ => exact Bool.or_eq_true _ _ ▸ h
  rw [satisfiesKey_of_isScalar hscalar, satisfiesKey_of_isScalar hscalar]
  cases hkey : Connective.ofName? key with
  | some connective => rfl
  | none =>
      rw [hkey] at hsplit
      exact satisfiesPlain_congr (hsplit.resolve_left (nomatch ·)) condition

mutual

/-- A local filter has one verdict on a record, whatever else is stored. -/
theorem satisfies_congr : ∀ filter : List (String × Value), isLocal model filter = true →
    satisfies store links model record filter = satisfies other links' model record filter
  | [], _ => rfl
  | (key, condition) :: rest, h => by
      rw [isLocal, Bool.and_eq_true] at h
      rw [satisfies, satisfies, satisfiesKey_congr condition h.1, satisfies_congr rest h.2]
termination_by structural filter => filter

theorem satisfiesKey_congr {key : String} :
    ∀ condition : Value, isLocalKey model key condition = true →
      satisfiesKey store links model record key condition =
        satisfiesKey other links' model record key condition
  | .array items, h => by
      rw [isLocalKey] at h
      rw [satisfiesKey, satisfiesKey]
      cases hkey : Connective.ofName? key with
      | some connective =>
          rw [hkey] at h
          exact congrArg connective.combine (verdicts_congr items h)
      | none =>
          rw [hkey] at h
          exact satisfiesPlain_congr h _
  | .object fields, h => by
      rw [isLocalKey] at h
      rw [satisfiesKey, satisfiesKey]
      cases hkey : Connective.ofName? key with
      | some connective =>
          rw [hkey] at h
          dsimp only
          rw [satisfies_congr fields h]
      | none =>
          rw [hkey] at h
          dsimp only at h ⊢
          by_cases his : key = "is"
          · rw [if_pos his] at h ⊢
            rw [if_pos his]
            exact satisfies_congr fields h
          · rw [if_neg his] at h ⊢
            rw [if_neg his, Option.isNone_iff_eq_none.mp h]
            exact satisfiesPlain_congr h _
  | .null, h => satisfiesKey_congr_of_isScalar rfl h
  | .bool _, h => satisfiesKey_congr_of_isScalar rfl h
  | .integer _, h => satisfiesKey_congr_of_isScalar rfl h
  | .double _, h => satisfiesKey_congr_of_isScalar rfl h
  | .string _, h => satisfiesKey_congr_of_isScalar rfl h
termination_by structural condition => condition

theorem verdicts_congr : ∀ items : List Value, areLocal model items = true →
    verdicts store links model record items = verdicts other links' model record items
  | [], _ => rfl
  | .object filter :: rest, h => by
      rw [areLocal, Bool.and_eq_true] at h
      rw [verdicts, verdicts, satisfies_congr filter h.1, verdicts_congr rest h.2]
  | .null :: rest, h => verdicts_congr rest h
  | .bool _ :: rest, h => verdicts_congr rest h
  | .integer _ :: rest, h => verdicts_congr rest h
  | .double _ :: rest, h => verdicts_congr rest h
  | .string _ :: rest, h => verdicts_congr rest h
  | .array _ :: rest, h => verdicts_congr rest h
termination_by structural items => items

end

/-- A narrowed filter asks for the filter and the scope. -/
theorem satisfies_narrow (scope filter : Record) :
    satisfies store links model record (narrow scope (some filter)) =
      (satisfies store links model record filter && satisfies store links model record scope) := by
  cases filter with
  | nil => rfl
  | cons entry rest =>
      show satisfies store links model record
        [("AND", .array [.object (entry :: rest), .object scope])] = _
      simp only [satisfies, satisfiesKey, Connective.ofName?, verdicts, Connective.combine,
        List.all_cons, List.all_nil, id_eq, Bool.and_true]

/-- What satisfies a narrowed filter satisfies the scope. -/
theorem satisfies_of_narrow {scope : Record} (filter : Option Record)
    (h : satisfies store links model record (narrow scope filter) = true) :
    satisfies store links model record scope = true := by
  cases filter with
  | none => exact h
  | some filter =>
      rw [satisfies_narrow, Bool.and_eq_true] at h
      exact h.2

end Filter

end RecordStore
