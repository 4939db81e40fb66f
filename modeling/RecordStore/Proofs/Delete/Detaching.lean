import RecordStore.Proofs.Delete.Course
import RecordStore.Proofs.Relation.Linked

/-!
# Deletes and the records that refer to what they remove

Where a relation nulls the keys of dependents, a delete leaves no record that holds the key values
of a removed record, by the equality of data.  Reading goes by the declared types of the key columns
instead: it follows a reference that is written in another way, such as a big integer in digits,
which the delete has passed over.  So a removed record has nothing linked to it any more exactly as
far as its references were written the way it writes its own key.
-/

namespace RecordStore

namespace Linkage

/-- A record whose dependents hold its key values as data whenever they are read as linked. -/
def ReadsAsHeld (linkage : Linkage) (store : Store) (dependents : Model) (record : Record) : Prop :=
  ∀ scope, linkage.scope record = some scope → ∀ item ∈ store.items dependents.name,
    store.satisfies dependents item scope = true → Record.holdsAll item scope = true

end Linkage

namespace Store

variable {origin store : Store} {seed : String → Nat → Prop} {left : Leavers}
variable {model dependents : Model} {field : Field} {linkage : Linkage} {record : Record}

/-- Single values in plain columns without a type of their own are read as the data that they
    are. -/
theorem readsAsHeld_of_plain (hplain : ∀ pair ∈ linkage.columns, dependents.IsPlain pair.2)
    (hreading : ∀ pair ∈ linkage.columns, dependents.readingOf pair.2 = .plain)
    (hscalar : ∀ pair ∈ linkage.columns, (Record.valueAt pair.1 record).isScalar = true)
    (store : Store) : linkage.ReadsAsHeld store dependents record := by
  intro scope hscope item _ hsatisfies
  have hfilter := Linkage.plain_scope hplain hscalar hscope
  rw [satisfies, Filter.satisfies_eq_fits hfilter] at hsatisfies
  refine List.all_eq_true.mpr fun entry hentry => ?_
  obtain ⟨column, hpair, -, -⟩ := Linkage.mem_scope hscope entry hentry
  obtain ⟨value, hvalue, -, hequals⟩ :=
    Record.exists_value_of_fits hfilter hsatisfies hentry
  dsimp only
  rw [hvalue]
  exact hreading _ hpair ▸ hequals

section

variable (h : Completed origin seed left store) (hmodel : model ∈ origin.schema.models) {i : Nat}
variable (hleft : left model.name i record)
variable (hdetaches : origin.schema.Detaches model field linkage dependents)
variable (hplain : ∀ pair ∈ linkage.columns, dependents.IsPlain pair.2)
variable (hscalar : ∀ pair ∈ linkage.columns, (Record.valueAt pair.1 record).isScalar = true)
include h hplain hscalar

/-- Records that are read as linked to a record after a delete were read so before, and hold its
    key values as far as they did. -/
theorem Completed.readsAsHeld (hreads : linkage.ReadsAsHeld origin dependents record) :
    linkage.ReadsAsHeld store dependents record := by
  intro scope hscope item hitem hsatisfies
  have hfilter := Linkage.plain_scope hplain hscalar hscope
  obtain ⟨j, old, hold, -, hcleared⟩ := (h.thinned.remains dependents.name).origin hitem
  have hheld := hreads scope hscope old (List.mem_of_getElem? hold)
  rw [satisfies, Filter.satisfies_eq_fits hfilter] at hsatisfies hheld
  exact hcleared.holdsAll_of_fits hfilter hsatisfies (hheld (hcleared.fits hfilter hsatisfies))

include hmodel hleft hdetaches

/-- A record that has left has nothing linked to it exactly if all that would be linked held its
    key values, since what held them has lost them. -/
theorem Completed.related_eq_nil_iff :
    store.related model field record = [] ↔ linkage.ReadsAsHeld store dependents record := by
  have hforgotten := h.forgotten model hmodel i record hleft
  rw [← h.thinned.schema_eq] at hdetaches
  obtain ⟨depth, hdepth⟩ := store.exists_linkDepth_eq
  rw [Store.related, hdepth, linkedWithin, Schema.model?_of_relatedModel hdetaches.related,
    hdetaches.linked]
  dsimp only
  cases hscope : linkage.scope record with
  | none =>
      exact iff_of_true rfl fun scope hsome => by cases hscope.symm.trans hsome
  | some scope =>
      have hfilter := Linkage.plain_scope hplain hscalar hscope
      have hnone := hforgotten.detached field linkage dependents scope hdetaches hscope
      simp only [List.filter_eq_nil_iff, Linkage.ReadsAsHeld, hscope, Option.some.injEq,
        forall_eq', satisfies, Filter.satisfies_eq_fits hfilter]
      refine forall₂_congr fun item hitem => ?_
      rw [hnone item hitem]
      exact imp_false.symm.trans (by simp)

end

/-- What a delete leaves linked to the records that have left, through relations that null the
    keys of dependents: nothing, exactly if whatever is read as linked holds the key values of the
    record, in particular if all dependents did so before the delete, and always if the key columns
    have no type that is read in a way of its own. -/
def Forgets (origin : Store) (left : Leavers) (store : Store) : Prop :=
  ∀ model ∈ origin.schema.models, ∀ i record, left model.name i record →
    ∀ field linkage dependents, origin.schema.Detaches model field linkage dependents →
      (∀ pair ∈ linkage.columns, dependents.IsPlain pair.2) →
      (∀ pair ∈ linkage.columns, (Record.valueAt pair.1 record).isScalar = true) →
        (store.related model field record = [] ↔ linkage.ReadsAsHeld store dependents record) ∧
        (linkage.ReadsAsHeld origin dependents record → store.related model field record = []) ∧
        ((∀ pair ∈ linkage.columns, dependents.readingOf pair.2 = .plain) →
          store.related model field record = [])

theorem Completed.forgets (h : Completed origin seed left store) : Forgets origin left store := by
  intro model hmodel i record hleft field linkage dependents hdetaches hplain hscalar
  have hiff := h.related_eq_nil_iff hmodel hleft hdetaches hplain hscalar
  exact ⟨hiff, fun hreads => hiff.mpr (h.readsAsHeld hplain hscalar hreads),
    fun hreading => hiff.mpr (readsAsHeld_of_plain hplain hreading hscalar store)⟩

end Store

namespace Write

open Store

/-- After a delete nothing is linked any more, through relations that null keys, to a record that
    was removed, directly or by any cascade, provided that its dependents held its key values. -/
theorem delete_forgets {store : Store} {model : Model} (hmodel : model ∈ store.schema.models) :
    (∀ filter, ∃ next left, (deleteMatching model filter).outcome store =
        (.ok (store.select model filter (store.items model.name)), next) ∧
      store.Completed (store.Matching model filter) left next ∧ store.Forgets left next) ∧
    (∀ target, ∃ next left, (deleteRecord model target).outcome store = (.ok (), next) ∧
      store.Completed (store.FirstEqual model target) left next ∧ store.Forgets left next) := by
  constructor
  · intro filter
    obtain ⟨next, left, hrun, hcompleted⟩ := completed_deleteMatching hmodel filter
    exact ⟨next, left, hrun, hcompleted, hcompleted.forgets⟩
  · intro target
    obtain ⟨next, left, hrun, hcompleted⟩ := completed_deleteRecord hmodel target
    exact ⟨next, left, hrun, hcompleted, hcompleted.forgets⟩

end Write

namespace Lending

open Store Write

/-- Members with big integers for ids. -/
def member : Model where
  name := "Member"
  fields := [
    { name := "id", kind := .scalar, typeName := "BigInt", isId := true },
    { name := "loans", kind := .relation, typeName := "Loan", isList := true,
      relationName := some "borrower" }]

/-- Loans that outlive their members. -/
def loan : Model where
  name := "Loan"
  fields := [
    { name := "id", kind := .scalar, typeName := "Int", isId := true },
    { name := "memberId", kind := .scalar, typeName := "BigInt" },
    { name := "member", kind := .relation, typeName := "Member", relationName := some "borrower",
      fromFields := ["memberId"], toFields := ["id"], onDelete := some .setNull }]

def schema : Schema where
  options := {}
  models := [member, loan]
  nodup_names := by decide
  targets_known := by decide

/-- A member with one loan, whose reference to the member is given. -/
def desk (reference : Value) : Store :=
  { ofSchema schema 0 ⟨0⟩ with
    collections := [
      ("Member", [[("id", .integer 10)]]),
      ("Loan", [[("id", .integer 1), ("memberId", reference)]])] }

/-- The relation field from members to their loans. -/
def loans : Field :=
  { name := "loans", kind := .relation, typeName := "Loan", isList := true,
    relationName := some "borrower" }

/-- Members are linked to their loans by id. -/
def byId : Linkage := ⟨["id"], ["memberId"], false⟩

theorem detaches_loans : schema.Detaches member loans byId loan :=
  ⟨List.mem_singleton_self loans, by decide, rfl, by decide, by decide, rfl⟩

theorem plain_byId : ∀ pair ∈ byId.columns, loan.IsPlain pair.2 := by
  intro pair hpair
  rw [List.mem_singleton.mp hpair]
  exact ⟨by decide, _, rfl, rfl, rfl⟩

/-- A reference by number is nulled with its member. -/
theorem delete_borrower :
    member ∈ (desk (.integer 10)).schema.models ∧
      byId.ReadsAsHeld (desk (.integer 10)) loan [("id", .integer 10)] ∧
      ∃ next, ∃ left : Leavers, (deleteMatching member none).outcome (desk (.integer 10)) =
          (.ok [[("id", .integer 10)]], next) ∧
        left "Member" 0 [("id", .integer 10)] ∧
        next.related member loans [("id", .integer 10)] = [] := by
  have hreads : byId.ReadsAsHeld (desk (.integer 10)) loan [("id", .integer 10)] := by
    intro scope hscope item hitem _
    obtain rfl := Option.some.inj hscope
    rw [List.mem_singleton.mp hitem]
    decide
  have hmodel : member ∈ (desk (.integer 10)).schema.models := List.mem_cons_self
  obtain ⟨next, left, hrun, hcompleted, hforgets⟩ := (delete_forgets hmodel).1 none
  have hleft : left "Member" 0 [("id", .integer 10)] :=
    hcompleted.seeded "Member" 0 _ ⟨rfl, _, rfl, rfl⟩ rfl
  refine ⟨hmodel, hreads, next, left, hrun, hleft, ?_⟩
  exact (hforgets member hmodel 0 _ hleft loans byId loan detaches_loans plain_byId
    (by decide)).2.1 hreads

/-- A reference in digits is passed over, and is still followed: not every removed record has
    nothing linked to it. -/
theorem not_forall_related_eq_nil :
    ¬ ∀ (store : Store) (model : Model), model ∈ store.schema.models →
      ∀ (filter : Option Record) (record : Record),
        record ∈ store.select model filter (store.items model.name) →
      ∀ (field : Field) (linkage : Linkage) (dependents : Model),
        store.schema.Detaches model field linkage dependents →
        (∀ pair ∈ linkage.columns, dependents.IsPlain pair.2) →
        (∀ pair ∈ linkage.columns, (Record.valueAt pair.1 record).isScalar = true) →
        (∀ pair ∈ linkage.columns, ∀ item ∈ store.items dependents.name,
          (Record.valueAt pair.2 item).isScalar = true) →
          ((deleteMatching model filter).after store).related model field record = [] := by
  intro h
  have hnone := h (desk (.string "10")) member List.mem_cons_self none [("id", .integer 10)]
    (List.mem_singleton_self _) loans byId loan detaches_loans plain_byId (by decide) (by decide)
  have hone : (((deleteMatching member none).after (desk (.string "10"))).related member loans
      [("id", .integer 10)]).length = 1 := by decide
  rw [hnone] at hone
  cases hone

end Lending

end RecordStore
