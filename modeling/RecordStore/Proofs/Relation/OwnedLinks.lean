import RecordStore.Proofs.Relation.Linked
import RecordStore.Proofs.Relation.Linking
import RecordStore.Proofs.Write.OwnedDelete

/-!
# Links that a record keeps itself

An update through a relation whose key columns belong to the record chooses a target, which is found
or created, and writes what it is referred to by into the columns.  Read back through the relation,
the record then leads to the target: nothing that happens to the record in between touches the
columns again, and the only other record that the update writes is the target itself, when a record
comes to refer to itself.
-/

namespace RecordStore

/-! ## Binding columns -/

namespace Linkage

variable {linkage : Linkage} {related : Model} {record target : Record}

/-- A column of a bound record holds what it refers to, if no column is written twice. -/
theorem valueAt_bind (hapart : (linkage.columns.map Prod.fst).Nodup) (record target : Record) :
    ∀ pair ∈ linkage.columns,
      Record.valueAt pair.1 (linkage.bind record target) = Record.valueAt pair.2 target := by
  intro pair hpair
  have hentry : (pair.1, Record.valueAt pair.2 target) ∈
      linkage.columns.map fun pair => (pair.1, Record.valueAt pair.2 target) :=
    List.mem_map_of_mem hpair
  rw [bind_eq_insertAll, Record.valueAt,
    Entries.get?_insertAll_of_forall (List.mem_map_of_mem hentry) fun entry hmem heq => ?_,
    Option.getD_some]
  obtain ⟨other, hother, rfl⟩ := List.mem_map.mp hmem
  rw [List.inj_on_of_nodup_map hapart hother hpair heq]

end Linkage

/-! ## The target -/

namespace Payload

variable {arg : Value} {operation key : String} {fields : Record}

theorem object_ok (h : object arg operation = .ok fields) : arg.object? = some fields := by
  unfold object at h
  split at h
  · rename_i found hfound
    rw [hfound, Except.ok.inj h]
  · cases h

theorem member_ok (h : member arg key operation = .ok fields) :
    (arg.get? key).bind Value.object? = some fields := by
  unfold member at h
  split at h
  · rename_i found hfound
    rw [hfound, Except.ok.inj h]
  · cases h

end Payload

namespace NestedWrites

open Store Write

variable {store made last : Store} {model related : Model} {field : Field} {linkage : Linkage}
variable {key operation : String} {arg : Value} {data current target next : Record} {depth : Nat}

/-- The payload of the record that an operation through an owned relation may have to create. -/
def createdBy (operation : String) (arg : Value) : Option Record :=
  match NestedOperation.ofName? operation with
  | some .create => arg.object?
  | some .connectOrCreate => (arg.get? "create").bind Value.object?
  | _ => none

/-- The target that an operation connects a record to: a stored record that it finds, or one that it
    creates, because it is to create one or finds none. -/
inductive Chooses (store : Store) (related : Model) : String → Value → Record → Store → Prop
  | connected {arg : Value} {filter target : Record} (hfilter : arg.object? = some filter)
      (hfound : store.first? related (some filter) = some target) :
      Chooses store related "connect" arg target store
  | found {arg : Value} {filter target : Record}
      (hfilter : (arg.get? "where").bind Value.object? = some filter)
      (hfound : store.first? related (some filter) = some target) :
      Chooses store related "connectOrCreate" arg target store
  | missed {arg : Value} {filter data target : Record} {made : Store}
      (hfilter : (arg.get? "where").bind Value.object? = some filter)
      (hmissed : store.first? related (some filter) = none)
      (hdata : (arg.get? "create").bind Value.object? = some data)
      (hcreated : (createRecord related data).outcome store = (.ok target, made)) :
      Chooses store related "connectOrCreate" arg target made
  | created {arg : Value} {data target : Record} {made : Store} (hdata : arg.object? = some data)
      (hcreated : (createRecord related data).outcome store = (.ok target, made)) :
      Chooses store related "create" arg target made

/-- A create from a payload of plain fields does not depend on the depth that is left. -/
theorem createRecord_of_scalar (hscalar : related.ScalarPayload data) (depth : Nat) :
    (within (depth + 1)).create related data = createRecord related data :=
  (createStep_of_scalar _ hscalar).trans (createStep_of_scalar _ hscalar).symm

/-- What is created from a payload of plain fields is stored. -/
theorem mem_of_createRecord (hscalar : related.ScalarPayload data)
    (hrun : (createRecord related data).outcome store = (.ok target, made)) :
    target ∈ made.items related.name ∧ made.schema = store.schema := by
  have hcreate : createRecord related data = complete related (related.given data) :=
    createStep_of_scalar _ hscalar
  rw [hcreate] at hrun
  obtain ⟨-, -, rfl⟩ := complete_ok hrun
  obtain ⟨counters, entropy, hsupplied⟩ :=
    supplied_materialize related (related.given data) store
  refine ⟨?_, by rw [hsupplied]; rfl⟩
  rw [append, items_replaceCollection_self]
  exact List.mem_append_right _ (List.mem_singleton_self target)

/-- The target is stored when the record is connected to it. -/
theorem Chooses.mem (h : Chooses store related operation arg target made)
    (hscalar : ∀ data, createdBy operation arg = some data → related.ScalarPayload data) :
    target ∈ made.items related.name ∧ made.schema = store.schema := by
  cases h with
  | connected _ hfound => exact ⟨List.mem_of_find?_eq_some hfound, rfl⟩
  | found _ hfound => exact ⟨List.mem_of_find?_eq_some hfound, rfl⟩
  | missed _ _ hdata hcreated => exact mem_of_createRecord (hscalar _ hdata) hcreated
  | created hdata hcreated => exact mem_of_createRecord (hscalar _ hdata) hcreated

/-- The operations that connect a record to a target. -/
def connecting : List String := ["connect", "connectOrCreate", "create"]

/-- Such an operation chooses a target, to which the columns are to be bound. -/
theorem ownedStep_chooses (hoperation : operation ∈ connecting)
    (hscalar : ∀ data, createdBy operation arg = some data → related.ScalarPayload data)
    {linked : Option Record} {change result : OwnedChange}
    (hrun : ((within (depth + 1)).ownedStep related linked change operation arg).outcome store =
      (.ok result, last)) :
    ∃ target, result = .bind target ∧ Chooses store related operation arg target last := by
  have hbind {w : Write Record} {store : Store}
      (h : (w >>= fun target => pure (.bind target)).outcome store = (.ok result, last)) :
      ∃ target, result = .bind target ∧ w.outcome store = (.ok target, last) := by
    obtain ⟨target, next, htarget, hdone⟩ := outcome_bind_ok h
    obtain ⟨hresult, rfl⟩ := Prod.mk.inj hdone
    exact ⟨target, (Except.ok.inj hresult).symm, htarget⟩
  simp only [connecting, List.mem_cons, List.not_mem_nil, or_false] at hoperation
  rcases hoperation with rfl | rfl | rfl
  · obtain ⟨filter, hfilter, hrun⟩ := outcome_bind_require_ok hrun
    obtain ⟨target, rfl, htarget⟩ := hbind hrun
    obtain ⟨hfound, rfl⟩ := connectTarget_ok htarget
    exact ⟨target, rfl, .connected (Payload.object_ok hfilter) hfound⟩
  · obtain ⟨filter, hfilter, hrun⟩ := outcome_bind_require_ok hrun
    rw [outcome_bind_get] at hrun
    cases hfirst : store.first? related (some filter) with
    | some found =>
        rw [hfirst] at hrun
        obtain ⟨hresult, rfl⟩ := Prod.mk.inj hrun
        exact ⟨found, (Except.ok.inj hresult).symm, .found (Payload.member_ok hfilter) hfirst⟩
    | none =>
        rw [hfirst] at hrun
        obtain ⟨data, hdata, hrun⟩ := outcome_bind_require_ok hrun
        obtain ⟨target, rfl, hcreate⟩ := hbind hrun
        have hpayload := Payload.member_ok hdata
        rw [createRecord_of_scalar (hscalar data hpayload)] at hcreate
        exact ⟨target, rfl, .missed (Payload.member_ok hfilter) hfirst hpayload hcreate⟩
  · obtain ⟨data, hdata, hrun⟩ := outcome_bind_require_ok hrun
    obtain ⟨target, rfl, hcreate⟩ := hbind hrun
    have hpayload := Payload.object_ok hdata
    rw [createRecord_of_scalar (hscalar data hpayload)] at hcreate
    exact ⟨target, rfl, .created hpayload hcreate⟩

/-- A key of a payload with such an operation alone binds the columns to the target. -/
theorem revisionStep_chooses (howns : store.schema.Owns model key field linkage related)
    (hoperation : operation ∈ connecting)
    (hscalar : ∀ data, createdBy operation arg = some data → related.ScalarPayload data)
    {revision revised : Revision}
    (hrun : ((within (depth + 1)).revisionStep model revision key
      (.object [(operation, arg)])).outcome store = (.ok revised, last)) :
    ∃ target, Chooses store related operation arg target last ∧
      revised = { revision with next := linkage.bind revision.next target } := by
  simp only [revisionStep, howns.field_eq, howns.isRelation, if_true, outcome_bind_get,
    howns.linkage_eq, howns.owned] at hrun
  obtain ⟨change, mid, hchange, hrest⟩ := outcome_bind_ok hrun
  rw [writeOwned, outcome_bind_get] at hchange
  obtain ⟨found, hfound, hchange⟩ := outcome_bind_require_ok hchange
  obtain rfl := Except.ok.inj (howns.related_eq.symm.trans hfound)
  rw [List.foldlM_cons] at hchange
  obtain ⟨result, mid', hstep, hdone⟩ := outcome_bind_ok hchange
  obtain ⟨hresult, rfl⟩ := Prod.mk.inj hdone
  obtain rfl := Except.ok.inj hresult
  obtain ⟨target, rfl, hchooses⟩ := ownedStep_chooses hoperation hscalar hstep
  obtain ⟨hrevised, rfl⟩ := Prod.mk.inj hrest
  exact ⟨target, hchooses, (Except.ok.inj hrevised).symm⟩

/-- An update by such an operation alone chooses a target, binds the columns of its record to it,
    and settles the record. -/
theorem updateRecord_chooses (howns : store.schema.Owns model key field linkage related)
    (hoperation : operation ∈ connecting)
    (hscalar : ∀ data, createdBy operation arg = some data → related.ScalarPayload data)
    (hrun : (updateRecord model current [(key, .object [(operation, arg)])]).outcome store =
      (.ok next, last)) :
    ∃ target made, Chooses store related operation arg target made ∧
      (settle model [(key, .object [(operation, arg)])] current
        (linkage.bind current target)).outcome made = (.ok next, last) := by
  obtain ⟨depth, hdepth⟩ : ∃ depth, updateRecord model current [(key, .object [(operation, arg)])] =
      (within (depth + 1)).updateStep model current [(key, .object [(operation, arg)])] := ⟨_, rfl⟩
  rw [hdepth, updateStep_eq, List.foldlM_cons] at hrun
  obtain ⟨revised, made, hrevise, hrun⟩ := outcome_bind_ok hrun
  obtain ⟨revised', made', hfirst, hnil⟩ := outcome_bind_ok hrevise
  obtain ⟨hrevised, rfl⟩ := Prod.mk.inj hnil
  obtain rfl := Except.ok.inj hrevised
  obtain ⟨target, hchooses, rfl⟩ := revisionStep_chooses howns hoperation hscalar hfirst
  refine ⟨target, _, hchooses, ?_⟩
  obtain ⟨settled, ended, hsettle, hrest⟩ := outcome_bind_ok hrun
  obtain ⟨hsettled, rfl⟩ := Prod.mk.inj hrest
  rw [Except.ok.inj hsettled] at hsettle
  exact hsettle

end NestedWrites

/-! ## The link -/

/-- Through the key of a relation a record can be bound to any target: the key columns are different
    from each other, pair by pair with the columns that they refer to, and keep no time of an update;
    the columns that are referred to are plain ones.  If the records refer to records of their own
    model, then the columns that are referred to are no key columns, and keep no time either. -/
structure Schema.Binds (schema : Schema) (model : Model) (key : String) (field : Field)
    (linkage : Linkage) (related : Model) : Prop
    extends schema.Owns model key field linkage related where
  paired : linkage.localColumns.length = linkage.foreign.length
  nodup : linkage.localColumns.Nodup
  unstamped : ∀ column ∈ linkage.localColumns, model.Unstamped column
  plain : ∀ column ∈ linkage.foreign,
    related.IsPlain column ∧ related.readingOf column = .plain
  reflexive : related = model → ∀ column ∈ linkage.foreign,
    model.Unstamped column ∧ column ∉ linkage.localColumns

/-- A target holds single values in the columns that are referred to, none of them null or a double
    that is not a number. -/
def Linkage.Refers (linkage : Linkage) (target : Record) : Prop :=
  ∀ column ∈ linkage.foreign, (Record.valueAt column target).isNull = false ∧
    (Record.valueAt column target).isScalar = true ∧
      Value.equals .plain (Record.valueAt column target) (Record.valueAt column target) = true

instance (linkage : Linkage) (target : Record) : Decidable (linkage.Refers target) :=
  inferInstanceAs (Decidable (∀ column ∈ linkage.foreign, _ ∧ _ ∧ _))

/-- A record has been connected to a target: read back, it leads to the target, or to itself if it
    is the target; it holds what refers to the target in its key columns; and it has changed in no
    other column that updates do not fill of their own accord. -/
structure Store.Resolves (last : Store) (model : Model) (field : Field) (linkage : Linkage)
    (current next target : Record) : Prop where
  linked : target ∈ last.related model field next ∨
    Record.same target current = true ∧ next ∈ last.related model field next
  bound : ∀ pair ∈ linkage.columns, Record.valueAt pair.1 next = Record.valueAt pair.2 target
  kept : ∀ name, name ∉ linkage.localColumns → model.Unstamped name →
    ((Record.valueAt name current).isNull = true → model.Undefaulted name) →
      Entries.get? name next = Entries.get? name current

namespace Store

open NestedWrites Write

variable {store made last : Store} {model related : Model} {field : Field} {linkage : Linkage}
variable {key operation : String} {arg : Value} {record other current next target written : Record}

/-- Through plain key columns a record is linked to those that match it, whether or not a column of
    the other model is referred to twice. -/
theorem mem_related_of_matches (hrelated : store.schema.relatedModel field = .ok related)
    (hlinkage : store.schema.linkage? model field = some linkage)
    (hplain : ∀ pair ∈ linkage.columns, related.IsPlain pair.2)
    (hscalar : ∀ pair ∈ linkage.columns, (Record.valueAt pair.1 record).isScalar = true)
    (hstored : other ∈ store.items related.name) (hmatches : linkage.Matches related record other) :
    other ∈ store.related model field record := by
  obtain ⟨scope, hscope⟩ := Linkage.exists_scope fun pair hpair => (hmatches pair hpair).1
  have hfilter := Linkage.plain_scope hplain hscalar hscope
  exact (mem_related_of_plain hrelated hlinkage hscope hfilter).mpr
    ⟨hstored, Linkage.fits_of_matches hfilter hscope hmatches⟩

/-- Settling a record that has been bound keeps what refers to the target, and every other column
    that it does not fill. -/
theorem valueAt_settled (hbinds : made.schema.Binds model key field linkage related)
    (hrefers : linkage.Refers target)
    (hnext : next =
      (refreshFields model written model.scalarFields (linkage.bind current target) made).1) :
    (∀ pair ∈ linkage.columns, Record.valueAt pair.1 next = Record.valueAt pair.2 target) ∧
      ∀ name, name ∉ linkage.localColumns → model.Unstamped name →
        ((Record.valueAt name current).isNull = true → model.Undefaulted name) →
          Entries.get? name next = Entries.get? name current := by
  subst hnext
  have hapart : (linkage.columns.map Prod.fst).Nodup := by
    rw [Linkage.columns, List.map_fst_zip (Nat.le_of_eq hbinds.paired)]
    exact hbinds.nodup
  constructor
  · intro pair hpair
    obtain ⟨hlocal, hforeign⟩ := List.of_mem_zip hpair
    have hbound := Linkage.valueAt_bind hapart current target pair hpair
    rw [Model.valueAt_refreshFields (hbinds.unstamped _ hlocal), hbound]
    intro hnull
    rw [hbound, (hrefers _ hforeign).1] at hnull
    cases hnull
  · intro name hname hstamp hdefault
    have hkept := Linkage.get?_bind_of_notMem hname current target
    rw [Model.get?_refreshFields hstamp, hkept]
    intro hnull
    rw [Record.valueAt, hkept] at hnull
    exact hdefault hnull

/-- A record that holds what refers to a target is linked to it. -/
theorem mem_related_of_bound (hbinds : store.schema.Binds model key field linkage related)
    (hrefers : linkage.Refers target)
    (hbound : ∀ pair ∈ linkage.columns,
      Record.valueAt pair.1 record = Record.valueAt pair.2 target)
    (hstored : other ∈ store.items related.name)
    (hsame : ∀ column ∈ linkage.foreign,
      Value.Alike (Record.valueAt column target) (Record.valueAt column other)) :
    other ∈ store.related model field record := by
  refine mem_related_of_matches hbinds.related_eq hbinds.linkage_eq
    (fun pair hpair => (hbinds.plain _ (List.of_mem_zip hpair).2).1) (fun pair hpair => ?_) hstored
    fun pair hpair => ?_ <;> obtain ⟨-, hforeign⟩ := List.of_mem_zip hpair <;>
    obtain ⟨hnull, hscalar, hself⟩ := hrefers _ hforeign <;> rw [hbound pair hpair]
  · exact hscalar
  · have halike := hsame _ hforeign
    refine ⟨hnull, halike.isNull_eq ▸ hnull, ?_⟩
    rw [(hbinds.plain _ hforeign).2]
    rcases halike with heq | hsame
    · exact heq ▸ hself
    · exact Value.equalsPlain_symm (Value.equalsPlain_of_same hsame hself)

/-- Swapping a record keeps every other one, in its own collection and in the others. -/
theorem mem_items_of_swap {name collection : String}
    (hswap : store.swap name current next = some last)
    (hstored : other ∈ store.items collection) : other ∈ last.items collection ∨
      collection = name ∧ Record.same other current = true ∧ next ∈ last.items name := by
  obtain ⟨before, old, later, hitems, -, hsame, rfl⟩ := split_of_swap hswap
  by_cases hname : collection = name
  · subst hname
    rw [items_replaceCollection_self]
    rw [hitems] at hstored
    rcases List.mem_append.mp hstored with hbefore | hrest
    · exact Or.inl (List.mem_append_left _ hbefore)
    · rcases List.mem_cons.mp hrest with rfl | hlater
      · exact Or.inr ⟨rfl, hsame, List.mem_append_right _ List.mem_cons_self⟩
      · exact Or.inl (List.mem_append_right _ (List.mem_cons_of_mem _ hlater))
  · rw [items_replaceCollection_of_ne hname]
    exact Or.inl hstored

/-- A record that has been bound to a stored target and settled is linked to it. -/
theorem resolves_of_settle (hbinds : made.schema.Binds model key field linkage related)
    (hmodel : model ∈ made.schema.models) (hrefers : linkage.Refers target)
    (hstored : target ∈ made.items related.name)
    (hrun : (settle model written current (linkage.bind current target)).outcome made =
      (.ok next, last)) : last.Resolves model field linkage current next target := by
  obtain ⟨hnext, hreplaced⟩ := settle_ok hrun
  obtain ⟨hbound, hkept⟩ := valueAt_settled hbinds hrefers hnext
  refine ⟨?_, hbound, hkept⟩
  obtain ⟨counters, entropy, hsupplied⟩ :=
    supplied_refreshFields model written model.scalarFields (linkage.bind current target) made
  rw [hsupplied] at hreplaced
  have hlinked (hschema : last.schema = made.schema)
      (hstored : target ∈ last.items related.name) : target ∈ last.related model field next :=
    mem_related_of_bound (hschema ▸ hbinds) hrefers hbound hstored fun _ _ => Or.inl rfl
  rcases replaceStored_ok hreplaced with ⟨-, rfl⟩ | ⟨-, -, hswap⟩
  · exact Or.inl (hlinked rfl hstored)
  · have hschema : last.schema = made.schema := by
      obtain ⟨_, _, _, -, -, -, rfl⟩ := split_of_swap hswap
      rfl
    rcases mem_items_of_swap hswap hstored with hthere | ⟨hname, hsame, hwritten⟩
    · exact Or.inl (hlinked hschema hthere)
    · -- the record is its own target, and what it is referred to by has not changed
      obtain rfl := Schema.eq_of_name_eq (Schema.mem_of_relatedModel hbinds.related_eq) hmodel hname
      refine Or.inr ⟨hsame, mem_related_of_bound (hschema ▸ hbinds) hrefers hbound hwritten
        fun column hcolumn => ?_⟩
      obtain ⟨hstamp, hlocal⟩ := hbinds.reflexive rfl column hcolumn
      have hvalue := Record.valueAt_of_same hsame column
      have hnull : (Record.valueAt column current).isNull = false :=
        Value.isNull_of_same hvalue ▸ (hrefers column hcolumn).1
      have hcolumn := hkept column hlocal hstamp fun h => by
        rw [hnull] at h
        cases h
      rw [Record.valueAt, Record.valueAt, hcolumn]
      exact Or.inr hvalue

/-- An update that connects a record through an owned relation chooses a target, and the record then
    resolves to it. -/
theorem owned_link_resolves (hbinds : store.schema.Binds model key field linkage related)
    (hmodel : model ∈ store.schema.models) (hoperation : operation ∈ connecting)
    (hscalar : ∀ data, createdBy operation arg = some data → related.ScalarPayload data)
    (hrun : (updateRecord model current [(key, .object [(operation, arg)])]).outcome store =
      (.ok next, last)) :
    ∃ target made, Chooses store related operation arg target made ∧
      (linkage.Refers target → last.Resolves model field linkage current next target) := by
  obtain ⟨target, made, hchooses, hsettle⟩ :=
    updateRecord_chooses hbinds.toOwns hoperation hscalar hrun
  obtain ⟨hstored, hschema⟩ := hchooses.mem hscalar
  exact ⟨target, made, hchooses, fun hrefers =>
    resolves_of_settle (hschema ▸ hbinds) (hschema ▸ hmodel) hrefers hstored hsettle⟩

end Store

namespace Staff

open NestedWrites Store Write

/-- The relation field from employees to their managers. -/
def managerField : Field :=
  { name := "manager", kind := .relation, typeName := "Employee", relationName := some "manages",
    fromFields := ["managerId"], toFields := ["id"] }

/-- Employees, each of whom may have another one for a manager. -/
def employee : Model where
  name := "Employee"
  fields := [{ name := "id", kind := .scalar, typeName := "Int", isId := true },
    { name := "managerId", kind := .scalar, typeName := "Int" }, managerField]

def schema : Schema := ⟨{}, [employee], by decide, by decide⟩

/-- Employees refer to their managers by id. -/
def byId : Linkage := ⟨["managerId"], ["id"], true⟩

/-- An employee without a manager. -/
def founder : Record := [("id", .integer 1), ("managerId", .null)]

/-- The store with that employee alone. -/
def store : Store :=
  (ofSchema schema 0 ⟨0⟩).run [.write .create "Employee" (.object [("data", .object founder)])]

theorem binds_manager : schema.Binds employee "manager" managerField byId employee where
  field_eq := rfl
  isRelation := rfl
  linkage_eq := by decide
  owned := rfl
  related_eq := rfl
  paired := rfl
  nodup := by decide
  unstamped := by decide
  plain := List.forall_mem_singleton.mpr ⟨⟨rfl, _, rfl, rfl, rfl⟩, rfl⟩
  reflexive _ := by decide

/-- The employee is given a manager of their own. -/
def hiring : Value := .object [("id", .integer 2)]

/-- The employee is to be managed by the first of all. -/
def promoting : Value := .object [("id", .integer 1)]

/-- The employee gets a manager who is created in the same call, or becomes their own manager. -/
theorem manage_founder :
    (∃ last, (updateRecord employee founder [("manager", .object [("create", hiring)])]).outcome
        store = (.ok [("id", .integer 1), ("managerId", .integer 2)], last) ∧
      last.Resolves employee managerField byId founder
        [("id", .integer 1), ("managerId", .integer 2)]
        [("id", .integer 2), ("managerId", .null)]) ∧
    ∃ last, (updateRecord employee founder [("manager", .object [("connect", promoting)])]).outcome
        store = (.ok [("id", .integer 1), ("managerId", .integer 1)], last) ∧
      last.Resolves employee managerField byId founder
        [("id", .integer 1), ("managerId", .integer 1)] founder := by
  have hmodel : employee ∈ store.schema.models := List.mem_singleton_self _
  have hbinds : store.schema.Binds employee "manager" managerField byId employee := binds_manager
  have hplain (data : Record) : createdBy "create" hiring = some data →
      employee.ScalarPayload data := by
    intro hdata
    rw [← Option.some.inj hdata]
    decide
  constructor
  · refine ⟨_, rfl, ?_⟩
    have hrun : (updateRecord employee founder [("manager", .object [("create", hiring)])]).outcome
        store = (.ok [("id", .integer 1), ("managerId", .integer 2)], _) := rfl
    obtain ⟨manager, made, hchooses, hresolves⟩ :=
      owned_link_resolves hbinds hmodel (by decide) hplain hrun
    generalize hname : "create" = operation at hchooses
    cases hchooses with
    | created hdata hcreated =>
        obtain rfl := Option.some.inj hdata
        obtain rfl : [("id", .integer 2), ("managerId", .null)] = manager :=
          Except.ok.inj (congrArg Prod.fst hcreated)
        exact hresolves (by decide)
    | _ => exact absurd hname (by decide)
  · refine ⟨_, rfl, ?_⟩
    have hrun : (updateRecord employee founder
        [("manager", .object [("connect", promoting)])]).outcome store =
        (.ok [("id", .integer 1), ("managerId", .integer 1)], _) := rfl
    have hnone : createdBy "connect" promoting = none := rfl
    obtain ⟨manager, made, hchooses, hresolves⟩ :=
      owned_link_resolves hbinds hmodel (by decide) (by rw [hnone]; nofun) hrun
    generalize hname : "connect" = operation at hchooses
    cases hchooses with
    | connected hfilter hfound =>
        obtain rfl := Option.some.inj hfilter
        obtain rfl : founder = manager := Option.some.inj hfound
        exact hresolves (by decide)
    | _ => exact absurd hname (by decide)

end Staff

end RecordStore
