import RecordStore.Proofs.Join.Ends
import RecordStore.Proofs.Join.Ids
import RecordStore.Proofs.Uniqueness
import RecordStore.Proofs.Write.Direct
import RecordStore.Proofs.Write.Supply

/-!
# Updates in place

Where the records of a collection are known by ids of their own, an update that leaves the id of its
record alone changes what stands under this id, and nothing else.  What then stands there is what
the payload has made of the record, in every column that updates do not fill of their own accord.
-/

namespace RecordStore

/-! ## Columns that updates leave alone -/

namespace Model

variable {model : Model} {name : String} {written record : Record} {field : Field}

/-- No field of the name keeps the time of the last update. -/
def Unstamped (model : Model) (name : String) : Prop :=
  ∀ field ∈ model.scalarFields, field.name = name → field.isUpdatedAt = false

/-- No field of the name has a default that takes the place of null. -/
def Undefaulted (model : Model) (name : String) : Prop :=
  ∀ field ∈ model.scalarFields, field.name = name → field.default = none

instance (model : Model) (name : String) : Decidable (model.Unstamped name) :=
  inferInstanceAs (Decidable (∀ field ∈ model.scalarFields, _ → _))

instance (model : Model) (name : String) : Decidable (model.Undefaulted name) :=
  inferInstanceAs (Decidable (∀ field ∈ model.scalarFields, _ → _))

/-- Refreshing a field writes under its name at most, and there a time or a default. -/
theorem get?_refreshField (store : Store)
    (hstamp : field.name = name → field.isUpdatedAt = false)
    (hdefault : (Record.valueAt name record).isNull = true → field.name = name →
      field.default = none) :
    Entries.get? name (Store.refreshField model written record field store).1 =
      Entries.get? name record := by
  by_cases hname : field.name = name
  · subst hname
    rw [Store.refreshField, hstamp rfl, Bool.false_and, if_neg Bool.false_ne_true]
    split
    · rename_i hnull
      have hnothing : store.defaultValue model field = (none, store) := by
        simp only [Store.defaultValue, hdefault hnull rfl, hstamp rfl, Bool.false_eq_true, if_false]
      rw [hnothing]
    · rfl
  · have hother (value : Value) :
        Entries.get? name (Entries.insert field.name value record) = Entries.get? name record :=
      Entries.get?_insert_of_ne (Ne.symm hname) value record
    unfold Store.refreshField
    split
    · exact hother _
    · split
      · rcases store.defaultValue model field with ⟨_ | value, next⟩
        · rfl
        · exact hother value
      · rfl

/-- A record that is refreshed keeps what it holds under a name without time of update, unless it
    is a null with a default. -/
theorem get?_refreshFields (hstamp : model.Unstamped name)
    (hdefault : (Record.valueAt name record).isNull = true → model.Undefaulted name)
    (store : Store) :
    Entries.get? name (Store.refreshFields model written model.scalarFields record store).1 =
      Entries.get? name record := by
  have hfields (fields : List Field) (hsub : fields ⊆ model.scalarFields) :
      ∀ (refreshed : Record) (store : Store),
        Entries.get? name refreshed = Entries.get? name record →
        Entries.get? name (Store.refreshFields model written fields refreshed store).1 =
          Entries.get? name record := by
    induction fields with
    | nil => exact fun _ _ h => h
    | cons field rest ih =>
        intro refreshed store h
        have hfield : field ∈ model.scalarFields := hsub List.mem_cons_self
        have hvalue : Record.valueAt name refreshed = Record.valueAt name record := by
          rw [Record.valueAt, h, Record.valueAt]
        rw [Store.refreshFields]
        have hfirst : Entries.get? name
            (Store.refreshField model written refreshed field store).1 =
              Entries.get? name refreshed :=
          get?_refreshField store (hstamp field hfield)
            fun hnull => hdefault (hvalue ▸ hnull) field hfield
        exact ih (fun _ hmem => hsub (List.mem_cons_of_mem _ hmem)) _ _ (hfirst.trans h)
  exact hfields model.scalarFields (fun _ h => h) record store rfl

/-- The same of its value. -/
theorem valueAt_refreshFields (hstamp : model.Unstamped name)
    (hdefault : (Record.valueAt name record).isNull = true → model.Undefaulted name)
    (store : Store) :
    Record.valueAt name (Store.refreshFields model written model.scalarFields record store).1 =
      Record.valueAt name record := by
  rw [Record.valueAt, get?_refreshFields hstamp hdefault store, Record.valueAt]

/-- A time and a default alike take the place of null only. -/
theorem isNull_refreshField (h : (Record.valueAt name record).isNull = false) (store : Store) :
    (Record.valueAt name (Store.refreshField model written record field store).1).isNull =
      false := by
  unfold Store.refreshField
  split
  · by_cases hname : name = field.name
    · rw [hname, Record.valueAt, Entries.get?_insert_self]
      rfl
    · rw [Record.valueAt, Entries.get?_insert_of_ne hname]
      exact h
  · split
    · rename_i hnull
      have hname : name ≠ field.name := by
        rintro rfl
        rw [Record.isNullAt, h] at hnull
        cases hnull
      rcases store.defaultValue model field with ⟨_ | value, next⟩
      · exact h
      · dsimp only
        rw [Record.valueAt, Entries.get?_insert_of_ne hname]
        exact h
    · exact h

/-- A record that is refreshed has no null where it had none. -/
theorem isNull_refreshFields (h : (Record.valueAt name record).isNull = false)
    (fields : List Field) (store : Store) :
    (Record.valueAt name (Store.refreshFields model written fields record store).1).isNull =
      false := by
  induction fields generalizing record store with
  | nil => exact h
  | cons field rest ih =>
      rw [Store.refreshFields]
      exact ih (isNull_refreshField h store) _

/-- Plain columns hold no payloads of relations. -/
theorem scalarPayload_of_isPlain {data : Record} (h : ∀ entry ∈ data, model.IsPlain entry.1) :
    model.ScalarPayload data := by
  intro entry hentry
  obtain ⟨-, field, hfield, hplain, -⟩ := h entry hentry
  rw [hfield, Option.all_some, hplain]
  rfl

/-- Single values in declared fields are written as they are. -/
theorem revised_of_scalars {data : Record} (h : ∀ entry ∈ data,
    (model.field? entry.1).isSome = true ∧ entry.2.isScalar = true) (record : Record) :
    model.revised data record = .ok (Entries.insertAll record data) := by
  induction data generalizing record with
  | nil => rfl
  | cons entry rest ih =>
      obtain ⟨key, value⟩ := entry
      obtain ⟨⟨hfield, hscalar⟩, hrest⟩ := List.forall_mem_cons.mp h
      obtain ⟨field, hfield⟩ := Option.isSome_iff_exists.mp hfield
      have hupdated (current : Value) : field.updated current value = .ok value := by
        cases value with
        | object _ => cases hscalar
        | _ => rfl
      rw [revised, List.foldlM_cons]
      simp only [hfield, hupdated]
      exact ih hrest _

end Model

/-! ## Collections known by ids -/

namespace Store

/-- The ids of the records of a model, in their order. -/
def ids (store : Store) (model : Model) : List Value :=
  (store.items model.name).map model.recordId

/-- The records of a model have texts and 64-bit integers for ids, no two of them the same. -/
structure Identified (store : Store) (model : Model) : Prop where
  atoms : ∀ id ∈ store.ids model, id.isAtom = true
  nodup : (store.ids model).Nodup

variable {store last : Store} {model : Model} {current record : Record} {idField : String}

theorem Identified.isAtom (h : store.Identified model) (hmem : record ∈ store.items model.name) :
    (model.recordId record).isAtom = true := h.atoms _ (List.mem_map_of_mem hmem)

/-- Records of one id are one. -/
theorem Identified.eq_of_id_eq (h : store.Identified model) {a b : Record}
    (ha : a ∈ store.items model.name) (hb : b ∈ store.items model.name)
    (hid : model.recordId a = model.recordId b) : a = b := List.inj_on_of_nodup_map h.nodup ha hb hid

theorem Identified.of_ids_eq (h : store.Identified model) (hids : last.ids model = store.ids model) :
    last.Identified model := ⟨hids ▸ h.atoms, hids ▸ h.nodup⟩

/-- Where no two records collide on a unique group, those of a model with a single id field are
    known by their ids. -/
theorem HoldsUnique.identified (h : store.HoldsUnique) (hmodel : model ∈ store.schema.models)
    (hid : model.idFields = [idField]) (hatoms : ∀ id ∈ store.ids model, id.isAtom = true) :
    store.Identified model := by
  refine ⟨hatoms, ?_⟩
  rw [ids, List.Nodup, List.pairwise_map]
  have hpairs := h.pairwise hmodel (Model.mem_uniqueConstraints hid)
  refine hpairs.imp_of_mem fun {a b} ha hb hapart heq => hapart fun field hfield => ?_
  obtain rfl := List.mem_singleton.mp hfield
  rw [Model.recordId_of_idFields hid, Model.recordId_of_idFields hid] at heq
  have hatom : (Record.valueAt field b).isAtom = true :=
    Model.recordId_of_idFields hid b ▸ hatoms _ (List.mem_map_of_mem hb)
  have hself : sameId (Record.valueAt field b) (Record.valueAt field b) = true :=
    (sameId_iff (Value.isId_of_isAtom hatom) (Value.isId_of_isAtom hatom)).mpr rfl
  rw [heq]
  exact ⟨Value.isNull_of_isAtom hatom, Value.isNull_of_isAtom hatom, hself⟩

/-! ## What an update in place does -/

/-- A store in which a record of a model has been written under the id of a stored one.  An equal
    record need not have been written. -/
structure Rewrites (store last : Store) (model : Model) (current record : Record) : Prop where
  schema_eq : last.schema = store.schema
  joins_eq : last.joins = store.joins
  others : ∀ name, name ≠ model.name → last.items name = store.items name
  ids_eq : last.ids model = store.ids model
  kept : ∀ other, model.recordId other ≠ model.recordId current →
    (other ∈ last.items model.name ↔ other ∈ store.items model.name)
  written : ∀ other ∈ last.items model.name, model.recordId other = model.recordId current →
    other = record ∨ (other = current ∧ Record.same record current = true)

/-- Nothing is written when the record is as it was. -/
theorem rewrites_of_same (hid : store.Identified model) (hcurrent : current ∈ store.items model.name)
    (hsame : Record.same record current = true) : Rewrites store store model current record where
  schema_eq := rfl
  joins_eq := rfl
  others _ _ := rfl
  ids_eq := rfl
  kept _ _ := Iff.rfl
  written _ hother hothers := Or.inr ⟨hid.eq_of_id_eq hother hcurrent hothers, hsame⟩

/-- What is swapped for a record is the record of its id. -/
theorem rewrites_of_swap (hid : store.Identified model) (hcurrent : current ∈ store.items model.name)
    (hkeeps : model.recordId record = model.recordId current)
    (hswap : store.swap model.name current record = some last) :
    Rewrites store last model current record := by
  obtain ⟨before, old, later, hitems, -, hsame, rfl⟩ := split_of_swap hswap
  have hold : old ∈ store.items model.name :=
    hitems ▸ List.mem_append_right _ List.mem_cons_self
  obtain rfl : old = current := by
    refine hid.eq_of_id_eq hold hcurrent ?_
    exact Value.eq_of_same_of_isAtom (hid.isAtom hold) (model.recordId_of_same hsame)
  -- no other record has its id
  have hapart : ∀ other ∈ before ++ later, model.recordId other ≠ model.recordId old := by
    have hnodup := hid.nodup
    rw [ids, hitems, (List.perm_middle.map model.recordId).nodup_iff, List.map_cons,
      List.nodup_cons] at hnodup
    exact fun other hother heq => hnodup.1 (heq ▸ List.mem_map_of_mem hother)
  have hmem {other new : Record} :
      other ∈ before ++ new :: later ↔ other = new ∨ other ∈ before ++ later := by
    rw [List.perm_middle.mem_iff, List.mem_cons]
  refine ⟨rfl, rfl, fun name hname => items_replaceCollection_of_ne hname _ _, ?_,
    fun other hother => ?_, fun other hother hsameId => ?_⟩
  · rw [ids, ids, items_replaceCollection_self, hitems, List.map_append, List.map_append,
      List.map_cons, List.map_cons, hkeeps]
  · rw [items_replaceCollection_self, hitems, hmem, hmem]
    have hnew : other ≠ record := fun heq => hother (heq ▸ hkeeps)
    have hnot : other ≠ old := fun heq => hother (heq ▸ rfl)
    simp only [hnew, hnot, false_or]
  · rw [items_replaceCollection_self, hmem] at hother
    exact hother.imp_right fun hmember => absurd hsameId (hapart other hmember)

/-- A revised record that has kept the id is written under it. -/
theorem rewrites_of_settle {written revised : Record} (hid : store.Identified model)
    (hcurrent : current ∈ store.items model.name)
    (hkeeps : model.recordId record = model.recordId current)
    (h : (Write.settle model written current revised).outcome store = (.ok record, last)) :
    Rewrites store last model current record := by
  obtain ⟨-, hstored⟩ := Write.settle_ok h
  obtain ⟨counters, entropy, hsupplied⟩ :=
    supplied_refreshFields model written model.scalarFields revised store
  rw [hsupplied] at hstored
  -- what has been drawn leaves the collections alone
  have hfilled {next : Store}
      (h : Rewrites { store with counters, entropy } next model current record) :
      Rewrites store next model current record :=
    ⟨h.schema_eq, h.joins_eq, h.others, h.ids_eq, h.kept, h.written⟩
  have hid' : Identified { store with counters, entropy } model := ⟨hid.atoms, hid.nodup⟩
  rcases Write.replaceStored_ok hstored with ⟨hsame, rfl⟩ | ⟨-, -, hswap⟩
  · exact hfilled (rewrites_of_same hid' hcurrent hsame)
  · exact hfilled (rewrites_of_swap hid' hcurrent hkeeps hswap)

end Store

namespace NestedWrites

open Store

variable {store last : Store} {model : Model} {current data record : Record} {idField : String}

/-- Writing single values into plain columns other than the id rewrites the record in place, and
    every column that updates leave alone then holds what was written. -/
theorem rewrites_of_update {depth : Nat} (hid : store.Identified model)
    (hcurrent : current ∈ store.items model.name) (hids : model.idFields = [idField])
    (hunstamped : model.Unstamped idField) (hapart : idField ∉ Entries.keys data)
    (hdata : ∀ entry ∈ data, model.IsPlain entry.1 ∧ entry.2.isScalar = true)
    (h : ((within (depth + 1)).update model current data).outcome store = (.ok record, last)) :
    Rewrites store last model current record ∧
      ∀ name, model.Unstamped name →
        ((Record.valueAt name (Entries.insertAll current data)).isNull = true →
          model.Undefaulted name) →
        Record.valueAt name record = Record.valueAt name (Entries.insertAll current data) := by
  have hscalar : model.ScalarPayload data :=
    Model.scalarPayload_of_isPlain fun entry hentry => (hdata entry hentry).1
  have hrevised : model.revised data current = .ok (Entries.insertAll current data) := by
    refine Model.revised_of_scalars (fun entry hentry => ?_) current
    obtain ⟨⟨-, field, hfield, -, -⟩, hvalue⟩ := hdata entry hentry
    exact ⟨Option.isSome_iff_exists.mpr ⟨field, hfield⟩, hvalue⟩
  have hupdate : (within (depth + 1)).update model current data =
      Write.require (model.revised data current) >>= Write.settle model data current :=
    updateStep_of_scalar (within depth) hscalar current
  rw [hupdate, hrevised] at h
  have hsettled : (Write.settle model data current (Entries.insertAll current data)).outcome
      store = (.ok record, last) := h
  obtain ⟨hrecord, -⟩ := Write.settle_ok hsettled
  have hvalue (name : String) (hstamp : model.Unstamped name)
      (hdefault : (Record.valueAt name (Entries.insertAll current data)).isNull = true →
        model.Undefaulted name) :
      Record.valueAt name record = Record.valueAt name (Entries.insertAll current data) := by
    rw [hrecord]
    exact Model.valueAt_refreshFields hstamp hdefault store
  refine ⟨rewrites_of_settle hid hcurrent ?_ hsettled, hvalue⟩
  -- the id is not null, so nothing is filled in for it
  have hold : Record.valueAt idField (Entries.insertAll current data) =
      Record.valueAt idField current := by
    rw [Record.valueAt, Entries.get?_insertAll_of_notMem hapart, Record.valueAt]
  have hatom := hid.isAtom hcurrent
  rw [Model.recordId_of_idFields hids] at hatom
  rw [Model.recordId_of_idFields hids, Model.recordId_of_idFields hids, hvalue idField hunstamped, hold]
  intro hnull
  rw [hold, Value.isNull_of_isAtom hatom] at hnull
  cases hnull

end NestedWrites

end RecordStore
