import RecordStore.Proofs.Write.InPlace

/-!
# What an update writes

An update by plain fields goes through its payload key by key, and then through the fields of the
model, whose nulls it fills.  Under every key of the payload the record then holds what the update
makes of the old value, or what the field is filled with if that is null.
-/

namespace RecordStore

open Record

/-! ## Payloads -/

namespace Model

variable {model : Model} {record : Record}

/-- What a payload with different keys makes of a record: each value once, out of the value that the
    record holds. -/
theorem updated_of_revised {data next : Record} (hnodup : (Entries.keys data).Nodup)
    (h : model.revised data record = .ok next) :
    ∀ entry ∈ data, ∀ field, model.field? entry.1 = some field →
      field.updated (valueAt entry.1 record) entry.2 = .ok (valueAt entry.1 next) := by
  induction data generalizing record with
  | nil => exact List.forall_mem_nil _
  | cons entry rest ih =>
      obtain ⟨key, value⟩ := entry
      obtain ⟨hkey, hrest⟩ := List.nodup_cons.mp hnodup
      rw [revised, List.foldlM_cons] at h
      dsimp only at h
      cases hfield : model.field? key with
      | none =>
          rw [hfield] at h
          refine List.forall_mem_cons.mpr ⟨fun field hfound => ?_, ih hrest h⟩
          rw [hfield] at hfound
          cases hfound
      | some field =>
          cases hupdated : field.updated (valueAt key record) value with
          | error e =>
              simp only [hfield, hupdated] at h
              cases h
          | ok updated =>
              simp only [hfield, hupdated] at h
              refine List.forall_mem_cons.mpr
                ⟨fun found hfound => ?_, fun entry hentry found hfound => ?_⟩
              · obtain rfl := Option.some.inj (hfield.symm.trans hfound)
                rw [hupdated, valueAt_revised_of_notMem hkey h, valueAt, Entries.get?_insert_self]
                rfl
              · have hkeys : entry.1 ∈ Entries.keys rest := List.mem_map_of_mem hentry
                have hne : entry.1 ≠ key := fun heq => hkey (heq ▸ hkeys)
                have hold : valueAt entry.1 (Entries.insert key updated record) =
                    valueAt entry.1 record := by
                  rw [valueAt, Entries.get?_insert_of_ne hne, valueAt]
                rw [← hold]
                exact ih hrest h entry hentry found hfound

end Model

/-! ## Filling what is null -/

namespace Store

variable {origin store next : Store} {model : Model} {field : Field} {name : String}

/-- What a field of a name may be filled with from a store on, by its default or with the time of
    the update: counters may have moved on before it is filled, time has not. -/
def Fills (origin : Store) (model : Model) (name : String) (value : Value) : Prop :=
  ∃ field ∈ model.scalarFields, field.name = name ∧ ∃ store : Store,
    store.clock = origin.clock ∧ origin.Advances store ∧
      (store.defaultValue model field).1 = some value

/-- What an update stores under a name if it has come to a value: the value, unless it is null; then
    what the field is filled with, or the null if there is nothing. -/
inductive Settles (origin : Store) (model : Model) (name : String) : Value → Value → Prop where
  | kept {value : Value} (h : value.isNull = false) : Settles origin model name value value
  | filled {value filled : Value} (hnull : value.isNull = true)
      (h : origin.Fills model name filled) : Settles origin model name value filled
  | unfilled {value : Value} (hnull : value.isNull = true)
      (h : ∀ field ∈ model.scalarFields, field.name = name → ∀ store : Store,
        (store.defaultValue model field).1 = none) : Settles origin model name value value

/-- Whether there is anything to fill a field with does not depend on the store. -/
theorem defaultValue_eq_none (h : (store.defaultValue model field).1 = none) (other : Store) :
    (other.defaultValue model field).1 = none := by
  unfold defaultValue at h ⊢
  cases hdefault : field.default with
  | none =>
      rw [hdefault] at h
      dsimp only at h ⊢
      split at h
      · cases h
      · rename_i hstamp
        rw [if_neg hstamp]
  | some default =>
      rw [hdefault] at h
      cases default with
      | unknown name => rfl
      | literal value =>
          cases value with
          | string text =>
              dsimp only [fill] at h
              split at h <;> cases h
          | _ => cases h
      | _ => cases h

/-- Refreshing the field of a name that is written fills a null, if there is anything to fill it
    with. -/
theorem valueAt_refreshField_written {written : Record}
    (hwritten : Entries.contains field.name written = true) (record : Record) (store : Store) :
    valueAt field.name (refreshField model written record field store).1 =
      if (valueAt field.name record).isNull then
        (store.defaultValue model field).1.getD (valueAt field.name record)
      else valueAt field.name record := by
  rw [refreshField, hwritten, Bool.not_true, Bool.and_false, if_neg Bool.false_ne_true,
    Record.isNullAt]
  cases (valueAt field.name record).isNull with
  | false => rfl
  | true =>
      rcases store.defaultValue model field with ⟨_ | value, next⟩
      · rfl
      · simp only [if_true, Option.getD_some, valueAt, Entries.get?_insert_self]

/-- A value that is written under a name stays there while fields are refreshed, and only a null
    gives way to what one of the fields of the name is filled with. -/
theorem valueAt_refreshFields_written {written : Record}
    (hwritten : Entries.contains name written = true) {fields : List Field} :
    ∀ (record : Record) (store : Store), fields ⊆ model.scalarFields →
      store.clock = origin.clock → origin.Advances store →
      ((valueAt name record).isNull = false →
        valueAt name (refreshFields model written fields record store).1 = valueAt name record) ∧
      ((valueAt name record).isNull = true →
        origin.Fills model name
            (valueAt name (refreshFields model written fields record store).1) ∨
          valueAt name (refreshFields model written fields record store).1 = valueAt name record ∧
            ∀ field ∈ fields, field.name = name → ∀ store : Store,
              (store.defaultValue model field).1 = none) := by
  induction fields with
  | nil => exact fun _ _ _ _ _ => ⟨fun _ => rfl, fun _ => Or.inr ⟨rfl, List.forall_mem_nil _⟩⟩
  | cons field rest ih =>
      intro record store hsub hclock hadvances
      obtain ⟨hfield, hrest⟩ := List.cons_subset.mp hsub
      have hmoved := moved_refreshField model written record field store
      have hnext : (refreshField model written record field store).2.clock = origin.clock := by
        obtain ⟨counters, entropy, heq⟩ := hmoved.supplied
        rw [heq]
        exact hclock
      obtain ⟨hkept, hfilled⟩ := ih (refreshField model written record field store).1 _ hrest hnext
        (hadvances.trans hmoved.advances)
      by_cases hname : field.name = name
      · subst hname
        rw [valueAt_refreshField_written hwritten] at hkept hfilled
        refine ⟨fun hvalue => ?_, fun hnull => ?_⟩
        · rw [hvalue] at hkept
          exact hkept hvalue
        · rw [if_pos hnull] at hkept hfilled
          cases hdefault : (store.defaultValue model field).1 with
          | none =>
              rw [hdefault] at hfilled
              refine (hfilled hnull).imp_right fun ⟨hvalue, hnone⟩ =>
                ⟨hvalue, List.forall_mem_cons.mpr ⟨fun _ => defaultValue_eq_none hdefault, hnone⟩⟩
          | some value =>
              rw [hdefault] at hkept hfilled
              have hfills : origin.Fills model field.name value :=
                ⟨field, hfield, rfl, store, hclock, hadvances, hdefault⟩
              -- the default may itself be a null, which a later field of the name may fill
              cases hvalue : value.isNull with
              | false => exact Or.inl (hkept hvalue ▸ hfills)
              | true =>
                  rcases hfilled hvalue with hlater | ⟨hsame, -⟩
                  · exact Or.inl hlater
                  · exact Or.inl (hsame ▸ hfills)
      · have hsame : valueAt name (refreshField model written record field store).1 =
            valueAt name record := by
          rw [valueAt, Model.get?_refreshField store (fun h => absurd h hname)
            fun _ h => absurd h hname, valueAt]
        rw [hsame] at hkept hfilled
        exact ⟨hkept, fun hnull => (hfilled hnull).imp_right fun hopen =>
          ⟨hopen.1, List.forall_mem_cons.mpr ⟨fun h => absurd h hname, hopen.2⟩⟩⟩

/-- What is written under a name settles when the record is refreshed. -/
theorem settles_refreshFields {written : Record}
    (hwritten : Entries.contains name written = true) (record : Record)
    (hclock : store.clock = origin.clock) (hadvances : origin.Advances store) :
    origin.Settles model name (valueAt name record)
      (valueAt name (refreshFields model written model.scalarFields record store).1) := by
  obtain ⟨hkept, hfilled⟩ := valueAt_refreshFields_written hwritten record store
    (List.Subset.refl model.scalarFields) hclock hadvances
  cases hnull : (valueAt name record).isNull with
  | false =>
      rw [hkept hnull]
      exact .kept hnull
  | true =>
      rcases hfilled hnull with hfills | ⟨hvalue, hnone⟩
      · exact .filled hnull hfills
      · rw [hvalue]
        exact .unfilled hnull hnone

end Store

end RecordStore
