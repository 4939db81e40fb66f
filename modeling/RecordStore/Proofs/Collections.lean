import RecordStore.Proofs.Entries
import RecordStore.Store

/-!
# Writing collections

What the collections hold after one of them has been written, and which record is hit when the
first one equal to a given record is replaced or removed.
-/

namespace RecordStore

namespace Store

/-! ## Records of a collection -/

/-- The empty store holds no records. -/
theorem items_ofSchema (schema : Schema) (clock : Int) (entropy : Entropy) (name : String) :
    (ofSchema schema clock entropy).items name = [] := by
  unfold items
  cases hfound : Entries.get? name (ofSchema schema clock entropy).collections with
  | none => rfl
  | some records =>
      obtain ⟨model, -, heq⟩ := List.mem_map.mp (Entries.mem_of_get?_eq_some hfound)
      exact (Prod.mk.inj heq).2.symm

/-- The collection that is written holds what was written. -/
theorem items_replaceCollection_self (store : Store) (name : String) (records : List Record) :
    (store.replaceCollection name records).items name = records := by
  unfold items replaceCollection
  rw [Entries.get?_insert_self]
  rfl

/-- All other collections stay. -/
theorem items_replaceCollection_of_ne {name other : String} (h : other ≠ name) (store : Store)
    (records : List Record) :
    (store.replaceCollection name records).items other = store.items other := by
  unfold items replaceCollection
  rw [Entries.get?_insert_of_ne h]

/-! ## The first record equal to a given one -/

/-- Replacing takes the first record equal to the current one out of its place. -/
theorem split_of_replaceFirst {current next : Record} {records replaced : List Record}
    (h : replaceFirst current next records = some replaced) :
    ∃ before old later, records = before ++ old :: later ∧
      (∀ record ∈ before, Record.same record current = false) ∧ Record.same old current = true ∧
      replaced = before ++ next :: later := by
  induction records generalizing replaced with
  | nil => cases h
  | cons record rest ih =>
      rw [replaceFirst] at h
      split at h
      · rename_i hsame
        exact ⟨[], record, rest, rfl, List.forall_mem_nil _, hsame, (Option.some.inj h).symm⟩
      · rename_i hdiffers
        obtain ⟨others, hothers, rfl⟩ := Option.map_eq_some_iff.mp h
        obtain ⟨before, old, later, rfl, hbefore, hsame, rfl⟩ := ih hothers
        refine ⟨record :: before, old, later, rfl, ?_, hsame, rfl⟩
        exact List.forall_mem_cons.mpr ⟨Bool.not_eq_true _ ▸ hdiffers, hbefore⟩

/-- A collection is written with a record swapped for another one in its place. -/
theorem split_of_swap {store changed : Store} {name : String} {current next : Record}
    (h : store.swap name current next = some changed) :
    ∃ before old later, store.items name = before ++ old :: later ∧
      (∀ record ∈ before, Record.same record current = false) ∧ Record.same old current = true ∧
      changed = store.replaceCollection name (before ++ next :: later) := by
  obtain ⟨replaced, hreplaced, rfl⟩ := Option.map_eq_some_iff.mp h
  obtain ⟨before, old, later, hitems, hbefore, hsame, rfl⟩ := split_of_replaceFirst hreplaced
  exact ⟨before, old, later, hitems, hbefore, hsame, rfl⟩

/-- Removing takes out the first record equal to the target. -/
theorem split_of_removeFirst {target : Record} {records kept : List Record}
    (h : removeFirst target records = some kept) :
    ∃ before old later, records = before ++ old :: later ∧
      (∀ record ∈ before, Record.same record target = false) ∧ Record.same old target = true ∧
      kept = before ++ later := by
  induction records generalizing kept with
  | nil => cases h
  | cons record rest ih =>
      rw [removeFirst] at h
      split at h
      · rename_i hsame
        exact ⟨[], record, rest, rfl, List.forall_mem_nil _, hsame, (Option.some.inj h).symm⟩
      · rename_i hdiffers
        obtain ⟨others, hothers, rfl⟩ := Option.map_eq_some_iff.mp h
        obtain ⟨before, old, later, rfl, hbefore, hsame, rfl⟩ := ih hothers
        refine ⟨record :: before, old, later, rfl, ?_, hsame, rfl⟩
        exact List.forall_mem_cons.mpr ⟨Bool.not_eq_true _ ▸ hdiffers, hbefore⟩

/-- Nothing is removed when no record equals the target. -/
theorem removeFirst_eq_none {target : Record} {records : List Record}
    (h : removeFirst target records = none) :
    ∀ record ∈ records, Record.same record target = false := by
  induction records with
  | nil => exact List.forall_mem_nil _
  | cons record rest ih =>
      rw [removeFirst] at h
      split at h
      · cases h
      · rename_i hdiffers
        have hrest := ih (Option.map_eq_none_iff.mp h)
        exact List.forall_mem_cons.mpr ⟨Bool.not_eq_true _ ▸ hdiffers, hrest⟩

/-- A collection without its first record equal to a target is a part of it. -/
theorem sublist_of_removeFirst {target : Record} {records kept : List Record}
    (h : removeFirst target records = some kept) : kept.Sublist records := by
  obtain ⟨before, old, later, rfl, -, -, rfl⟩ := split_of_removeFirst h
  exact (List.sublist_cons_self old later).append_left before

/-- A collection without its first record equal to a target has one record less. -/
theorem length_of_removeFirst {target : Record} {records kept : List Record}
    (h : removeFirst target records = some kept) : records.length = kept.length + 1 := by
  obtain ⟨before, old, later, rfl, -, -, rfl⟩ := split_of_removeFirst h
  simp only [List.length_append, List.length_cons]
  omega

end Store

end RecordStore
