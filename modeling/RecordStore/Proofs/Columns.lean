import RecordStore.Proofs.Entries
import RecordStore.Schema.Linkage

/-!
# Columns of records

What the columns of a record hold after some of them have been nulled.
-/

namespace RecordStore

namespace Record

/-- The names in a record with nulled columns are its own and those of the columns. -/
theorem mem_keys_unbind (columns : List String) (name : String) :
    ∀ record : Record, name ∈ Entries.keys (unbind columns record) ↔
      name ∈ columns ∨ name ∈ Entries.keys record := by
  induction columns with
  | nil => intro record; simp [unbind]
  | cons column rest ih =>
      intro record
      show name ∈ Entries.keys (unbind rest (Entries.insert column .null record)) ↔ _
      rw [ih, Entries.mem_keys_insert, List.mem_cons, or_left_comm, or_assoc]

/-- A record with only nulled columns holds nothing but nulls. -/
theorem eq_null_of_mem_unbind (columns : List String) :
    ∀ record : Record, (∀ entry ∈ record, entry.2 = .null) →
      ∀ entry ∈ unbind columns record, entry.2 = .null := by
  induction columns with
  | nil => exact fun _ h => h
  | cons column rest ih =>
      intro record hrecord
      refine ih _ fun entry hentry => ?_
      rcases Entries.mem_insert hentry with rfl | hold
      · rfl
      · exact hrecord entry hold

/-- A record that is unbound has nulls in the columns, and keeps everything else. -/
theorem get?_unbind (columns : List String) (name : String) :
    ∀ record : Record, Entries.get? name (unbind columns record) =
      if name ∈ columns then some .null else Entries.get? name record := by
  induction columns with
  | nil => intro record; simp [unbind]
  | cons column rest ih =>
      intro record
      show Entries.get? name (unbind rest (Entries.insert column .null record)) = _
      rw [ih]
      by_cases hrest : name ∈ rest
      · rw [if_pos hrest, if_pos (List.mem_cons_of_mem _ hrest)]
      · rw [if_neg hrest]
        by_cases hname : name = column
        · subst hname
          rw [if_pos List.mem_cons_self, Entries.get?_insert_self]
        · rw [if_neg (not_or.mpr ⟨hname, hrest⟩ ∘ List.mem_cons.mp), Entries.get?_insert_of_ne hname]

/-- A column that is null stays null when a record is unbound. -/
theorem isNullAt_unbind {name : String} {record : Record} (h : isNullAt name record = true)
    (columns : List String) : isNullAt name (unbind columns record) = true := by
  simp only [isNullAt, valueAt, get?_unbind] at h ⊢
  split
  · rfl
  · exact h

/-- A column that is null stays null when nothing but null is written into it. -/
theorem isNullAt_insert {name key : String} {value : Value} {record : Record}
    (h : isNullAt name record = true) (hvalue : key = name → value = .null) :
    isNullAt name (Entries.insert key value record) = true := by
  by_cases hname : name = key
  · subst hname
    rw [isNullAt, valueAt, Entries.get?_insert_self, hvalue rfl]
    rfl
  · rw [isNullAt, valueAt, Entries.get?_insert_of_ne hname]
    exact h

/-- Writing nulls into columns changes these and nothing else. -/
theorem get?_insertAll_unbind (columns : List String) (name : String) (record : Record) :
    Entries.get? name (Entries.insertAll record (unbind columns [])) =
      if name ∈ columns then some .null else Entries.get? name record := by
  have hkeys := mem_keys_unbind columns name []
  by_cases h : name ∈ columns
  · rw [if_pos h]
    refine Entries.get?_insertAll_of_forall (hkeys.mpr (Or.inl h)) (fun entry hentry _ => ?_) _
    exact eq_null_of_mem_unbind columns [] (List.forall_mem_nil _) entry hentry
  · rw [if_neg h]
    refine Entries.get?_insertAll_of_notMem (fun hname => ?_) _
    rcases hkeys.mp hname with hcolumn | hnil
    · exact h hcolumn
    · cases hnil

end Record

/-- Binding a record writes the values that its columns refer to, each under its column. -/
theorem Linkage.bind_eq_insertAll (linkage : Linkage) (record target : Record) :
    linkage.bind record target = Entries.insertAll record
      (linkage.columns.map fun pair => (pair.1, Record.valueAt pair.2 target)) := by
  rw [Entries.insertAll, List.foldl_map]
  rfl

/-- Binding a record writes its own columns of the link and nothing else. -/
theorem Linkage.get?_bind_of_notMem {linkage : Linkage} {name : String}
    (h : name ∉ linkage.localColumns) (record target : Record) :
    Entries.get? name (linkage.bind record target) = Entries.get? name record := by
  rw [bind_eq_insertAll]
  refine Entries.get?_insertAll_of_notMem (fun hmem => ?_) record
  obtain ⟨entry, hentry, rfl⟩ := List.mem_map.mp hmem
  obtain ⟨pair, hpair, rfl⟩ := List.mem_map.mp hentry
  exact h (List.of_mem_zip hpair).1

/-- A column that is null stays null when a record is bound by other columns. -/
theorem Linkage.isNullAt_bind_of_notMem {linkage : Linkage} {name : String}
    (hname : name ∉ linkage.localColumns) {record : Record}
    (h : Record.isNullAt name record = true) (target : Record) :
    Record.isNullAt name (linkage.bind record target) = true := by
  rw [Record.isNullAt, Record.valueAt, get?_bind_of_notMem hname]
  exact h

end RecordStore
