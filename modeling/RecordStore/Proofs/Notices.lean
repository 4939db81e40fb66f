import RecordStore.Proofs.Equality
import RecordStore.Proofs.Run

/-!
# What notices tell

Whoever writes a collection leaves a notice of it.  What a store holds is therefore what an earlier
store has held, as far as it has not been told otherwise since; and a record that a write has stored
is listed at the moment of one of its notices, even if later notices list it no more.
-/

namespace RecordStore

/-- A list has a record, or one that is equal to it field for field. -/
def Record.IsAmong (record : Record) (records : List Record) : Prop :=
  ∃ stored ∈ records, record = stored ∨ Record.same record stored = true

namespace Record.IsAmong

variable {record other : Record} {records : List Record}

theorem of_mem (h : record ∈ records) : record.IsAmong records := ⟨record, h, Or.inl rfl⟩

/-- So has it every record that is equal to one that it has. -/
theorem of_same (h : record.IsAmong records) (hsame : Record.same other record = true) :
    other.IsAmong records := by
  obtain ⟨stored, hstored, rfl | hstands⟩ := h
  · exact ⟨record, hstored, Or.inr hsame⟩
  · exact ⟨stored, hstored, Or.inr (Record.same_trans hsame hstands)⟩

end Record.IsAmong

namespace Notice

/-- What a collection holds after some notices, the newest of which come first: what the newest one
    of the collection lists, and what it held before if there is none. -/
def listed (before : List Record) (name : String) (notices : List Notice) : List Record :=
  match notices.find? fun notice => notice.model = name with
  | some notice => notice.records
  | none => before

variable {before records : List Record} {name other : String} {notices : List Notice}

theorem listed_cons_self : listed before name (⟨name, records⟩ :: notices) = records := by
  simp [listed]

theorem listed_cons_of_ne (h : name ≠ other) :
    listed before name (⟨other, records⟩ :: notices) = listed before name notices := by
  simp [listed, h.symm]

/-- Later notices decide, if there are any of the collection. -/
theorem listed_append (later notices : List Notice) :
    listed before name (later ++ notices) = listed (listed before name notices) name later := by
  simp only [listed, List.find?_append]
  cases later.find? fun notice => notice.model = name <;> rfl

end Notice

namespace Store

/-- A store that has come from an earlier one leaving some notices, and holds what they list. -/
structure Told (origin store : Store) (recent : List Notice) : Prop where
  schema_eq : store.schema = origin.schema
  notices : store.notices = recent ++ origin.notices
  items : ∀ name, store.items name = Notice.listed (origin.items name) name recent

variable {origin store next : Store} {recent : List Notice}

theorem Told.refl : Told store store [] := ⟨rfl, rfl, fun _ => rfl⟩

/-- A collection that is written is listed by the notice of it. -/
theorem Told.replaceCollection (h : Told origin store recent) (name : String)
    (records : List Record) :
    Told origin (store.replaceCollection name records) (⟨name, records⟩ :: recent) := by
  refine ⟨h.schema_eq, congrArg _ h.notices, fun other => ?_⟩
  by_cases hname : other = name
  · subst hname
    rw [items_replaceCollection_self, Notice.listed_cons_self]
  · rw [items_replaceCollection_of_ne hname, Notice.listed_cons_of_ne hname]
    exact h.items other

/-- Where the collections stay, nothing needs to be told. -/
theorem Told.congr (h : Told origin store recent) (hschema : next.schema = store.schema)
    (hnotices : next.notices = store.notices) (hcollections : next.collections = store.collections) :
    Told origin next recent := by
  refine ⟨hschema.trans h.schema_eq, hnotices.trans h.notices, fun name => ?_⟩
  rw [← h.items name]
  show (Entries.get? name next.collections).getD [] = _
  rw [hcollections]
  rfl

/-- What is known are the records that have been listed at some moment since. -/
def mirrored (origin : Store) : Upkeep where
  Holds store := ∃ recent, Told origin store recent
  Knows store model record := ∃ later earlier, store.notices = later ++ earlier ++ origin.notices ∧
    record.IsAmong (Notice.listed (origin.items model.name) model.name earlier)
  Admits _ _ := True

/-- What is stored now is listed by all notices so far. -/
theorem Told.knows (h : Told origin store recent) {model : Model} {record : Record}
    (hrecord : record ∈ store.items model.name) : (mirrored origin).Knows store model record :=
  ⟨[], recent, h.notices, .of_mem (h.items model.name ▸ hrecord)⟩

/-- What has been listed once stays known. -/
theorem leads_mirrored (h : Told origin next recent) (more : List Notice)
    (hmore : next.notices = more ++ store.notices) : (mirrored origin).Leads store next := by
  refine ⟨⟨recent, h⟩, fun model record ⟨later, earlier, hnotices, hamong⟩ => ?_⟩
  refine ⟨more ++ later, earlier, ?_, hamong⟩
  rw [hmore, hnotices, List.append_assoc, List.append_assoc, List.append_assoc]

theorem lawful_mirrored (origin : Store) : (mirrored origin).Lawful origin.schema := by
  have hwritten {store : Store} (hstore : (mirrored origin).Holds store) (name : String)
      (records : List Record) :
      (mirrored origin).Leads store (store.replaceCollection name records) := by
    obtain ⟨recent, htold⟩ := hstore
    exact leads_mirrored (htold.replaceCollection name records) [⟨name, records⟩] rfl
  have hknown {store : Store} (hstore : (mirrored origin).Holds store) {model : Model}
      {records : List Record} {record : Record} (hrecord : record ∈ records) :
      (mirrored origin).Knows (store.replaceCollection model.name records) model record := by
    obtain ⟨recent, htold⟩ := hstore
    refine (htold.replaceCollection model.name records).knows ?_
    rw [items_replaceCollection_self]
    exact hrecord
  have hleft {store next : Store} (hstore : (mirrored origin).Holds store)
      (hschema : next.schema = store.schema) (hnotices : next.notices = store.notices)
      (hcollections : next.collections = store.collections) :
      (mirrored origin).Leads store next := by
    obtain ⟨recent, htold⟩ := hstore
    exact leads_mirrored (htold.congr hschema hnotices hcollections) [] hnotices
  constructor
  case schema_eq => exact fun ⟨_, htold⟩ => htold.schema_eq
  case stored => exact fun ⟨_, htold⟩ _ hrecord => htold.knows hrecord
  case supply => exact fun _ _ hstore _ => hleft hstore rfl rfl rfl
  case insert =>
    intro store model record hstore _ _ _
    refine ⟨hwritten hstore _ _, hknown hstore ?_⟩
    exact List.mem_append_right _ (List.mem_singleton_self record)
  case same =>
    rintro store model current next - - ⟨later, earlier, hnotices, hamong⟩ - hsame
    exact ⟨later, earlier, hnotices, hamong.of_same hsame⟩
  case replace =>
    intro store changed model current next hstore _ _ _ hswap
    obtain ⟨replaced, hreplaced, rfl⟩ := Option.map_eq_some_iff.mp hswap
    obtain ⟨before, _, later, -, -, -, rfl⟩ := split_of_replaceFirst hreplaced
    refine ⟨hwritten hstore _ _, hknown hstore ?_⟩
    exact List.mem_append_right _ List.mem_cons_self
  case remove => exact fun hstore _ => hwritten hstore _ _
  case detach =>
    intro store model field scope hstore _ _
    unfold Store.detach
    split
    · exact hwritten hstore _ _
    · exact .refl hstore
  case link => exact fun hstore _ _ _ _ _ _ => hleft hstore rfl rfl rfl
  case unlink => exact fun _ _ _ _ hstore => hleft hstore rfl rfl rfl
  case cleanup => exact fun _ _ hstore => hleft hstore rfl rfl rfl
  all_goals intros; trivial

end Store

end RecordStore
