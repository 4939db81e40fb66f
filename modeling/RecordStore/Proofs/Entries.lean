import RecordStore.Entries

/-!
# Looking up entries

What a look-up finds after entries have been written, taken or gathered by name.
-/

namespace RecordStore

namespace Entries

variable {α : Type}

/-- The names are those under which a look-up finds something. -/
theorem mem_keys_iff (name : String) (entries : Entries α) :
    name ∈ keys entries ↔ contains name entries = true := by
  induction entries with
  | nil => exact ⟨(nomatch ·), (nomatch ·)⟩
  | cons entry rest ih =>
      obtain ⟨key, value⟩ := entry
      show name ∈ key :: keys rest ↔ (get? name ((key, value) :: rest)).isSome = true
      rw [List.mem_cons, get?_cons]
      by_cases h : key = name
      · simp [h]
      · rw [if_neg h]
        exact ⟨fun hor => hor.elim (fun heq => absurd heq.symm h) ih.mp, fun hin => Or.inr (ih.mpr hin)⟩

/-- What a look-up finds is the value of an entry. -/
theorem mem_of_get?_eq_some {name : String} {value : α} {entries : Entries α}
    (h : get? name entries = some value) : (name, value) ∈ entries := by
  induction entries with
  | nil => cases h
  | cons entry rest ih =>
      obtain ⟨key, first⟩ := entry
      rw [get?_cons] at h
      split at h
      · rename_i hkey
        rw [hkey, Option.some.inj h]
        exact List.mem_cons_self
      · exact List.mem_cons_of_mem _ (ih h)

/-- Values that are changed in their places are found changed. -/
theorem get?_map {β : Type} {f : String × α → String × β} (hkey : ∀ entry, (f entry).1 = entry.1)
    (name : String) (entries : Entries α) :
    get? name (entries.map f) = (get? name entries).map fun value => (f (name, value)).2 := by
  induction entries with
  | nil => rfl
  | cons entry rest ih =>
      obtain ⟨key, value⟩ := entry
      rw [List.map_cons, show f (key, value) = (key, (f (key, value)).2) from
        Prod.ext (hkey (key, value)) rfl, get?_cons, get?_cons]
      by_cases h : key = name
      · subst h
        rw [if_pos rfl, if_pos rfl]
        rfl
      · rw [if_neg h, if_neg h]
        exact ih

/-- Entries that come first answer for their names. -/
theorem get?_append (name : String) (entries more : Entries α) :
    get? name (entries ++ more) = (get? name entries).or (get? name more) := by
  induction entries with
  | nil => rfl
  | cons entry rest ih =>
      obtain ⟨key, value⟩ := entry
      rw [List.cons_append, get?_cons, get?_cons]
      by_cases h : key = name
      · rw [if_pos h, if_pos h, Option.some_or]
      · rw [if_neg h, if_neg h, ih]

/-- What is left after a name was erased are the entries under other names. -/
theorem get?_erase (name erased : String) (entries : Entries α) :
    get? name (erase erased entries) = if name = erased then none else get? name entries := by
  induction entries with
  | nil => simp [erase]
  | cons entry rest ih =>
      obtain ⟨key, value⟩ := entry
      unfold erase at ih ⊢
      by_cases hkey : key = erased
      · subst hkey
        rw [List.filter_cons_of_neg (by simp), ih, get?_cons]
        by_cases h : name = key
        · rw [if_pos h, if_pos h]
        · rw [if_neg h, if_neg h, if_neg (Ne.symm h)]
      · rw [List.filter_cons_of_pos (by simpa using hkey), get?_cons, ih, get?_cons]
        by_cases h : key = name
        · subst h
          rw [if_pos rfl, if_pos rfl, if_neg hkey]
        · rw [if_neg h, if_neg h]

/-! ## All entries under a name -/

/-- The first entry answers for its name. -/
theorem valuesAt_cons_self (key : String) (value : α) (rest : Entries α) :
    valuesAt key ((key, value) :: rest) = value :: valuesAt key rest := by
  simp [valuesAt]

/-- The first entry has no say in other names. -/
theorem valuesAt_cons_of_ne {key name : String} (h : key ≠ name) (value : α)
    (rest : Entries α) : valuesAt name ((key, value) :: rest) = valuesAt name rest := by
  simp [valuesAt, h]

/-- What a look-up finds is the first of the values under the name. -/
theorem get?_eq_head?_valuesAt (name : String) (entries : Entries α) :
    get? name entries = (valuesAt name entries).head? := by
  induction entries with
  | nil => rfl
  | cons entry rest ih =>
      obtain ⟨key, value⟩ := entry
      by_cases h : key = name
      · subst h
        rw [valuesAt_cons_self, get?_cons, if_pos rfl]
        rfl
      · rw [valuesAt_cons_of_ne h, get?_cons, if_neg h]
        exact ih

/-- A value under a name belongs to an entry. -/
theorem mem_of_mem_valuesAt {name : String} {value : α} {entries : Entries α}
    (h : value ∈ valuesAt name entries) : (name, value) ∈ entries := by
  obtain ⟨⟨key, found⟩, hmem, rfl⟩ := List.mem_map.mp h
  obtain ⟨hin, hkey⟩ := List.mem_filter.mp hmem
  have : key = name := of_decide_eq_true hkey
  rw [← this]
  exact hin

/-- A name is missing exactly when there are no values under it. -/
theorem take?_eq_none_iff (name : String) (entries : Entries α) :
    take? name entries = none ↔ valuesAt name entries = [] := by
  induction entries with
  | nil => exact ⟨fun _ => rfl, fun _ => rfl⟩
  | cons entry rest ih =>
      obtain ⟨key, value⟩ := entry
      by_cases h : key = name
      · subst h
        rw [valuesAt_cons_self, take?, if_pos rfl]
        exact ⟨(nomatch ·), (nomatch ·)⟩
      · rw [valuesAt_cons_of_ne h, take?, if_neg h, Option.map_eq_none_iff]
        exact ih

/-- Taking a name takes the first of its values, and leaves all other names alone. -/
theorem valuesAt_of_take? {name : String} {value : α} {entries others : Entries α}
    (h : take? name entries = some (value, others)) :
    valuesAt name entries = value :: valuesAt name others ∧
      ∀ other, other ≠ name → valuesAt other entries = valuesAt other others := by
  induction entries generalizing others with
  | nil => cases h
  | cons entry rest ih =>
      obtain ⟨key, first⟩ := entry
      by_cases hk : key = name
      · subst hk
        rw [take?, if_pos rfl] at h
        obtain ⟨rfl, rfl⟩ := Prod.mk.inj (Option.some.inj h)
        exact ⟨valuesAt_cons_self _ _ _, fun other hne => valuesAt_cons_of_ne hne.symm _ _⟩
      · rw [take?, if_neg hk] at h
        obtain ⟨⟨found, left⟩, hfound, hpair⟩ := Option.map_eq_some_iff.mp h
        obtain ⟨rfl, rfl⟩ := Prod.mk.inj hpair
        obtain ⟨hself, hother⟩ := ih hfound
        refine ⟨?_, fun other hne => ?_⟩
        · rw [valuesAt_cons_of_ne hk, valuesAt_cons_of_ne hk]
          exact hself
        · by_cases ho : key = other
          · subst ho
            rw [valuesAt_cons_self, valuesAt_cons_self, hother key hne]
          · rw [valuesAt_cons_of_ne ho, valuesAt_cons_of_ne ho]
            exact hother other hne

/-! ## Writing entries -/

/-- What is written is either there already or the new entry. -/
theorem mem_insert {name : String} {new : α} {entries : Entries α} {entry : String × α}
    (h : entry ∈ insert name new entries) : entry = (name, new) ∨ entry ∈ entries := by
  induction entries with
  | nil => exact Or.inl (List.mem_singleton.mp h)
  | cons first rest ih =>
      rw [insert] at h
      split at h
      · rename_i hkey
        rcases List.mem_cons.mp h with rfl | hrest
        · exact Or.inl (by rw [hkey])
        · exact Or.inr (List.mem_cons_of_mem _ hrest)
      · rcases List.mem_cons.mp h with rfl | hrest
        · exact Or.inr List.mem_cons_self
        · rcases ih hrest with hnew | hold
          · exact Or.inl hnew
          · exact Or.inr (List.mem_cons_of_mem _ hold)

/-- Writing adds its name and no other. -/
theorem mem_keys_insert {name other : String} {new : α} {entries : Entries α} :
    other ∈ keys (insert name new entries) ↔ other = name ∨ other ∈ keys entries := by
  cases h : contains name entries with
  | true =>
      rw [keys_insert_of_contains h]
      refine ⟨Or.inr, fun hor => hor.elim (fun heq => ?_) id⟩
      rw [heq]
      exact (mem_keys_iff name entries).mpr h
  | false =>
      rw [keys_insert_of_not_contains h, List.mem_append, List.mem_singleton]
      exact Or.comm

/-- Names stay related in order if a name is written to which all others are related: it keeps its
    place, or comes after them. -/
theorem pairwise_keys_insert {R : String → String → Prop} {name : String} {entries : Entries α}
    (hname : ∀ other, other ≠ name → R other name) (h : (keys entries).Pairwise R) (new : α) :
    (keys (insert name new entries)).Pairwise R := by
  cases hcontains : contains name entries with
  | true => rwa [keys_insert_of_contains hcontains]
  | false =>
      rw [keys_insert_of_not_contains hcontains]
      refine List.pairwise_append.mpr
        ⟨h, List.pairwise_singleton R name, fun other hother last hlast => ?_⟩
      rw [List.mem_singleton.mp hlast]
      refine hname other fun heq => ?_
      rw [heq, mem_keys_iff, hcontains] at hother
      cases hother

/-- So they do if several such names are written. -/
theorem pairwise_keys_insertAll {R : String → String → Prop} {more : Entries α} :
    ∀ {entries : Entries α}, (∀ name ∈ keys more, ∀ other, other ≠ name → R other name) →
      (keys entries).Pairwise R → (keys (insertAll entries more)).Pairwise R := by
  induction more with
  | nil => exact fun _ h => h
  | cons entry rest ih =>
      intro entries hmore h
      obtain ⟨hfirst, hrest⟩ := List.forall_mem_cons.mp hmore
      exact ih hrest (pairwise_keys_insert hfirst h entry.2)

/-- What several entries are written into holds what it held and what is written. -/
theorem mem_insertAll {more : Entries α} {entry : String × α} :
    ∀ {entries : Entries α}, entry ∈ insertAll entries more → entry ∈ entries ∨ entry ∈ more := by
  induction more with
  | nil => exact fun h => Or.inl h
  | cons first rest ih =>
      intro entries h
      rcases ih h with hold | hrest
      · rcases mem_insert hold with rfl | hkept
        · exact Or.inr List.mem_cons_self
        · exact Or.inl hkept
      · exact Or.inr (List.mem_cons_of_mem _ hrest)

/-- Writing under names that are present keeps the list of names. -/
theorem keys_insertAll_of_subset {more : Entries α} :
    ∀ {entries : Entries α}, keys more ⊆ keys entries →
      keys (insertAll entries more) = keys entries := by
  induction more with
  | nil => exact fun _ => rfl
  | cons entry rest ih =>
      intro entries hpresent
      obtain ⟨hfirst, hrest⟩ := List.cons_subset.mp hpresent
      have hkept := keys_insert_of_contains ((mem_keys_iff entry.1 entries).mp hfirst) entry.2
      show keys (insertAll (insert entry.1 entry.2 entries) rest) = _
      rw [ih (hkept.symm ▸ hrest), hkept]

/-- Entries written under other names leave a look-up alone. -/
theorem get?_insertAll_of_notMem {name : String} {more : Entries α} (h : name ∉ keys more)
    (entries : Entries α) : get? name (insertAll entries more) = get? name entries := by
  induction more generalizing entries with
  | nil => rfl
  | cons entry rest ih =>
      obtain ⟨hne, hrest⟩ := not_or.mp (mt List.mem_cons.mpr h)
      show get? name (insertAll (insert entry.1 entry.2 entries) rest) = _
      rw [ih hrest, get?_insert_of_ne hne]

/-- A value that all entries written under a name have is the one found there. -/
theorem get?_insertAll_of_forall {name : String} {value : α} {more : Entries α}
    (hmem : name ∈ keys more) (hall : ∀ entry ∈ more, entry.1 = name → entry.2 = value)
    (entries : Entries α) : get? name (insertAll entries more) = some value := by
  induction more generalizing entries with
  | nil => cases hmem
  | cons entry rest ih =>
      show get? name (insertAll (insert entry.1 entry.2 entries) rest) = _
      by_cases hrest : name ∈ keys rest
      · exact ih hrest (fun other hother => hall other (List.mem_cons_of_mem _ hother)) _
      · -- the first entry is then the only one under the name
        have hkey : entry.1 = name := by
          rcases List.mem_cons.mp hmem with h | h
          · exact h.symm
          · exact absurd h hrest
        rw [get?_insertAll_of_notMem hrest, ← hkey, get?_insert_self]
        exact congrArg some (hall entry List.mem_cons_self hkey)

end Entries

end RecordStore
