import RecordStore.Write.Record

/-!
# Filling open fields

Whatever fills the open fields of a record, the store changes in its counters and in its source of
random digits at most, and no counter goes back.
-/

namespace RecordStore

namespace Store

/-- A store that differs only in its counters and its source of random digits. -/
def Supplied (store next : Store) : Prop :=
  ∃ counters entropy, next = { store with counters, entropy }

/-- The integer that a counter has counted to; none when there is no such counter. -/
def counter? (store : Store) (model field : String) : Option Int :=
  Entries.get? field (store.countersOf model)

/-- The word that a counter shows, and gives out next; none when there is no such counter. -/
def shown? (store : Store) (model field : String) : Option Int :=
  (store.counter? model field).map (wrap 64)

/-- Every counter is still there, and as far as it was or farther. -/
def Advances (store next : Store) : Prop :=
  ∀ model field counter, store.counter? model field = some counter →
    ∃ later, next.counter? model field = some later ∧ counter ≤ later

variable {store next last : Store} {model field : String}

theorem Supplied.refl : Supplied store store := ⟨store.counters, store.entropy, rfl⟩

theorem Supplied.trans (h : Supplied store next) (h' : Supplied next last) :
    Supplied store last := by
  obtain ⟨_, _, rfl⟩ := h
  obtain ⟨counters, entropy, rfl⟩ := h'
  exact ⟨counters, entropy, rfl⟩

/-! ### What does not change -/

/-- No time passes while fields are filled. -/
theorem Supplied.clock_eq (h : Supplied store next) : next.clock = store.clock := by
  obtain ⟨counters, entropy, rfl⟩ := h
  rfl

/-- The collections stay as they are. -/
theorem Supplied.items_eq (h : Supplied store next) (name : String) :
    next.items name = store.items name := by
  obtain ⟨counters, entropy, rfl⟩ := h
  rfl

theorem Advances.refl : Advances store store :=
  fun _ _ counter h => ⟨counter, h, Int.le_refl counter⟩

theorem Advances.trans (h : Advances store next) (h' : Advances next last) :
    Advances store last := by
  intro model field counter hcounter
  obtain ⟨later, hlater, hle⟩ := h model field counter hcounter
  obtain ⟨latest, hlatest, hle'⟩ := h' model field later hlater
  exact ⟨latest, hlatest, Int.le_trans hle hle'⟩

/-- Only the counters matter. -/
theorem Advances.of_eq (h : next.counters = store.counters) : Advances store next := by
  intro model field counter hcounter
  refine ⟨counter, ?_, Int.le_refl counter⟩
  unfold counter? countersOf at hcounter ⊢
  rw [h]
  exact hcounter

/-- A counter gives out the word that it stands at, and 1 if there is none. -/
theorem takeCounter_eq (store : Store) (model field : String) :
    (store.takeCounter model field).1 = wrap 64 ((store.counter? model field).getD 1) := rfl

/-- A counter that has given out a word has counted it. -/
theorem counter?_takeCounter_self (store : Store) (model field : String) :
    (store.takeCounter model field).2.counter? model field =
      some ((store.counter? model field).getD 1 + 1) := by
  simp only [counter?, countersOf, takeCounter, Entries.get?_insert_self, Option.getD_some]

/-- The other counters stay. -/
theorem counter?_takeCounter_of_ne {other name : String} (h : ¬(other = model ∧ name = field))
    (store : Store) :
    (store.takeCounter model field).2.counter? other name = store.counter? other name := by
  simp only [counter?, countersOf, takeCounter]
  by_cases hmodel : other = model
  · subst hmodel
    have hname : name ≠ field := fun hname => h ⟨rfl, hname⟩
    rw [Entries.get?_insert_self, Option.getD_some, Entries.get?_insert_of_ne hname]
  · rw [Entries.get?_insert_of_ne hmodel]

/-- To draw a value takes one counter on. -/
theorem advances_takeCounter (store : Store) (model field : String) :
    Advances store (store.takeCounter model field).2 := by
  intro other name counter hcounter
  by_cases h : other = model ∧ name = field
  · obtain ⟨rfl, rfl⟩ := h
    refine ⟨_, counter?_takeCounter_self store other name, ?_⟩
    rw [hcounter, Option.getD_some]
    omega
  · exact ⟨counter, (counter?_takeCounter_of_ne h store).trans hcounter, Int.le_refl counter⟩

/-! ## Filling -/

/-- A store whose counters and source of random digits have moved on, and nothing else. -/
structure Moved (store next : Store) : Prop where
  supplied : Supplied store next
  advances : Advances store next

theorem Moved.refl : Moved store store := ⟨.refl, .refl⟩

theorem Moved.trans (h : Moved store next) (h' : Moved next last) : Moved store last :=
  ⟨h.supplied.trans h'.supplied, h.advances.trans h'.advances⟩

/-- To draw digits leaves the counters alone. -/
theorem moved_generate (store : Store) (draw : Entropy → String × Entropy) :
    Moved store (store.generate draw).2 :=
  ⟨⟨store.counters, (draw store.entropy).2, rfl⟩, .of_eq rfl⟩

/-- A default draws on one counter or on the source at most. -/
theorem moved_fill (store : Store) (model : Model) (field : Field) (default : Default) :
    Moved store (store.fill model field default).2 := by
  cases default with
  | literal value =>
      cases value with
      | string text =>
          rw [fill]
          split <;> exact .refl
      | _ => exact .refl
  | autoincrement =>
      exact ⟨⟨_, store.entropy, rfl⟩, advances_takeCounter store model.name field.name⟩
  | now => exact .refl
  | unknown name => exact .refl
  | _ =>
      simp only [fill, fill.some?]
      exact moved_generate store _

/-- A default draws a value, or digits, or nothing. -/
theorem moved_defaultValue (store : Store) (model : Model) (field : Field) :
    Moved store (store.defaultValue model field).2 := by
  unfold defaultValue
  split
  · exact moved_fill store model field _
  · exact .refl

/-- A field is laid out by what is given for it or by its default. -/
theorem moved_layField (model : Model) (field : Field) (given : Value) (store : Store) :
    Moved store (layField model field given store).2 := by
  unfold layField
  split
  · exact moved_defaultValue store model field
  · exact .refl

/-- Fields are laid out one by one. -/
theorem moved_layFields (model : Model) (fields : List Field) (given record : Record) :
    ∀ store, Moved store (layFields model fields given record store).2 := by
  induction fields generalizing given record with
  | nil => exact fun _ => .refl
  | cons field rest ih =>
      intro store
      exact (moved_layField model field _ store).trans (ih _ _ _)

theorem moved_materialize (model : Model) (given : Record) (store : Store) :
    Moved store (materialize model given store).2 := moved_layFields model _ given [] store

/-- A field that is refreshed takes a new default, if it takes anything. -/
theorem moved_refreshField (model : Model) (written record : Record) (field : Field)
    (store : Store) : Moved store (refreshField model written record field store).2 := by
  unfold refreshField
  split
  · exact .refl
  · split
    · have hdefault := moved_defaultValue store model field
      rcases hvalue : store.defaultValue model field with ⟨_ | value, next⟩ <;>
        rw [hvalue] at hdefault <;> exact hdefault
    · exact .refl

/-- Fields are refreshed one by one. -/
theorem moved_refreshFields (model : Model) (written : Record) (fields : List Field)
    (record : Record) :
    ∀ store, Moved store (refreshFields model written fields record store).2 := by
  induction fields generalizing record with
  | nil => exact fun _ => .refl
  | cons field rest ih =>
      intro store
      exact (moved_refreshField model written record field store).trans (ih _ _)

/-- Completing a record draws on the counters and the source at most. -/
theorem supplied_materialize (model : Model) (given : Record) (store : Store) :
    Supplied store (materialize model given store).2 := (moved_materialize model given store).supplied

/-- Refreshing a record draws on the counters and the source at most. -/
theorem supplied_refreshFields (model : Model) (written : Record) (fields : List Field)
    (record : Record) (store : Store) :
    Supplied store (refreshFields model written fields record store).2 :=
  (moved_refreshFields model written fields record store).supplied

end Store

end RecordStore
