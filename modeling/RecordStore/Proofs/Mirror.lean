import RecordStore.Proofs.Counters
import RecordStore.Proofs.Failure
import RecordStore.Proofs.Notices

/-!
# Listeners

A listener is given every notice that is left from the moment it is registered, in the order in
which they are left.  No action changes a collection behind its back: whatever an action does, and
whether it fails or not, the last notice of a collection that it has changed shows the collection as
the action leaves it.  A listener that copies what it is given therefore always mirrors the store.
-/

namespace RecordStore

namespace Notice

variable {before : String → List Record} {records : List Record} {name : String}
  {notices : List Notice}

/-- The collections of a listener that copies what it is given, after some notices in the order of
    their delivery. -/
def copied (before : String → List Record) (notices : List Notice) : String → List Record :=
  notices.foldl (fun copy notice => Function.update copy notice.model notice.records) before

/-- The copy of a collection is what the newest notice of it lists. -/
theorem copied_eq_listed (name : String) : ∀ (notices : List Notice) (before : String → List Record),
    copied before notices name = listed (before name) name notices.reverse := by
  intro notices
  induction notices with
  | nil => exact fun _ => rfl
  | cons notice rest ih =>
      intro before
      have hfirst : Function.update before notice.model notice.records name =
          listed (before name) name [notice] := by
        by_cases hname : name = notice.model
        · rw [hname, Function.update_self, listed_cons_self]
        · rw [Function.update_of_ne hname, listed_cons_of_ne hname]
          rfl
      calc copied before (notice :: rest) name
          = listed (listed (before name) name [notice]) name rest.reverse := by
            rw [← hfirst]
            exact ih _
        _ = listed (before name) name (notice :: rest).reverse := by
            rw [List.reverse_cons, listed_append]

/-- What is listed is either as it was before or has a newest notice. -/
theorem listed_cases (records : List Record) (name : String) (notices : List Notice) :
    listed records name notices = records ∨ ∃ later notice earlier,
      notices = later ++ notice :: earlier ∧ notice.model = name ∧
        notice.records = listed records name notices ∧ ∀ other ∈ later, other.model ≠ name := by
  unfold listed
  cases hfound : notices.find? fun notice => notice.model = name with
  | none => exact Or.inl rfl
  | some notice =>
      obtain ⟨hmodel, later, earlier, rfl, hlater⟩ := List.find?_eq_some_iff_append.mp hfound
      refine Or.inr ⟨later, notice, earlier, rfl, of_decide_eq_true hmodel, rfl, ?_⟩
      intro other hother heq
      have hother := hlater other hother
      rw [heq, decide_eq_true rfl] at hother
      cases hother

end Notice

namespace Store

variable {origin store next : Store} {recent later : List Notice} {name : String}

/-- What a listener is given between a store and a later one, in the order of delivery. -/
def heard (origin store : Store) : List Notice :=
  (store.notices.take (store.notices.length - origin.notices.length)).reverse

/-- A later store still has the notices of an earlier one, and whoever has listened since has been
    told of every collection that has changed, last of all how it stands. -/
structure Reports (origin store : Store) : Prop where
  kept : store.notices = (origin.heard store).reverse ++ origin.notices
  told : ∀ name, store.items name ≠ origin.items name → ∃ earlier notice later,
    origin.heard store = earlier ++ notice :: later ∧ notice.model = name ∧
      notice.records = store.items name ∧ ∀ other ∈ later, other.model ≠ name

namespace Told

theorem trans (hfirst : Told origin store recent) (hsecond : Told store next later) :
    Told origin next (later ++ recent) where
  schema_eq := hsecond.schema_eq.trans hfirst.schema_eq
  notices := by rw [hsecond.notices, hfirst.notices, List.append_assoc]
  items name := by rw [hsecond.items, hfirst.items, Notice.listed_append]

theorem heard_eq (h : Told origin store recent) : origin.heard store = recent.reverse := by
  rw [heard, h.notices, List.length_append, Nat.add_sub_cancel, List.take_left' rfl]

theorem reports (h : Told origin store recent) : Reports origin store where
  kept := by rw [h.heard_eq, List.reverse_reverse, h.notices]
  told name hchanged := by
    rcases Notice.listed_cases (origin.items name) name recent with
      hsame | ⟨later, notice, earlier, hrecent, hmodel, hrecords, hlater⟩
    · exact absurd ((h.items name).trans hsame) hchanged
    · refine ⟨earlier.reverse, notice, later.reverse, ?_, hmodel, ?_, ?_⟩
      · rw [h.heard_eq, hrecent, List.reverse_append, List.reverse_cons, List.append_assoc]
        rfl
      · rw [hrecords, h.items name]
      · exact fun other hother => hlater other (List.mem_reverse.mp hother)

/-- The copy of whoever has listened since is what the store holds. -/
theorem copied_heard (h : Told origin store recent) :
    Notice.copied origin.items (origin.heard store) = store.items := by
  funext name
  rw [Notice.copied_eq_listed, h.heard_eq, List.reverse_reverse, h.items name]

end Told

/-- Every action tells what it does to the collections, also when it fails halfway. -/
theorem told_act (store : Store) (action : Action) :
    ∃ recent, Told store (store.act action) recent := by
  have hlaws := lawful_mirrored store
  have hstart : (mirrored store).Holds store := ⟨[], .refl⟩
  cases action with
  | request request =>
      cases request with
      | reset =>
          obtain ⟨recent, hemptied⟩ :=
            (Upkeep.leads_emptied hlaws store.collections.keys store hstart).holds
          exact ⟨recent, hemptied.congr rfl rfl rfl⟩
      | wait clock => exact ⟨[], Told.refl.congr rfl rfl rfl⟩
      | write operation name args =>
          exact (Upkeep.leads_apply_write hlaws hstart operation name args).holds
  | setItems name records =>
      simp only [act]
      split
      · exact hstart
      · rename_i model _
        refine ⟨_, (Told.refl.replaceCollection model.name records).congr ?_ ?_ ?_⟩
        all_goals
          simp only [setItems, advanceCounters]
          split <;> rfl

theorem told_play (history : List Action) :
    ∀ store : Store, ∃ recent, Told store (store.play history) recent := by
  induction history with
  | nil => exact fun _ => ⟨[], .refl⟩
  | cons action rest ih =>
      intro store
      obtain ⟨first, hfirst⟩ := told_act store action
      obtain ⟨later, hlater⟩ := ih (store.act action)
      exact ⟨later ++ first, hfirst.trans hlater⟩

/-- No action is silent, in any store and after any history: of each collection that it changes it
    gives notice, the last one with the collection as it stands when the action ends.  So a listener
    that has copied the collections of a store and copies what it is given from then on has the
    collections of the store after every action, and on the way there no notice is lost. -/
theorem mirrors_play (store : Store) (history : List Action) :
    (∀ action, Reports (store.play history) ((store.play history).act action)) ∧
      Notice.copied store.items (store.heard (store.play history)) = (store.play history).items := by
  constructor
  · intro action
    obtain ⟨recent, htold⟩ := told_act (store.play history) action
    exact htold.reports
  · obtain ⟨recent, htold⟩ := told_play history store
    exact htold.copied_heard

/-- A create that fails when its answer is shaped has stored its record, and says so. -/
example : (Shelf.store.heard (Shelf.store.act (.request
      (.write .create "Note" (Shelf.withReaders 2))))).map (·.records) =
    [[[("id", .integer 1)], [("id", .integer 2)]]] := rfl

end Store

end RecordStore
