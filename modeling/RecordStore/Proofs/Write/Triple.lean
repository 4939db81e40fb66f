import RecordStore.Operation

/-!
# Reasoning about writes

A triple says of a write what it leaves behind: from a store with a property, success leads to a
result and a store that are related, and failure to an error and a store that are related too.
Since what was written before a failure stays written, both endings are part of every statement.
The rules follow the ways in which writes are put together.
-/

namespace RecordStore

namespace Write

variable {α β ι : Type}

/-- What a write comes to on a store, and the store that it leaves. -/
def outcome (w : Write α) (store : Store) : Except Error α × Store :=
  Id.run (StateT.run (ExceptT.run w) store)

/-- The store that a write leaves. -/
def after (w : Write α) (store : Store) : Store := (w.outcome store).2

/-! ## Outcomes -/

@[simp] theorem outcome_pure (a : α) (store : Store) :
    (pure a : Write α).outcome store = (.ok a, store) := rfl

@[simp] theorem outcome_throw (e : Error) (store : Store) :
    (throw e : Write α).outcome store = (.error e, store) := rfl

@[simp] theorem outcome_get (store : Store) :
    (get : Write Store).outcome store = (.ok store, store) := rfl

@[simp] theorem outcome_set (next store : Store) :
    (set next : Write Unit).outcome store = (.ok (), next) := rfl

@[simp] theorem outcome_modify (f : Store → Store) (store : Store) :
    (modify f : Write Unit).outcome store = (.ok (), f store) := rfl

@[simp] theorem outcome_step (f : Store → α × Store) (store : Store) :
    (step f).outcome store = (.ok (f store).1, (f store).2) := rfl

@[simp] theorem outcome_require (r : Except Error α) (store : Store) :
    (require r).outcome store = (r, store) := rfl

/-- The second of two writes runs on the store that the first has left, unless it failed. -/
theorem outcome_bind (w : Write α) (f : α → Write β) (store : Store) :
    (w >>= f).outcome store =
      match w.outcome store with
      | (.ok a, next) => (f a).outcome next
      | (.error e, next) => (.error e, next) := by
  show (let found := w.outcome store;
    Id.run (StateT.run (ExceptT.bindCont f found.1) found.2)) = _
  rcases w.outcome store with ⟨_ | _, _⟩ <;> rfl

/-- Two writes that succeed together have each succeeded, the second where the first has led. -/
theorem outcome_bind_ok {w : Write α} {f : α → Write β} {store last : Store} {b : β}
    (h : (w >>= f).outcome store = (.ok b, last)) :
    ∃ a next, w.outcome store = (.ok a, next) ∧ (f a).outcome next = (.ok b, last) := by
  rw [outcome_bind] at h
  rcases hfirst : w.outcome store with ⟨_ | a, next⟩
  · rw [hfirst] at h
    cases h
  · rw [hfirst] at h
    exact ⟨a, next, rfl, h⟩

/-- What reads the store goes on with it from there. -/
theorem outcome_bind_get (f : Store → Write β) (store : Store) :
    (get >>= f).outcome store = (f store).outcome store := by
  rw [outcome_bind, outcome_get]

/-- What succeeds after something that it requires has found it. -/
theorem outcome_bind_require_ok {r : Except Error α} {f : α → Write β} {store last : Store} {b : β}
    (h : (require r >>= f).outcome store = (.ok b, last)) :
    ∃ a, r = .ok a ∧ (f a).outcome store = (.ok b, last) := by
  obtain ⟨a, next, hr, hrest⟩ := outcome_bind_ok h
  rw [outcome_require] at hr
  obtain ⟨hfound, rfl⟩ := Prod.mk.inj hr
  exact ⟨a, hfound, hrest⟩

/-- A failure is handled on the store that it has left. -/
theorem outcome_tryCatch (w : Write α) (handle : Error → Write α) (store : Store) :
    (tryCatch w handle).outcome store =
      match w.outcome store with
      | (.ok a, next) => (.ok a, next)
      | (.error e, next) => (handle e).outcome next := by
  simp only [outcome, ExceptT.run, StateT.run, Id.run, MonadExcept.tryCatch, tryCatchThe,
    MonadExceptOf.tryCatch, ExceptT.tryCatch, ExceptT.mk, bind, StateT.bind]
  rcases w store with ⟨_ | _, _⟩ <;> rfl

/-- A change of the result changes neither an error nor the store. -/
theorem outcome_map (f : α → β) (w : Write α) (store : Store) :
    (f <$> w).outcome store =
      match w.outcome store with
      | (.ok a, next) => (.ok (f a), next)
      | (.error e, next) => (.error e, next) := by
  rw [map_eq_pure_bind, outcome_bind]
  rcases w.outcome store with ⟨_ | _, _⟩ <;> rfl

/-! ## Triples -/

/-- From every store with a property, success and failure both end as stated. -/
def Triple (pre : Store → Prop) (w : Write α) (post : α → Store → Prop)
    (fails : Error → Store → Prop) : Prop :=
  ∀ store, pre store →
    match w.outcome store with
    | (.ok a, next) => post a next
    | (.error e, next) => fails e next

namespace Triple

variable {pre pre' : Store → Prop} {w : Write α} {f : α → Write β}
variable {M : α → Store → Prop} {post post' : α → Store → Prop} {goal : β → Store → Prop}
variable {fails fails' : Error → Store → Prop}

/-- A write that succeeds ends as stated. -/
theorem ok (h : Triple pre w post fails) {store next : Store} {a : α} (hpre : pre store)
    (hrun : w.outcome store = (.ok a, next)) : post a next := by
  have := h store hpre
  rw [hrun] at this
  exact this

/-- So does one that fails. -/
theorem error (h : Triple pre w post fails) {store next : Store} {e : Error} (hpre : pre store)
    (hrun : w.outcome store = (.error e, next)) : fails e next := by
  have := h store hpre
  rw [hrun] at this
  exact this

/-- What both endings promise holds of the store that is left. -/
theorem after {Q : Store → Prop} (h : Triple pre w (fun _ => Q) fun _ => Q) {store : Store}
    (hpre : pre store) : Q (w.after store) := by
  have hends := h store hpre
  unfold Write.after
  rcases hrun : w.outcome store with ⟨_ | _, next⟩ <;> rw [hrun] at hends <;> exact hends

/-- Nothing is promised. -/
theorem trivial (w : Write α) : Triple pre w (fun _ _ => True) fun _ _ => True := by
  intro store _
  rcases w.outcome store with ⟨_ | _, _⟩ <;> exact True.intro

/-- A triple may be asked from fewer stores, and of either ending for less. -/
theorem imp (h : Triple pre w post fails) (hpre : ∀ store, pre' store → pre store)
    (hpost : ∀ a store, post a store → post' a store)
    (hfails : ∀ e store, fails e store → fails' e store) : Triple pre' w post' fails' := by
  intro store hstore
  have hends := h store (hpre store hstore)
  rcases hrun : w.outcome store with ⟨_ | _, _⟩
  · rw [hrun] at hends
    exact hfails _ _ hends
  · rw [hrun] at hends
    exact hpost _ _ hends

/-- A triple asks less of what comes in and promises more of what comes out. -/
theorem weaken (h : Triple pre w post fails) (hpre : ∀ store, pre' store → pre store)
    (hpost : ∀ a store, post a store → post' a store) : Triple pre' w post' fails :=
  h.imp hpre hpost fun _ _ hfails => hfails

/-- What does not depend on the store is assumed once. -/
theorem assuming {p : Prop} (h : p → Triple pre w post fails) :
    Triple (fun store => p ∧ pre store) w post fails := by
  rintro store ⟨hp, hstore⟩
  exact h hp store hstore

theorem pure {a : α} (h : ∀ store, pre store → post a store) :
    Triple pre (Pure.pure a) post fails := h

theorem throw {e : Error} (h : ∀ store, pre store → fails e store) :
    Triple pre (throw e) post fails := h

/-- One change of the store has to bring about what is stated. -/
theorem modify {f : Store → Store} {post : Unit → Store → Prop}
    (h : ∀ store, pre store → post () (f store)) : Triple pre (modify f) post fails := h

theorem set {next : Store} {post : Unit → Store → Prop}
    (h : ∀ store, pre store → post () next) : Triple pre (MonadStateOf.set next) post fails := h

theorem step {f : Store → α × Store}
    (h : ∀ store, pre store → post (f store).1 (f store).2) :
    Triple pre (step f) post fails := h

/-- Writes one after the other. -/
theorem bind (hw : Triple pre w M fails) (hf : ∀ a, Triple (M a) (f a) goal fails) :
    Triple pre (w >>= f) goal fails := by
  intro store hstore
  have hfirst := hw store hstore
  rw [outcome_bind]
  rcases hrun : w.outcome store with ⟨_ | a, next⟩
  · rw [hrun] at hfirst
    exact hfirst
  · rw [hrun] at hfirst
    exact hf a next hfirst

/-- What reads the store knows it. -/
theorem bind_get {f : Store → Write β}
    (h : ∀ current, pre current → Triple (fun store => store = current) (f current) goal fails) :
    Triple pre (get >>= f) goal fails := by
  refine bind (M := fun current store => store = current ∧ pre current)
    (fun _ hstore => ⟨rfl, hstore⟩) fun current => ?_
  rintro store ⟨hstore, hcurrent⟩
  exact h current hcurrent store hstore

/-- What needs a result goes on with it, or fails as the result does. -/
theorem bind_require {r : Except Error α}
    (hok : ∀ a, r = .ok a → Triple pre (f a) goal fails)
    (herror : ∀ e, r = .error e → ∀ store, pre store → fails e store) :
    Triple pre (require r >>= f) goal fails := by
  intro store hstore
  rw [outcome_bind, outcome_require]
  cases r with
  | error e => exact herror e rfl store hstore
  | ok a => exact hok a rfl store hstore

/-- A result that is needed leaves the store as it is, whether it is there or not. -/
theorem require {r : Except Error α} (hok : ∀ a store, pre store → post a store)
    (herror : ∀ e store, pre store → fails e store) : Triple pre (require r) post fails := by
  intro store hstore
  rw [outcome_require]
  cases r with
  | error e => exact herror e store hstore
  | ok a => exact hok a store hstore

/-- A handler starts from the store that the failure has left. -/
theorem tryCatch {handle : Error → Write α} (hw : Triple pre w post fails)
    (hhandle : ∀ e, Triple (fails e) (handle e) post fails') :
    Triple pre (tryCatch w handle) post fails' := by
  intro store hstore
  have hfirst := hw store hstore
  rw [outcome_tryCatch]
  rcases hrun : w.outcome store with ⟨e | _, next⟩
  · rw [hrun] at hfirst
    exact hhandle e next hfirst
  · rw [hrun] at hfirst
    exact hfirst

/-- A triple for a changed result is one for the result. -/
theorem map {g : α → β} (hw : Triple pre w (fun a => goal (g a)) fails) :
    Triple pre (g <$> w) goal fails := by
  intro store hstore
  have hfirst := hw store hstore
  rw [outcome_map]
  rcases hrun : w.outcome store with ⟨_ | _, next⟩
  · rw [hrun] at hfirst
    exact hfirst
  · rw [hrun] at hfirst
    exact hfirst

theorem discard {goal : Unit → Store → Prop} (hw : Triple pre w (fun _ => goal ()) fails) :
    Triple pre (discard w) goal fails :=
  map (g := fun _ => PUnit.unit) hw

/-- A loop keeps an invariant that tells what is still to be done. -/
theorem forM {f : ι → Write Unit} (inv : List ι → Store → Prop) :
    ∀ items : List ι, (∀ x rest, x ∈ items → Triple (inv (x :: rest)) (f x) (fun _ => inv rest) fails) →
      Triple (inv items) (items.forM f) (fun _ => inv []) fails := by
  intro items
  induction items with
  | nil => intro _ store hstore; exact hstore
  | cons x rest ih =>
      intro hstep
      refine bind (hstep x rest List.mem_cons_self) fun _ => ?_
      exact ih fun y more hy => hstep y more (List.mem_cons_of_mem _ hy)

/-- A loop that gathers a result keeps an invariant on it. -/
theorem foldlM {f : β → ι → Write β} (inv : β → Store → Prop) :
    ∀ (items : List ι) (acc : β), (∀ acc, ∀ x ∈ items, Triple (inv acc) (f acc x) inv fails) →
      Triple (inv acc) (items.foldlM f acc) inv fails := by
  intro items
  induction items with
  | nil => intro acc _ store hstore; exact hstore
  | cons x rest ih =>
      intro acc hstep
      rw [List.foldlM_cons]
      refine bind (hstep acc x List.mem_cons_self) fun next => ?_
      exact ih next fun acc y hy => hstep acc y (List.mem_cons_of_mem _ hy)

end Triple

end Write

end RecordStore
