import RecordStore.Proofs.Write.Triple

/-!
# Writes that come to the same

Two writes agree when, from every store with a property, they come to the same: the same result or
the same error, and the same store.  The writes that follow have to agree from there on, so what the
first ones leave behind is part of the statement.  The rules are those for triples, with a second
write that is put together in the same way.
-/

namespace RecordStore

namespace Write

variable {α β ι : Type}

/-- From every store with a property two writes come to the same, and end as stated. -/
structure Agree (pre : Store → Prop) (w w' : Write α) (post : α → Store → Prop)
    (fails : Error → Store → Prop) : Prop where
  triple : Triple pre w post fails
  same : ∀ store, pre store → w'.outcome store = w.outcome store

namespace Agree

variable {pre pre' : Store → Prop} {w w' : Write α} {f f' : α → Write β}
variable {M : α → Store → Prop} {post post' : α → Store → Prop} {goal : β → Store → Prop}
variable {fails fails' : Error → Store → Prop}

/-- A write agrees with itself. -/
theorem refl (h : Triple pre w post fails) : Agree pre w w post fails := ⟨h, fun _ _ => rfl⟩

/-- Two writes that agree with a third one agree. -/
theorem of_common {v : Write α} (h : Agree pre w v post fails) (h' : Agree pre w' v post' fails') :
    Agree pre w w' post fails :=
  ⟨h.triple, fun store hstore => (h'.same store hstore).symm.trans (h.same store hstore)⟩

/-- Less may be asked of the stores that two writes end in. -/
theorem imp (h : Agree pre w w' post fails) (hpre : ∀ store, pre' store → pre store)
    (hpost : ∀ a store, post a store → post' a store)
    (hfails : ∀ e store, fails e store → fails' e store) : Agree pre' w w' post' fails' :=
  ⟨h.triple.imp hpre hpost hfails, fun store hstore => h.same store (hpre store hstore)⟩

theorem weaken (h : Agree pre w w' post fails) (hpre : ∀ store, pre' store → pre store)
    (hpost : ∀ a store, post a store → post' a store) : Agree pre' w w' post' fails :=
  h.imp hpre hpost fun _ _ hfails => hfails

/-- It is enough to look at each store on its own. -/
theorem of_each (h : ∀ store, pre store → Agree (· = store) w w' post fails) :
    Agree pre w w' post fails where
  triple store hstore := (h store hstore).triple store rfl
  same store hstore := (h store hstore).same store rfl

/-- What does not depend on the store is assumed once. -/
theorem assuming {p : Prop} (h : p → Agree pre w w' post fails) :
    Agree (fun store => p ∧ pre store) w w' post fails where
  triple := .assuming fun hp => (h hp).triple
  same := fun store hstore => (h hstore.1).same store hstore.2

/-- Something that every store with the property has is taken out. -/
theorem of_exists {pre : ι → Store → Prop} (h : ∀ x, Agree (pre x) w w' post fails) :
    Agree (fun store => ∃ x, pre x store) w w' post fails where
  triple := fun store ⟨x, hstore⟩ => (h x).triple store hstore
  same := fun store ⟨x, hstore⟩ => (h x).same store hstore

theorem pure {a : α} (h : ∀ store, pre store → post a store) :
    Agree pre (Pure.pure a) (Pure.pure a) post fails := refl (.pure h)

/-- Writes one after the other. -/
theorem bind (hw : Agree pre w w' M fails) (hf : ∀ a, Agree (M a) (f a) (f' a) goal fails) :
    Agree pre (w >>= f) (w' >>= f') goal fails where
  triple := hw.triple.bind fun a => (hf a).triple
  same store hstore := by
    have hfirst := hw.triple store hstore
    rw [outcome_bind, outcome_bind, hw.same store hstore]
    rcases hrun : w.outcome store with ⟨_ | a, next⟩
    · rfl
    · rw [hrun] at hfirst
      exact (hf a).same next hfirst

/-- What reads the store knows it. -/
theorem bind_get {f f' : Store → Write β}
    (h : ∀ current, pre current →
      Agree (fun store => store = current) (f current) (f' current) goal fails) :
    Agree pre (get >>= f) (get >>= f') goal fails where
  triple := .bind_get fun current hcurrent => (h current hcurrent).triple
  same store hstore := by
    rw [outcome_bind_get, outcome_bind_get]
    exact (h store hstore).same store rfl

/-- What needs a result goes on with it, or fails as the result does. -/
theorem bind_require {r : Except Error α}
    (hok : ∀ a, r = .ok a → Agree pre (f a) (f' a) goal fails)
    (herror : ∀ e, r = .error e → ∀ store, pre store → fails e store) :
    Agree pre (require r >>= f) (require r >>= f') goal fails where
  triple := .bind_require (fun a ha => (hok a ha).triple) herror
  same store hstore := by
    rw [outcome_bind, outcome_bind, outcome_require]
    cases r with
    | error e => rfl
    | ok a => exact (hok a rfl).same store hstore

/-- A failure is handled alike. -/
theorem tryCatch {handle : Error → Write α} (hw : Agree pre w w' post fails)
    (hhandle : ∀ e, Triple (fails e) (handle e) post fails') :
    Agree pre (tryCatch w handle) (tryCatch w' handle) post fails' where
  triple := .tryCatch hw.triple hhandle
  same store hstore := by rw [outcome_tryCatch, outcome_tryCatch, hw.same store hstore]

theorem map {g : α → β} (hw : Agree pre w w' (fun a => goal (g a)) fails) :
    Agree pre (g <$> w) (g <$> w') goal fails where
  triple := .map hw.triple
  same store hstore := by rw [outcome_map, outcome_map, hw.same store hstore]

theorem discard {goal : Unit → Store → Prop} (hw : Agree pre w w' (fun _ => goal ()) fails) :
    Agree pre (discard w) (discard w') goal fails :=
  map (g := fun _ => PUnit.unit) hw

/-- Loops over the same items keep an invariant that tells what is still to be done. -/
theorem forM {f f' : ι → Write Unit} (inv : List ι → Store → Prop) :
    ∀ items : List ι,
      (∀ x rest, x ∈ items → Agree (inv (x :: rest)) (f x) (f' x) (fun _ => inv rest) fails) →
        Agree (inv items) (items.forM f) (items.forM f') (fun _ => inv []) fails := by
  intro items
  induction items with
  | nil => exact fun _ => pure fun _ hstore => hstore
  | cons x rest ih =>
      intro hstep
      exact bind (hstep x rest List.mem_cons_self) fun _ =>
        ih fun y more hy => hstep y more (List.mem_cons_of_mem _ hy)

end Agree

end Write

end RecordStore
