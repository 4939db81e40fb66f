import RecordStore.Proofs.Relation.Local

/-!
# Grounded links

Which records a relation links to a record is decided by a filter, and where a key column is itself
a relation field that filter asks for further links.  Links are grounded when the question ends
after some number of such steps, which is when they do not run in circles.  The steps then never
come back to where they have been, and as there are only so many relation fields of stored records,
the depth to which links are followed is always enough: linked records are those that the linked
records themselves decide.
-/

namespace RecordStore

/-- A relation field and a record from which it links to others. -/
structure LinkStart where
  model : Model
  field : Field
  record : Record

/-- Of two tests, the one that accepts more accepts a greater number. -/
theorem countP_lt_countP {α : Type} {p q : α → Bool} {xs : List α} {x : α} (hx : x ∈ xs)
    (hp : p x = false) (hq : q x = true) (h : ∀ y ∈ xs, p y = true → q y = true) :
    xs.countP p < xs.countP q := by
  obtain ⟨before, after, rfl⟩ := List.append_of_mem hx
  have hbefore : before.countP p ≤ before.countP q :=
    List.countP_mono_left fun y hy => h y (List.mem_append_left _ hy)
  have hafter : after.countP p ≤ after.countP q :=
    List.countP_mono_left fun y hy => h y (List.mem_append_right _ (List.mem_cons_of_mem _ hy))
  rw [List.countP_append, List.countP_append, List.countP_cons_of_neg (by simp [hp]),
    List.countP_cons_of_pos hq]
  omega

namespace Store

variable {store : Store} {model : Model} {field : Field} {record : Record} {start : LinkStart}
  {needed : List LinkStart} {steps more depth : Nat}

/-- The records linked to a record, when the links that are met on the way are given. -/
def linkedBy (store : Store) (links : Links) : Links := fun model field record =>
  match store.schema.model? field.typeName with
  | none => []
  | some related =>
      match store.schema.linkage? model field with
      | some linkage =>
          match linkage.scope record with
          | some scope =>
              (store.items related.name).filter fun other =>
                Filter.satisfies store links related other scope
          | none => []
      | none =>
          match field.relationName with
          | none => []
          | some name =>
              let ids := store.joins.counterparts name model.name (model.recordId record)
              (store.items related.name).filter fun other =>
                ids.any fun id => sameId (related.recordId other) id

theorem linkedWithin_succ (store : Store) (depth : Nat) :
    store.linkedWithin (depth + 1) = store.linkedBy (store.linkedWithin depth) := rfl

/-- Where links can start on the way: at the relation fields of stored records. -/
def starts (store : Store) : List LinkStart :=
  store.schema.models.flatMap fun model => model.relationFields.flatMap fun field =>
    (store.items model.name).map fun record => ⟨model, field, record⟩

/-- What is linked from a start depends only on what is linked from some other ones: whatever else
    is taken for linked, the answer is the same. -/
def DependsOn (store : Store) (start : LinkStart) (needed : List LinkStart) : Prop :=
  ∀ links : Links,
    (∀ other ∈ needed, links other.model other.field other.record =
      store.related other.model other.field other.record) →
    store.linkedBy links start.model start.field start.record =
      store.linkedBy store.related start.model start.field start.record

/-- What is linked from a start is decided in a number of steps, each of which asks for links of
    stored records. -/
def GroundedWithin (store : Store) : Nat → LinkStart → Prop
  | 0, _ => False
  | steps + 1, start => ∃ needed ⊆ store.starts,
      store.DependsOn start needed ∧ ∀ other ∈ needed, store.GroundedWithin steps other

/-- What is linked to a record is decided in some number of steps, so that no link is asked for
    again while it is being decided. -/
def Grounded (store : Store) (model : Model) (field : Field) (record : Record) : Prop :=
  ∃ steps, store.GroundedWithin steps ⟨model, field, record⟩

/-! ## Enough steps -/

theorem GroundedWithin.mono (h : store.GroundedWithin steps start) (hle : steps ≤ more) :
    store.GroundedWithin more start := by
  induction steps generalizing start more with
  | zero => exact h.elim
  | succ steps ih =>
      obtain ⟨needed, hstored, hdepends, hneeded⟩ := h
      cases more with
      | zero => exact absurd hle (Nat.not_succ_le_zero _)
      | succ more =>
          exact ⟨needed, hstored, hdepends, fun other hother =>
            ih (hneeded other hother) (Nat.le_of_succ_le_succ hle)⟩

/-- Links are followed deep enough when they are grounded in so many steps: following them deeper
    finds nothing else. -/
theorem GroundedWithin.linkedWithin_eq (h : store.GroundedWithin steps start)
    (henough : steps ≤ store.linkDepth) (hdepth : steps ≤ depth) :
    store.linkedWithin depth start.model start.field start.record =
      store.related start.model start.field start.record := by
  induction steps generalizing start depth with
  | zero => exact h.elim
  | succ steps ih =>
      obtain ⟨needed, -, hdepends, hneeded⟩ := h
      -- at every such depth, and so at the one that is used, the needed links are all known
      have hstep : ∀ depth, steps + 1 ≤ depth →
          store.linkedWithin depth start.model start.field start.record =
            store.linkedBy store.related start.model start.field start.record := by
        intro depth hdepth
        cases depth with
        | zero => exact absurd hdepth (Nat.not_succ_le_zero _)
        | succ depth =>
            rw [linkedWithin_succ]
            exact hdepends _ fun other hother => ih (hneeded other hother)
              (Nat.le_of_succ_le henough) (Nat.le_of_succ_le_succ hdepth)
      exact (hstep depth hdepth).trans (hstep store.linkDepth henough).symm

/-! ## The number of starts bounds the steps -/

/-- One step more grounds no more links of stored records. -/
def IsStable (store : Store) (steps : Nat) : Prop :=
  ∀ start ∈ store.starts, store.GroundedWithin (steps + 1) start → store.GroundedWithin steps start

/-- What one step more does not ground is not grounded by any number of steps. -/
theorem IsStable.groundedWithin (h : store.IsStable steps) (hstart : start ∈ store.starts)
    (hgrounded : store.GroundedWithin more start) : store.GroundedWithin steps start := by
  induction more generalizing start with
  | zero => exact hgrounded.elim
  | succ more ih =>
      obtain ⟨needed, hstored, hdepends, hneeded⟩ := hgrounded
      exact h start hstart ⟨needed, hstored, hdepends, fun other hother =>
        ih (hstored hother) (hneeded other hother)⟩

open Classical in
/-- Until a step grounds nothing new, each step grounds at least one more start. -/
theorem exists_isStable_or_le_countP (store : Store) (steps : Nat) :
    (∃ stable < steps, store.IsStable stable) ∨
      steps ≤ store.starts.countP fun start => store.GroundedWithin steps start := by
  induction steps with
  | zero => exact .inr (Nat.zero_le _)
  | succ steps ih =>
      rcases ih with ⟨stable, hlt, hstable⟩ | hcount
      · exact .inl ⟨stable, Nat.lt_succ_of_lt hlt, hstable⟩
      · by_cases hstable : store.IsStable steps
        · exact .inl ⟨steps, Nat.lt_succ_self _, hstable⟩
        · unfold IsStable at hstable
          push Not at hstable
          obtain ⟨start, hstart, hnext, hopen⟩ := hstable
          refine .inr (Nat.lt_of_le_of_lt hcount (countP_lt_countP hstart ?_ ?_ ?_))
          · exact decide_eq_false hopen
          · exact decide_eq_true hnext
          · exact fun other _ h =>
              decide_eq_true ((of_decide_eq_true h).mono (Nat.le_succ steps))

open Classical in
/-- As many steps as there are starts are enough for every link of a stored record. -/
theorem groundedWithin_length (hstart : start ∈ store.starts)
    (h : store.GroundedWithin steps start) : store.GroundedWithin store.starts.length start := by
  rcases store.exists_isStable_or_le_countP (store.starts.length + 1) with
    ⟨stable, hlt, hstable⟩ | hcount
  · exact (hstable.groundedWithin hstart h).mono (Nat.le_of_lt_succ hlt)
  · exact absurd (Nat.le_trans hcount List.countP_le_length) (Nat.not_succ_le_self _)

/-- Links are followed once more than there are starts. -/
theorem linkDepth_eq (store : Store) : store.linkDepth = store.starts.length + 1 := by
  have hstarts (model : Model) (fields : List Field) :
      (fields.flatMap fun field => (store.items model.name).map fun record =>
        (⟨model, field, record⟩ : LinkStart)).length =
          fields.length * (store.items model.name).length := by
    rw [List.length_flatMap]
    simp only [List.length_map, List.map_const', List.sum_replicate_nat]
  have hfold (models : List Model) (total : Nat) :
      models.foldl (fun total model =>
        total + model.relationFields.length * (store.items model.name).length) total =
      total + (models.flatMap fun model => model.relationFields.flatMap fun field =>
        (store.items model.name).map fun record =>
          (⟨model, field, record⟩ : LinkStart)).length := by
    induction models generalizing total with
    | nil => rfl
    | cons model rest ih =>
        rw [List.foldl_cons, ih, List.flatMap_cons, List.length_append, hstarts, Nat.add_assoc]
  rw [linkDepth, hfold, starts, Nat.add_comm]

theorem Grounded.groundedWithin (h : store.Grounded model field record) :
    store.GroundedWithin store.linkDepth ⟨model, field, record⟩ := by
  obtain ⟨_ | steps, hsteps⟩ := h
  · exact hsteps.elim
  · obtain ⟨needed, hstored, hdepends, hneeded⟩ := hsteps
    rw [linkDepth_eq]
    exact ⟨needed, hstored, hdepends, fun other hother =>
      groundedWithin_length (hstored hother) (hneeded other hother)⟩

/-- **The depth of links is enough**: following grounded links any deeper gives the same records. -/
theorem Grounded.related_eq (h : store.Grounded model field record)
    (hdepth : store.linkDepth ≤ depth) :
    store.linkedWithin depth model field record = store.related model field record :=
  h.groundedWithin.linkedWithin_eq (Nat.le_refl _) hdepth

/-- Where links are grounded, linked records are those that the linked records decide. -/
theorem Grounded.related_eq_linkedBy (h : store.Grounded model field record) :
    store.related model field record = store.linkedBy store.related model field record := by
  rw [← h.related_eq (Nat.le_succ _), linkedWithin_succ]
  rfl

/-! ## Links that ask for no others -/

/-- Links through key columns that are no relation fields are grounded at once. -/
theorem grounded_of_isLocal {linkage : Linkage}
    (hlinkage : store.schema.linkage? model field = some linkage)
    (hlocal : ∀ related scope, store.schema.model? field.typeName = some related →
      linkage.scope record = some scope → Filter.isLocal related scope = true) :
    store.Grounded model field record := by
  refine ⟨1, [], List.nil_subset _, fun links _ => ?_, List.forall_mem_nil _⟩
  simp only [linkedBy, hlinkage]
  cases hrelated : store.schema.model? field.typeName with
  | none => rfl
  | some related =>
      cases hscope : linkage.scope record with
      | none => rfl
      | some scope =>
          refine List.filter_congr fun other _ => ?_
          exact Filter.satisfies_congr scope (hlocal related scope hrelated hscope)

end Store

end RecordStore
