import RecordStore.Proofs.Write.Agreement
import RecordStore.Proofs.Write.Faults
import RecordStore.Proofs.Write.Supply

/-!
# What every write keeps up

Some properties of stores are kept by every write although no single change of a store shows why:
whether a record may be stored, or linked, depends on where the write has it from.  An upkeep
therefore tracks three things: the property itself, the records that writes have come across, which
stay known from then on, and the records that are fit to be stored.  Its laws speak of one change
of a store each; that they are enough for all writes is shown once for all upkeeps.
-/

namespace RecordStore

open Write

/-- A property of stores, the records known from a store, and the records fit to be stored. -/
structure Upkeep where
  Holds : Store → Prop
  Knows : Store → Model → Record → Prop
  Admits : Model → Record → Prop

namespace Upkeep

variable {α β ι : Type} {u : Upkeep} {store next last : Store}

/-- A later store has the property, and all records that were known. -/
structure Leads (u : Upkeep) (store next : Store) : Prop where
  holds : u.Holds next
  knows : ∀ model record, u.Knows store model record → u.Knows next model record

theorem Leads.refl (h : u.Holds store) : u.Leads store store := ⟨h, fun _ _ hknown => hknown⟩

theorem Leads.trans (h : u.Leads store next) (h' : u.Leads next last) : u.Leads store last :=
  ⟨h'.holds, fun model record hknown => h'.knows model record (h.knows model record hknown)⟩

/-- From a store with the property a write leads to another one, whether it succeeds or fails, and
    its result is as stated. -/
def Gives (u : Upkeep) (store : Store) (w : Write α) (post : α → Store → Prop) : Prop :=
  u.Holds store → Triple (· = store) w (fun a next => u.Leads store next ∧ post a next)
    fun _ next => u.Leads store next

/-- From a store with the property a write leads to another one. -/
def Keeps (u : Upkeep) (store : Store) (w : Write α) : Prop := u.Gives store w fun _ _ => True

/-- From a store with the property two writes come to the same, which leads to another one: to a
    result as stated, or to a failure for one of some errors. -/
def Alike (u : Upkeep) (fails : Error → Prop) (store : Store) (w w' : Write α)
    (post : α → Store → Prop) : Prop :=
  u.Holds store → Agree (· = store) w w' (fun a next => u.Leads store next ∧ post a next)
    fun e next => u.Leads store next ∧ fails e

/-- The same of writes whose result does not matter. -/
abbrev RunsAlike (u : Upkeep) (fails : Error → Prop) (store : Store) (w w' : Write α) : Prop :=
  u.Alike fails store w w' fun _ _ => True

/-! ## Two writes at once -/

namespace Alike

variable {fails : Error → Prop} {w w' : Write α} {f f' : α → Write β}
variable {mid : α → Store → Prop} {post : β → Store → Prop}

theorem pure {a : α} {post : α → Store → Prop} (h : u.Holds store → post a store) :
    u.Alike fails store (Pure.pure a) (Pure.pure a) post := by
  refine fun hstore => Agree.pure ?_
  rintro _ rfl
  exact ⟨.refl hstore, h hstore⟩

theorem throw {e : Error} (he : fails e) {post : α → Store → Prop} :
    u.Alike fails store (MonadExcept.throw e) (MonadExcept.throw e) post := by
  refine fun hstore => Agree.refl (Triple.throw ?_)
  rintro _ rfl
  exact ⟨.refl hstore, he⟩

/-- A write that succeeds comes to the same as itself. -/
theorem of_succeeds {post : α → Store → Prop} (hw : u.Gives store w post)
    (hok : ∃ a next, w.outcome store = (.ok a, next)) : u.Alike fails store w w post := by
  intro hstore
  obtain ⟨a, next, hrun⟩ := hok
  refine Agree.refl ?_
  rintro _ rfl
  rw [hrun]
  exact (hw hstore).ok rfl hrun

/-- The store that the writes start from has the property. -/
theorem assuming {post : α → Store → Prop}
    (h : u.Holds store → u.Alike fails store w w' post) : u.Alike fails store w w' post :=
  fun hstore => h hstore hstore

/-- The second writes start from the store that the first ones have led to. -/
theorem bind (hw : u.Alike fails store w w' mid)
    (hf : ∀ a next, u.Leads store next → mid a next → u.Alike fails next (f a) (f' a) post) :
    u.Alike fails store (w >>= f) (w' >>= f') post := by
  refine fun hstore => Agree.bind (hw hstore) fun a => .of_each fun next ⟨hleads, hmid⟩ => ?_
  exact (hf a next hleads hmid hleads.holds).imp (fun _ h => h)
    (fun _ _ ⟨hlast, hpost⟩ => ⟨hleads.trans hlast, hpost⟩)
    (fun _ _ ⟨hlast, he⟩ => ⟨hleads.trans hlast, he⟩)

/-- What reads the store goes on from it. -/
theorem bind_get {f f' : Store → Write β}
    (h : u.Holds store → u.Alike fails store (f store) (f' store) post) :
    u.Alike fails store (get >>= f) (get >>= f') post := by
  refine fun hstore => Agree.bind_get fun current hcurrent => ?_
  subst hcurrent
  exact h hstore hstore

/-- What needs a result goes on with it, or fails as the result does. -/
theorem bind_require {r : Except Error α} (hr : FailsOnly fails r)
    (hok : ∀ a, r = .ok a → u.Alike fails store (f a) (f' a) post) :
    u.Alike fails store (require r >>= f) (require r >>= f') post := by
  refine fun hstore => Agree.bind_require (fun a ha => hok a ha hstore) ?_
  rintro e he _ rfl
  exact ⟨.refl hstore, hr e he⟩

theorem require {r : Except Error α} (hr : FailsOnly fails r) :
    u.RunsAlike fails store (require r) (require r) := by
  intro hstore
  refine Agree.refl ?_
  rintro _ rfl
  rw [outcome_require]
  cases r with
  | ok a => exact ⟨.refl hstore, trivial⟩
  | error e => exact ⟨.refl hstore, hr e rfl⟩

/-- More may be known of a result than what is asked. -/
theorem imp {post post' : α → Store → Prop} (hw : u.Alike fails store w w' post)
    (h : ∀ a next, u.Leads store next → post a next → post' a next) :
    u.Alike fails store w w' post' :=
  fun hstore => (hw hstore).weaken (fun _ h => h)
    fun a next ⟨hleads, hpost⟩ => ⟨hleads, h a next hleads hpost⟩

/-- What the result is may be forgotten. -/
theorem runs {post : α → Store → Prop} (hw : u.Alike fails store w w' post) :
    u.RunsAlike fails store w w' :=
  hw.imp fun _ _ _ _ => trivial

/-- The result may be left out. -/
theorem discard (hw : u.RunsAlike fails store w w') :
    u.RunsAlike fails store (discard w) (discard w') :=
  fun hstore => Agree.discard (hw hstore)

/-- Loops start each of their rounds from a store that the ones before it have led to. -/
theorem forM {f f' : ι → Write Unit} (items : List ι)
    (h : ∀ x ∈ items, ∀ next, u.Leads store next → u.RunsAlike fails next (f x) (f' x)) :
    u.RunsAlike fails store (items.forM f) (items.forM f') := by
  induction items generalizing store with
  | nil => exact .pure fun _ => trivial
  | cons x rest ih =>
      refine .assuming fun hstore => .bind (h x List.mem_cons_self store (.refl hstore))
        fun _ next hleads _ => ?_
      exact ih fun y hy last hlast => h y (List.mem_cons_of_mem _ hy) last (hleads.trans hlast)

theorem mapM {f f' : ι → Write β} (items : List ι)
    (h : ∀ x ∈ items, ∀ next, u.Leads store next → u.RunsAlike fails next (f x) (f' x)) :
    u.RunsAlike fails store (items.mapM f) (items.mapM f') := by
  induction items generalizing store with
  | nil => exact .pure fun _ => trivial
  | cons x rest ih =>
      rw [List.mapM_cons, List.mapM_cons]
      refine .assuming fun hstore => .bind (h x List.mem_cons_self store (.refl hstore))
        fun _ next hleads _ => .bind (ih fun y hy last hlast => ?_) fun _ _ _ _ =>
          .pure fun _ => trivial
      exact h y (List.mem_cons_of_mem _ hy) last (hleads.trans hlast)

/-- Loops that gather a result keep up what is asked of it. -/
theorem foldlM {f f' : β → ι → Write β} {I : β → Store → Prop} (items : List ι)
    (h : ∀ acc, ∀ x ∈ items, ∀ store, I acc store → u.Alike fails store (f acc x) (f' acc x) I) :
    ∀ acc store, I acc store → u.Alike fails store (items.foldlM f acc) (items.foldlM f' acc) I := by
  induction items with
  | nil => exact fun acc store hacc => .pure fun _ => hacc
  | cons x rest ih =>
      intro acc store hacc
      rw [List.foldlM_cons, List.foldlM_cons]
      refine bind (h acc x List.mem_cons_self store hacc) fun acc next _ hnext => ?_
      exact ih (fun acc y hy => h acc y (List.mem_cons_of_mem _ hy)) acc next hnext

/-- Writes whose collision may be skipped give their result if it was not. -/
theorem orSkip {post : α → Store → Prop} (skip : Bool) (hw : u.Alike fails store w w' post) :
    u.Alike fails store (orSkip skip w) (orSkip skip w') fun found next =>
      ∀ a ∈ found, post a next := by
  intro hstore
  have hsome : Agree (· = store) (some <$> w) (some <$> w')
      (fun found next => u.Leads store next ∧ ∀ a ∈ found, post a next)
      fun e next => u.Leads store next ∧ fails e := by
    refine Agree.map ((hw hstore).weaken (fun _ h => h) ?_)
    rintro a next ⟨hleads, hpost⟩
    exact ⟨hleads, fun _ hmem => Option.some.inj hmem ▸ hpost⟩
  refine Agree.tryCatch hsome fun e => ?_
  -- what was skipped has led somewhere all the same
  have hskip : Triple (fun next => u.Leads store next ∧ fails e)
      (Pure.pure none : Write (Option α))
      (fun found next => u.Leads store next ∧ ∀ a ∈ found, post a next)
      fun e next => u.Leads store next ∧ fails e :=
    Triple.pure fun _ h => ⟨h.1, fun _ hmem => nomatch hmem⟩
  cases e with
  | uniqueConstraint model fields =>
      cases skip with
      | true => exact hskip
      | false => exact Triple.throw fun _ h => h
  | _ => exact Triple.throw fun _ h => h

/-- Each of the two writes gives what both come to. -/
theorem gives {post : α → Store → Prop} (h : u.Alike fails store w w' post) :
    u.Gives store w post :=
  fun hstore => (h hstore).triple.imp (fun _ h => h) (fun _ _ h => h) fun _ _ h => h.1

end Alike

/-! ## One write -/

namespace Gives

variable {w : Write α} {f : α → Write β} {mid : α → Store → Prop} {post : β → Store → Prop}

/-- What a write gives it gives together with itself, if it may fail for anything. -/
theorem alike {post : α → Store → Prop} (h : u.Gives store w post) :
    u.Alike (fun _ => True) store w w post :=
  fun hstore => .refl ((h hstore).imp (fun _ h => h) (fun _ _ h => h) fun _ _ h => ⟨h, trivial⟩)

theorem pure {a : α} {post : α → Store → Prop} (h : u.Holds store → post a store) :
    u.Gives store (Pure.pure a) post := by
  rintro hstore _ rfl
  exact ⟨.refl hstore, h hstore⟩

theorem throw (e : Error) {post : α → Store → Prop} : u.Gives store (throw e) post := by
  rintro hstore _ rfl
  exact .refl hstore

/-- The second write starts from the store that the first one has led to. -/
theorem bind (hw : u.Gives store w mid)
    (hf : ∀ a next, u.Leads store next → mid a next → u.Gives next (f a) post) :
    u.Gives store (w >>= f) post :=
  (hw.alike.bind fun a next hleads hmid => (hf a next hleads hmid).alike).gives

/-- What reads the store goes on from it. -/
theorem bind_get {f : Store → Write β} (h : u.Holds store → u.Gives store (f store) post) :
    u.Gives store (get >>= f) post :=
  (Alike.bind_get fun hstore => (h hstore).alike).gives

theorem bind_require {r : Except Error α} (hok : ∀ a, r = .ok a → u.Gives store (f a) post) :
    u.Gives store (require r >>= f) post :=
  (Alike.bind_require (fun _ _ => trivial) fun a ha => (hok a ha).alike).gives

/-- One change of the store. -/
theorem modify {f : Store → Store} (h : u.Holds store → u.Leads store (f store))
    {post : Unit → Store → Prop} (hpost : u.Holds store → post () (f store)) :
    u.Gives store (modify f) post := by
  intro hstore
  refine Triple.modify ?_
  rintro _ rfl
  exact ⟨h hstore, hpost hstore⟩

theorem set {changed : Store} (h : u.Holds store → u.Leads store changed)
    {post : Unit → Store → Prop} (hpost : u.Holds store → post () changed) :
    u.Gives store (MonadStateOf.set changed) post :=
  fun hstore => Triple.set fun _ _ => ⟨h hstore, hpost hstore⟩

theorem step {f : Store → α × Store} (h : u.Holds store → u.Leads store (f store).2)
    {post : α → Store → Prop} (hpost : u.Holds store → post (f store).1 (f store).2) :
    u.Gives store (step f) post := by
  intro hstore
  refine Triple.step ?_
  rintro _ rfl
  exact ⟨h hstore, hpost hstore⟩

/-- More may be known of a result than what is asked. -/
theorem imp {post post' : α → Store → Prop} (hw : u.Gives store w post)
    (h : ∀ a next, u.Leads store next → post a next → post' a next) : u.Gives store w post' :=
  (hw.alike.imp h).gives

/-- A loop that gathers a result keeps up what is asked of it. -/
theorem foldlM {f : β → ι → Write β} {I : β → Store → Prop} (items : List ι)
    (h : ∀ acc, ∀ x ∈ items, ∀ store, I acc store → u.Gives store (f acc x) I) (acc : β)
    (store : Store) (hacc : I acc store) : u.Gives store (items.foldlM f acc) I :=
  (Alike.foldlM items (fun acc x hx store hacc => (h acc x hx store hacc).alike) acc store
    hacc).gives

end Gives

namespace Keeps

variable {w : Write α}

theorem modify {f : Store → Store} (h : u.Holds store → u.Leads store (f store)) :
    u.Keeps store (modify f) := Gives.modify h fun _ => trivial

theorem set {changed : Store} (h : u.Holds store → u.Leads store changed) :
    u.Keeps store (MonadStateOf.set changed) := Gives.set h fun _ => trivial

theorem discard (hw : u.Keeps store w) : u.Keeps store (discard w) :=
  (Gives.alike hw).discard.gives

/-- A loop starts each of its rounds from a store that the ones before it have led to. -/
theorem forM {f : ι → Write Unit} (items : List ι)
    (h : ∀ x ∈ items, ∀ next, u.Leads store next → u.Keeps next (f x)) :
    u.Keeps store (items.forM f) :=
  (Alike.forM items fun x hx next hleads => Gives.alike (h x hx next hleads)).gives

end Keeps

/-- The store that a write leaves, however it ends. -/
theorem Keeps.leads_after {w : Write α} (hw : u.Keeps store w) (hstore : u.Holds store) :
    u.Leads store (w.after store) :=
  Triple.after (Triple.imp (hw hstore) (fun _ h => h) (fun _ _ h => h.1) fun _ _ h => h) rfl

/-! ## Laws -/

/-- What has to be shown of an upkeep.  Stored records are known, and known records fit to be
    stored; so are those that a model lays out, and those that get another value in a plain field or
    in a key column.  A change of the store leads to one with the property, given that it adds,
    replaces and links nothing but what is fit or known. -/
structure Lawful (u : Upkeep) (schema : Schema) : Prop where
  schema_eq {store : Store} : u.Holds store → store.schema = schema
  stored {store : Store} {model : Model} {record : Record} : u.Holds store →
    model ∈ schema.models → record ∈ store.items model.name → u.Knows store model record
  fit {store : Store} {model : Model} {record : Record} : u.Holds store →
    u.Knows store model record → u.Admits model record
  laid {model : Model} (given : Record) (store : Store) : model ∈ schema.models →
    u.Admits model (Store.materialize model given store).1
  filled {model : Model} {record : Record} {field : Field} (value : Value) :
    u.Admits model record → field ∈ model.scalarFields →
      u.Admits model (Entries.insert field.name value record)
  bound {model : Model} {record : Record} {field : Field} {column : String} (value : Value) :
    model ∈ schema.models → u.Admits model record → field ∈ model.relationFields →
      column ∈ field.fromFields → u.Admits model (Entries.insert column value record)
  supply {store : Store} (counters : Entries (Entries Int)) (entropy : Entropy) : u.Holds store →
    Store.Advances store { store with counters, entropy } →
      u.Leads store { store with counters, entropy }
  insert {store : Store} {model : Model} {record : Record} : u.Holds store →
    model ∈ schema.models → u.Admits model record → store.checkUnique model record none = .ok () →
      u.Leads store (store.append model.name record) ∧
        u.Knows (store.append model.name record) model record
  same {store : Store} {model : Model} {current next : Record} : u.Holds store →
    model ∈ schema.models → u.Knows store model current → u.Admits model next →
      Record.same next current = true → u.Knows store model next
  replace {store changed : Store} {model : Model} {current next : Record} : u.Holds store →
    model ∈ schema.models → u.Admits model next →
      store.checkUnique model next (some current) = .ok () →
        store.swap model.name current next = some changed →
          u.Leads store changed ∧ u.Knows changed model next
  remove {store : Store} {name : String} {kept : List Record} : u.Holds store →
    kept.Sublist (store.items name) → u.Leads store (store.replaceCollection name kept)
  detach {store : Store} {model : Model} {field : Field} (scope : Record) : u.Holds store →
    model ∈ schema.models → field ∈ model.relationFields →
      u.Leads store (store.detach model scope (Record.unbind field.fromFields []))
  link {store : Store} {model related : Model} {field : Field} {record target : Record}
    {name : String} : u.Holds store → model ∈ schema.models → field ∈ model.relationFields →
      schema.relatedModel field = .ok related → field.relationName = some name →
        u.Knows store model record → u.Knows store related target →
          u.Leads store { store with
            joins := store.joins.connect name ⟨field.name, model.name⟩ (model.recordId record)
              (related.recordId target) }
  unlink {store : Store} (name : String) (side : Side) (id targets : Value) : u.Holds store →
    u.Leads store { store with joins := store.joins.disconnect name side id targets }
  cleanup {store : Store} (model : String) (id : Value) : u.Holds store →
    u.Leads store { store with joins := store.joins.cleanup model id }

/-- An upkeep that is lawful for a schema, and errors among which is all that a write may fail for
    of itself. -/
structure Allows (u : Upkeep) (fails : Error → Prop) (schema : Schema) : Prop where
  laws : u.Lawful schema
  faults {e : Error} : WriteFault schema e → fails e

/-- The fault of an argument is one of the errors. -/
theorem Allows.arguments {fails : Error → Prop} {schema : Schema} (h : u.Allows fails schema)
    {r : Except Error α} (hr : FailsOnly Error.OfArguments r) : FailsOnly fails r :=
  hr.imp fun _ he => h.faults (.arguments he)

/-- An upkeep of which nothing is said about failures. -/
theorem Lawful.allows {schema : Schema} (h : u.Lawful schema) : u.Allows (fun _ => True) schema :=
  ⟨h, fun _ => trivial⟩

end Upkeep

end RecordStore
