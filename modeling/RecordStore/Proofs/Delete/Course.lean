import RecordStore.Proofs.Delete.Cleared
import RecordStore.Proofs.Delete.Closure

/-!
# The course of a delete

What a delete has done at any point, on any schema: some records have left their positions, each as
it was when it left, the others are there with columns cleared, and the joins have lost links of
records that left.  After a record has left, its links are removed and its dependents seen to; from
then on it is forgotten, and stays so, because a delete neither writes a value nor adds a link.
-/

namespace RecordStore

/-- The records that have left positions of collections, each as it was when it left. -/
abbrev Leavers := String → Nat → Record → Prop

namespace Schema

/-- Deletes null the keys of the dependents of a model through a relation field. -/
structure Detaches (schema : Schema) (model : Model) (field : Field) (linkage : Linkage)
    (dependents : Model) : Prop where
  member : field ∈ model.relationFields
  linked : schema.linkage? model field = some linkage
  elsewhere : linkage.owned = false
  keyed : linkage.columns ≠ []
  policy : (schema.reciprocal? model field).bind (·.onDelete) = some .setNull
  related : schema.relatedModel field = .ok dependents

/-- An id is that of a record of a model that has left. -/
def Names (schema : Schema) (left : Leavers) (name : String) (id : Value) : Prop :=
  ∃ model ∈ schema.models, model.name = name ∧ ∃ i record, left name i record ∧
    model.Identifies record id

theorem Names.mono {schema : Schema} {left more : Leavers} {name : String} {id : Value}
    (h : schema.Names left name id)
    (hgrows : ∀ name i record, left name i record → more name i record) :
    schema.Names more name id := by
  obtain ⟨model, hmodel, hname, i, record, hleft, hid⟩ := h
  exact ⟨model, hmodel, hname, i, record, hgrows _ _ _ hleft, hid⟩

variable {schema : Schema} {model dependents : Model} {field : Field} {linkage : Linkage}

/-- The columns that are nulled in dependents may be nulled. -/
theorem nullable_of_setNull (hlinked : schema.linkage? model field = some linkage)
    (helsewhere : linkage.owned = false)
    (hpolicy : (schema.reciprocal? model field).bind (·.onDelete) = some .setNull)
    (hrelated : schema.relatedModel field = .ok dependents) :
    ∀ column ∈ linkage.foreign, schema.Nullable dependents.name column := by
  obtain ⟨other, hmember, hother, howns, -, rfl⟩ :=
    declared_of_linkage hlinked helsewhere hrelated
  rw [hother] at hpolicy
  exact fun column hcolumn =>
    ⟨dependents, mem_of_relatedModel hrelated, rfl, other, hmember, howns, hpolicy, hcolumn⟩

end Schema

namespace Store

variable {origin store next last : Store} {left more most : Leavers}
variable {model dependents : Model} {record scope : Record}

/-! ## Forgotten records -/

/-- Nothing in a store refers to a record any more: no record holds its key values in columns that
    are to be nulled, and no link has its id. -/
structure Forgotten (store : Store) (model : Model) (record : Record) : Prop where
  detached : ∀ field linkage dependents scope,
    store.schema.Detaches model field linkage dependents → linkage.scope record = some scope →
      ∀ item ∈ store.items dependents.name, Record.holdsAll item scope = false
  unlinked : store.joins.EachEnd fun name id => ¬ (name = model.name ∧ model.Identifies record id)

/-- What a delete may do to a store: null columns, and take out records and links. -/
structure Fades (before after : Store) : Prop where
  schema_eq : after.schema = before.schema
  items : ∀ name, ∀ record ∈ after.items name, ∃ old ∈ before.items name,
    Record.Cleared (before.schema.Nullable name) old record
  joins : ∃ P, after.joins = before.joins.without P

theorem Fades.refl (store : Store) : Fades store store :=
  ⟨rfl, fun _ record hrecord => ⟨record, hrecord, .refl record⟩, _,
    (Joins.without_false _).symm⟩

theorem Fades.trans (h : Fades store next) (h' : Fades next last) : Fades store last := by
  obtain ⟨P, hjoins⟩ := h.joins
  obtain ⟨Q, hjoins'⟩ := h'.joins
  refine ⟨h'.schema_eq.trans h.schema_eq, fun name record hrecord => ?_, _,
    hjoins' ▸ hjoins ▸ Joins.without_without store.joins P Q⟩
  obtain ⟨old, hold, hcleared⟩ := h'.items name record hrecord
  obtain ⟨first, hfirst, hcleared'⟩ := h.items name old hold
  exact ⟨first, hfirst, hcleared'.trans (h.schema_eq ▸ hcleared)⟩

/-- No record of the store holds a scope that none has held before. -/
theorem Fades.holdsAll_eq_false (h : Fades store next) {name : String}
    (hscope : ∀ entry ∈ scope, entry.2.isNull = false)
    (hnone : ∀ item ∈ store.items name, Record.holdsAll item scope = false) :
    ∀ item ∈ next.items name, Record.holdsAll item scope = false := by
  intro item hitem
  obtain ⟨old, hold, hcleared⟩ := h.items name item hitem
  exact Bool.eq_false_iff.mpr fun hholds =>
    Bool.eq_false_iff.mp (hnone old hold) (hcleared.holdsAll hscope hholds)

theorem Forgotten.mono (h : store.Forgotten model record) (hfades : Fades store next) :
    next.Forgotten model record := by
  refine ⟨fun field linkage dependents scope hdetaches hscope => ?_, ?_⟩
  · rw [hfades.schema_eq] at hdetaches
    refine hfades.holdsAll_eq_false (fun entry hentry => ?_)
      (h.detached field linkage dependents scope hdetaches hscope)
    obtain ⟨-, -, -, hnull⟩ := Linkage.mem_scope hscope entry hentry
    exact hnull
  · obtain ⟨P, hjoins⟩ := hfades.joins
    rw [hjoins]
    exact h.unlinked.without

/-! ## What a delete has done -/

/-- A running delete: who has left, and what has become of everything else. -/
structure Thinned (origin : Store) (left : Leavers) (store : Store) : Prop where
  schema_eq : store.schema = origin.schema
  remains : ∀ name, Remains (Record.Cleared (origin.schema.Nullable name))
    (fun i => ∃ record, left name i record) (origin.items name) (store.items name)
  standing : ∀ name i record, left name i record → ∃ old, (origin.items name)[i]? = some old ∧
    Record.Cleared (origin.schema.Nullable name) old record
  joins : ∃ P, store.joins = origin.joins.without P ∧
    ∀ name id, P name id → origin.schema.Names left name id

/-- A part of a delete: more records have left, and those among them that are new are forgotten. -/
structure Proceeds (origin : Store) (left : Leavers) (store : Store) (more : Leavers)
    (next : Store) : Prop where
  thinned : Thinned origin more next
  fades : Fades store next
  grows : ∀ name i record, left name i record → more name i record
  forgotten : ∀ model ∈ origin.schema.models, ∀ i record, more model.name i record →
    ¬ left model.name i record → next.Forgotten model record

theorem Proceeds.refl (h : Thinned origin left store) : Proceeds origin left store left store :=
  ⟨h, .refl store, fun _ _ _ h => h, fun _ _ _ _ h hnot => absurd h hnot⟩

theorem Proceeds.trans (h : Proceeds origin left store more next)
    (h' : Proceeds origin more next most last) : Proceeds origin left store most last := by
  refine ⟨h'.thinned, h.fades.trans h'.fades,
    fun name i record hleft => h'.grows _ _ _ (h.grows _ _ _ hleft), ?_⟩
  intro model hmodel i record hmost hleft
  by_cases hmore : more model.name i record
  · exact (h.forgotten model hmodel i record hmore hleft).mono h'.fades
  · exact h'.forgotten model hmodel i record hmost hmore

/-- A change that takes no record out is a part of a delete. -/
theorem Proceeds.of_fades (h : Thinned origin left next) (hfades : Fades store next) :
    Proceeds origin left store left next :=
  ⟨h, hfades, fun _ _ _ hleft => hleft, fun _ _ _ _ hleft hnot => absurd hleft hnot⟩

/-! ## Steps -/

/-- More records that leave a collection. -/
def Leaving (left : Leavers) (model : Model) (taken : Nat → Record → Prop) : Leavers :=
  fun name i record => left name i record ∨ name = model.name ∧ taken i record

/-- Taking records out of a collection makes them leave. -/
theorem Thinned.take (h : Thinned origin left store) {kept : List Record}
    {taken : Nat → Record → Prop}
    (hremains : Remains (Record.Cleared (origin.schema.Nullable model.name))
      (fun i => ∃ record, left model.name i record ∨ taken i record) (origin.items model.name) kept)
    (hstanding : ∀ i record, taken i record → ∃ old, (origin.items model.name)[i]? = some old ∧
      Record.Cleared (origin.schema.Nullable model.name) old record) :
    Thinned origin (Leaving left model taken) (store.replaceCollection model.name kept) := by
  obtain ⟨P, hjoins, hnames⟩ := h.joins
  refine ⟨h.schema_eq, fun name => ?_, fun name i record hleft => ?_, P, hjoins,
    fun name id hid => (hnames name id hid).mono fun _ _ _ => Or.inl⟩
  · by_cases hname : name = model.name
    · subst hname
      rw [items_replaceCollection_self]
      refine hremains.weaken (fun _ _ h => h) fun i _ => exists_congr fun record => ?_
      exact or_congr_right (and_iff_right rfl).symm
    · rw [items_replaceCollection_of_ne hname]
      refine (h.remains name).weaken (fun _ _ h => h) fun i _ => exists_congr fun record => ?_
      exact (or_iff_left fun h => hname h.1).symm
  · rcases hleft with hleft | ⟨rfl, htaken⟩
    · exact h.standing name i record hleft
    · exact hstanding i record htaken

theorem Fades.take {kept : List Record} (h : ∀ record ∈ kept, record ∈ store.items model.name) :
    Fades store (store.replaceCollection model.name kept) := by
  refine ⟨rfl, fun name record hrecord => ?_, _, (Joins.without_false store.joins).symm⟩
  by_cases hname : name = model.name
  · subst hname
    rw [items_replaceCollection_self] at hrecord
    exact ⟨record, h record hrecord, .refl record⟩
  · rw [items_replaceCollection_of_ne hname] at hrecord
    exact ⟨record, hrecord, .refl record⟩

theorem schema_detach (store : Store) (model : Model) (scope detached : Record) :
    (store.detach model scope detached).schema = store.schema := by
  unfold detach
  split <;> rfl

theorem joins_detach (store : Store) (model : Model) (scope detached : Record) :
    (store.detach model scope detached).joins = store.joins := by
  unfold detach
  split <;> rfl

/-- Detaching writes nulls into the records that hold the scope. -/
theorem items_detach (store : Store) (model : Model) (scope detached : Record) :
    (store.detach model scope detached).items model.name =
      store.detachedItems model scope detached := by
  unfold detach
  split
  · exact items_replaceCollection_self store _ _
  · rename_i hnone
    conv_lhs => rw [← List.map_id (store.items model.name)]
    refine List.map_congr_left fun item hitem => ?_
    rw [if_neg fun hholds => hnone (List.any_eq_true.mpr ⟨item, hitem, hholds⟩), id]

theorem items_detach_of_ne {name : String} (h : name ≠ model.name) (store : Store)
    (scope detached : Record) :
    (store.detach model scope detached).items name = store.items name := by
  unfold detach
  split
  · exact items_replaceCollection_of_ne h store _
  · rfl

/-- Detaching clears columns, and does nothing else. -/
theorem Proceeds.detach (h : Thinned origin left store) {columns : List String}
    (hcolumns : ∀ column ∈ columns, origin.schema.Nullable dependents.name column) :
    Proceeds origin left store left
      (store.detach dependents scope (Record.unbind columns [])) := by
  have hcleared (item : Record) : Record.Cleared (origin.schema.Nullable dependents.name) item
      (if Record.holdsAll item scope then Entries.insertAll item (Record.unbind columns [])
        else item) := by
    split
    · exact Record.cleared_insertAll_unbind hcolumns item
    · exact .refl item
  refine .of_fades ⟨(schema_detach ..).trans h.schema_eq, fun name => ?_, h.standing, ?_⟩
    ⟨schema_detach .., fun name record hrecord => ?_, _,
      (joins_detach ..).trans (Joins.without_false _).symm⟩
  · by_cases hname : name = dependents.name
    · subst hname
      rw [items_detach]
      exact (h.remains _).map fun old record hrecord => hrecord.trans (hcleared record)
    · rw [items_detach_of_ne hname]
      exact h.remains name
  · rw [joins_detach]
    exact h.joins
  · rw [h.schema_eq]
    by_cases hname : name = dependents.name
    · subst hname
      rw [items_detach] at hrecord
      obtain ⟨item, hitem, rfl⟩ := List.mem_map.mp hrecord
      exact ⟨item, hitem, hcleared item⟩
    · rw [items_detach_of_ne hname] at hrecord
      exact ⟨record, hrecord, .refl record⟩

/-- No record holds a scope once those that held it have been detached. -/
theorem holdsAll_detach {linkage : Linkage} (hscope : linkage.scope record = some scope)
    (hkeyed : linkage.columns ≠ []) (store : Store) (model : Model) :
    ∀ item ∈ (store.detach model scope linkage.detached).items model.name,
      Record.holdsAll item scope = false := by
  -- the scope has a value for some column, and that column is null in what was detached
  obtain ⟨pair, hpair⟩ := List.exists_mem_of_ne_nil _ hkeyed
  obtain ⟨entry, hentry, hname⟩ := List.mem_map.mp (Linkage.mem_keys_scope hscope pair hpair)
  obtain ⟨column, hcolumn, -, hnull⟩ := Linkage.mem_scope hscope entry hentry
  have hforeign : entry.1 ∈ linkage.foreign :=
    (List.of_mem_zip (a := column) (b := entry.1) hcolumn).2
  intro item hitem
  rw [items_detach] at hitem
  obtain ⟨old, hold, rfl⟩ := List.mem_map.mp hitem
  split
  · refine Bool.eq_false_iff.mpr fun hholds => ?_
    have hvalue := List.all_eq_true.mp hholds entry hentry
    have hget : Entries.get? entry.1 (Entries.insertAll old linkage.detached) = some .null :=
      (Record.get?_insertAll_unbind linkage.foreign entry.1 old).trans (if_pos hforeign)
    dsimp only at hvalue
    rw [hget] at hvalue
    have hequals : Value.equals .plain .null entry.2 = true := hvalue
    cases Value.isNull_of_equals hnull hequals
  · exact Bool.eq_false_iff.mpr ‹_›

/-- Removing the links of a record that has left is a part of a delete. -/
theorem Proceeds.unlinkAll (h : Thinned origin left store)
    (hleft : ∀ id, model.Identifies record id → origin.schema.Names left model.name id) :
    Proceeds origin left store left (store.unlinkAll model record) := by
  unfold Store.unlinkAll
  dsimp only
  split
  · exact .refl h
  · rename_i hnull
    obtain ⟨P, hjoins, hnames⟩ := h.joins
    have hcleanup := Joins.cleanup_eq_without store.joins model.name (model.recordId record)
    refine .of_fades ⟨h.schema_eq, h.remains, h.standing, _,
      hcleanup.trans (hjoins ▸ Joins.without_without origin.joins P _), ?_⟩
      ⟨rfl, fun _ item hitem => ⟨item, hitem, .refl item⟩, _, hcleanup⟩
    rintro name id (hgone | ⟨rfl, hsame⟩)
    · exact hnames name id hgone
    · exact hleft id ⟨Bool.not_eq_true _ ▸ hnull, hsame⟩

/-- No link has the id of a record whose links have been removed. -/
theorem unlinked_unlinkAll (store : Store) (model : Model) (record : Record) :
    (store.unlinkAll model record).joins.EachEnd fun name id =>
      ¬ (name = model.name ∧ model.Identifies record id) := by
  unfold Store.unlinkAll
  dsimp only
  split
  · rename_i hnull
    have hnone (name : String) (id : Value) : ¬ (name = model.name ∧ model.Identifies record id) :=
      fun hid => Bool.eq_false_iff.mp hid.2.1 hnull
    exact fun join _ link _ => ⟨hnone _ link.a, hnone _ link.b⟩
  · show (store.joins.cleanup model.name (model.recordId record)).EachEnd _
    rw [Joins.cleanup_eq_without]
    exact (Joins.eachEnd_without store.joins _).imp fun name id hnot ⟨hname, hid⟩ =>
      hnot ⟨hname, hid.2⟩

end Store

/-! ## Through a delete -/

namespace Write

open Store

variable {origin current : Store} {base left taken : Leavers} {model : Model} {record : Record}

/-- A write that is a part of a delete wherever it starts, once some records have left, and after
    which something holds. -/
def Deletes {α : Type} (origin : Store) (base : Leavers) (w : Write α) (done : Store → Prop) :
    Prop :=
  ∀ left current, (∀ name i record, base name i record → left name i record) →
    Thinned origin left current →
      Triple (· = current) w
        (fun _ next => ∃ more, Proceeds origin left current more next ∧ done next) fun _ _ => True

/-- A loop does what each of its steps does, since what is done is not undone. -/
theorem Deletes.forM {ι : Type} {f : ι → Write Unit} {done : ι → Store → Prop}
    (hmono : ∀ x store next, done x store → Fades store next → done x next) :
    ∀ items : List ι, (∀ x ∈ items, Deletes origin base (f x) (done x)) →
      Deletes origin base (items.forM f) fun next => ∀ x ∈ items, done x next := by
  intro items
  induction items with
  | nil =>
      intro _ left current _ hcurrent
      refine Triple.pure ?_
      rintro _ rfl
      exact ⟨left, .refl hcurrent, List.forall_mem_nil _⟩
  | cons x rest ih =>
      intro hsteps left current hbase hcurrent
      refine Triple.bind (hsteps x List.mem_cons_self left current hbase hcurrent) fun _ => ?_
      rintro store ⟨more, hproceeds, hfirst⟩
      refine (ih (fun y hy => hsteps y (List.mem_cons_of_mem _ hy)) more store
        (fun name i record h => hproceeds.grows _ _ _ (hbase name i record h))
        hproceeds.thinned).weaken (fun _ h => h) ?_ store rfl
      rintro _ next ⟨most, hmore, hrest⟩
      exact ⟨most, hproceeds.trans hmore,
        List.forall_mem_cons.mpr ⟨hmono x store next hfirst hmore.fades, hrest⟩⟩

/-- No dependent through a relation holds the key values of a record. -/
def Releases (schema : Schema) (model : Model) (record : Record) (field : Field) (store : Store) :
    Prop :=
  ∀ linkage dependents scope, schema.Detaches model field linkage dependents →
    linkage.scope record = some scope →
      ∀ item ∈ store.items dependents.name, Record.holdsAll item scope = false

/-- What does nothing releases the dependents of a record, if none are to be released. -/
theorem triple_idle {α : Type} {a : α} {model : Model} {record : Record} {field : Field}
    (hcurrent : Thinned origin left current) (hnone : ∀ linkage dependents scope,
      origin.schema.Detaches model field linkage dependents → linkage.scope record ≠ some scope) :
    Triple (fun store => store = current) (Pure.pure a : Write α)
      (fun _ next => ∃ more, Proceeds origin left current more next ∧
        Releases origin.schema model record field next) fun _ _ => True := by
  refine Triple.pure ?_
  rintro _ rfl
  exact ⟨left, .refl hcurrent, fun linkage dependents scope hdetaches hscope =>
    absurd hscope (hnone linkage dependents scope hdetaches)⟩

section

variable {cascade : Model → Record → Write Unit}
variable (hcascade : ∀ dependents ∈ origin.schema.models, ∀ scope,
  Deletes origin base (cascade dependents scope) fun _ => True)
include hcascade

/-- The policy of a relation releases the dependents if it is to null their keys. -/
theorem deletes_applyPolicy (model : Model) (record : Record) {field : Field} :
    Deletes origin base (applyPolicy cascade model record field)
      (Releases origin.schema model record field) := by
  intro left current hbase hcurrent
  refine Triple.bind_get fun found hfound => ?_
  obtain rfl : found = current := hfound
  rw [hcurrent.schema_eq]
  dsimp only
  cases hlinked : origin.schema.linkage? model field with
  | none => exact triple_idle hcurrent fun _ _ _ h => by cases hlinked.symm.trans h.linked
  | some linkage =>
      have hlinkage {other : Linkage} {others : Model}
          (h : origin.schema.Detaches model field other others) : other = linkage :=
        Option.some.inj (h.linked.symm.trans hlinked)
      dsimp only
      by_cases howned : linkage.owned = true
      · rw [if_pos howned]
        refine triple_idle hcurrent fun other others _ h => ?_
        have helsewhere := h.elsewhere
        rw [hlinkage h, howned] at helsewhere
        cases helsewhere
      · rw [if_neg howned]
        have helsewhere : linkage.owned = false := Bool.not_eq_true _ ▸ howned
        cases hpolicy : (origin.schema.reciprocal? model field).bind (·.onDelete) with
        | none => exact triple_idle hcurrent fun _ _ _ h => by cases hpolicy.symm.trans h.policy
        | some policy =>
            cases hscope : linkage.scope record with
            | none =>
                refine triple_idle hcurrent fun other others scope h hother => ?_
                rw [hlinkage h, hscope] at hother
                cases hother
            | some scope =>
                refine Triple.bind_require (fun dependents hrelated => ?_) fun _ _ _ _ => trivial
                cases policy with
                | cascade =>
                    refine (hcascade dependents (Schema.mem_of_relatedModel hrelated) scope left
                      found hbase hcurrent).weaken (fun _ h => h) ?_
                    rintro _ next ⟨more, hproceeds, -⟩
                    exact ⟨more, hproceeds,
                      fun _ _ _ h _ => by cases hpolicy.symm.trans h.policy⟩
                | setNull =>
                    refine Triple.modify ?_
                    rintro _ rfl
                    refine ⟨left, ?_, ?_⟩
                    · exact .detach hcurrent
                        (Schema.nullable_of_setNull hlinked helsewhere hpolicy hrelated)
                    · intro other others wanted h hwanted
                      obtain rfl := hlinkage h
                      obtain rfl := Except.ok.inj (hrelated.symm.trans h.related)
                      obtain rfl := Option.some.inj (hscope.symm.trans hwanted)
                      exact holdsAll_detach hscope h.keyed _ dependents
                | _ => exact triple_idle hcurrent fun _ _ _ h => by cases hpolicy.symm.trans h.policy

/-- After what follows its removal, a record is forgotten. -/
theorem deletes_afterDelete
    (hleft : ∀ id, model.Identifies record id → origin.schema.Names base model.name id) :
    Deletes origin base (afterDelete cascade model record) (Forgotten · model record) := by
  intro left current hbase hcurrent
  have hunlinked : Proceeds origin left current left (current.unlinkAll model record) :=
    .unlinkAll hcurrent fun id hid => (hleft id hid).mono hbase
  refine Triple.bind (M := fun _ store => store = current.unlinkAll model record)
    (Triple.modify fun store hstore => congrArg (Store.unlinkAll · model record) hstore)
    fun _ => ?_
  refine (Deletes.forM (fun field store next h hfades => ?_) model.relationFields
    (fun field _ => deletes_applyPolicy hcascade model record) left _ hbase
    hunlinked.thinned).weaken (fun _ h => h) ?_
  · intro linkage dependents scope hdetaches hscope
    refine hfades.holdsAll_eq_false (fun entry hentry => ?_)
      (h linkage dependents scope hdetaches hscope)
    obtain ⟨-, -, -, hnull⟩ := Linkage.mem_scope hscope entry hentry
    exact hnull
  · rintro _ next ⟨more, hmore, hreleased⟩
    refine ⟨more, hunlinked.trans hmore, fun field linkage dependents scope hdetaches hscope => ?_,
      ?_⟩
    · rw [hmore.thinned.schema_eq] at hdetaches
      exact hreleased field hdetaches.member linkage dependents scope hdetaches hscope
    · obtain ⟨P, hjoins⟩ := hmore.fades.joins
      rw [hjoins]
      exact (unlinked_unlinkAll current model record).without

/-- After what follows the removal of several records, each of them is forgotten. -/
theorem deletes_afterEach (hmodel : model ∈ origin.schema.models) (records : List Record)
    (hrecords : ∀ record ∈ records, ∃ i, base model.name i record) :
    Deletes origin base (records.forM (afterDelete cascade model)) fun next =>
      ∀ record ∈ records, next.Forgotten model record := by
  refine Deletes.forM (fun _ _ _ h hfades => h.mono hfades) records fun record hrecord => ?_
  obtain ⟨i, hbase⟩ := hrecords record hrecord
  exact deletes_afterDelete hcascade fun id hid => ⟨model, hmodel, rfl, i, record, hbase, hid⟩

end

/-- A delete by a filter takes the records that satisfy it, and they are forgotten. -/
theorem triple_deleteWithin_succ {depth : Nat}
    (hcascade : ∀ base, ∀ dependents ∈ origin.schema.models, ∀ scope, Deletes origin base
      (discard (deleteWithin depth dependents (some scope))) fun _ => True)
    (hmodel : model ∈ origin.schema.models) (hcurrent : Thinned origin left current)
    {filter : Option Record} {test : Record → Bool}
    (hfilter : ∀ record, filter.all (fun filter => current.satisfies model record filter)
      = test record)
    (htaken : Thinned origin taken (current.replaceCollection model.name
      ((current.items model.name).filter fun record => !test record)))
    (hgrows : ∀ name i record, left name i record → taken name i record)
    (hnew : ∀ name i record, taken name i record → ¬ left name i record →
      name = model.name ∧ record ∈ (current.items model.name).filter test)
    (hall : ∀ record ∈ (current.items model.name).filter test, ∃ i, taken model.name i record) :
    Triple (· = current) (deleteWithin (depth + 1) model filter)
      (fun removed next => removed = (current.items model.name).filter test ∧
        ∃ more, Proceeds origin left current more next ∧
          ∀ name i record, taken name i record → more name i record)
      fun _ _ => True := by
  unfold deleteWithin
  refine Triple.bind_get fun found hfound => ?_
  obtain rfl : found = current := hfound
  rw [List.partition_eq_filter_filter, funext hfilter]
  dsimp only
  by_cases hempty : ((found.items model.name).filter test).isEmpty = true
  · rw [if_pos hempty]
    refine Triple.pure ?_
    rintro _ rfl
    refine ⟨(List.isEmpty_iff.mp hempty).symm, left, .refl hcurrent, fun name i record h => ?_⟩
    by_contra hnot
    have hmem := (hnew name i record h hnot).2
    rw [List.isEmpty_iff.mp hempty] at hmem
    cases hmem
  · rw [if_neg hempty]
    refine Triple.bind (M := fun _ store => store = found.replaceCollection model.name
      ((found.items model.name).filter fun record => !test record))
      (Triple.set fun _ _ => rfl) fun _ => ?_
    refine Triple.bind (deletes_afterEach (hcascade taken) hmodel _ hall taken _
      (fun _ _ _ h => h) htaken) fun _ => Triple.pure ?_
    rintro next ⟨more, hmore, hforgotten⟩
    refine ⟨rfl, more, ⟨hmore.thinned, ?_, ?_, ?_⟩, hmore.grows⟩
    · exact (Fades.take fun record hrecord => List.mem_of_mem_filter hrecord).trans hmore.fades
    · exact fun name i record h => hmore.grows _ _ _ (hgrows name i record h)
    · intro other hother i record hmost hleft
      by_cases hsecond : taken other.name i record
      · obtain ⟨hname, hmem⟩ := hnew _ i record hsecond hleft
        obtain rfl := Schema.eq_of_name_eq hother hmodel hname
        exact hforgotten record hmem
      · exact hmore.forgotten other hother i record hmost hsecond

/-- A cascade is a part of a delete, at any depth. -/
theorem deletes_deleteWithin (depth : Nat) : ∀ base, ∀ dependents ∈ origin.schema.models,
    ∀ scope, Deletes origin base (discard (deleteWithin depth dependents (some scope)))
      fun _ => True := by
  induction depth with
  | zero => exact fun _ _ _ _ _ _ _ _ => Triple.discard (Triple.throw fun _ _ => trivial)
  | succ depth ih =>
      intro base dependents hmember scope left current _ hcurrent
      let test (record : Record) : Bool := current.satisfies dependents record scope
      obtain ⟨chosen, hchosen, hall, hremains⟩ := (hcurrent.remains dependents.name).take test
      have htaken : Thinned origin (Leaving left dependents chosen)
          (current.replaceCollection dependents.name
            ((current.items dependents.name).filter fun record => !test record)) :=
        hcurrent.take (hremains.weaken (fun _ _ h => h) fun i _ => exists_or.symm)
          fun i record h => (hchosen i record h).2.2.2
      have hfilter (record : Record) : (some scope).all
          (fun filter => current.satisfies dependents record filter) = test record := rfl
      refine Triple.discard ((triple_deleteWithin_succ ih hmember hcurrent hfilter htaken
        (fun _ _ _ h => Or.inl h) ?_ ?_).weaken (fun _ h => h) ?_)
      · intro name i record h hnot
        obtain ⟨rfl, hpicked⟩ := h.resolve_left hnot
        obtain ⟨-, hmem, htest, -⟩ := hchosen i record hpicked
        exact ⟨rfl, List.mem_filter.mpr ⟨hmem, htest⟩⟩
      · intro record hrecord
        obtain ⟨hmem, htest⟩ := List.mem_filter.mp hrecord
        obtain ⟨i, h⟩ := hall record hmem htest
        exact ⟨i, Or.inr ⟨rfl, h⟩⟩
      · rintro _ next ⟨-, more, hmore, -⟩
        exact ⟨more, hmore, trivial⟩

end Write

/-! ## Whole deletes -/

namespace Store

variable {store next : Store} {model : Model} {a b : Record}

/-- At the start of a delete nothing has left. -/
theorem thinned_start (store : Store) : Thinned store (fun _ _ _ => False) store := by
  refine ⟨rfl, fun name => ?_, fun _ _ _ h => h.elim, _, (Joins.without_false _).symm,
    fun _ _ h => h.elim⟩
  exact (Remains.all Record.Cleared.refl _).weaken (fun _ _ h => h)
    fun i _ => ⟨False.elim, fun ⟨_, h⟩ => h⟩

/-- Taking records out by a test is the start of a delete. -/
theorem thinned_filter (store : Store) (model : Model) (test : Record → Bool) :
    Thinned store (Leaving (fun _ _ _ => False) model fun i record =>
        (store.items model.name)[i]? = some record ∧ test record = true)
      (store.replaceCollection model.name
        ((store.items model.name).filter fun record => !test record)) := by
  have htest (old record : Record) (h : old = record) : test record = test old := by rw [h]
  have hremains := (Remains.all (fun _ => rfl) (store.items model.name)).filter htest
  refine (thinned_start store).take (hremains.weaken (fun _ _ h => h ▸ .refl _) fun i _ => ?_)
    fun i record h => ⟨record, h.1, .refl record⟩
  rw [false_or]
  exact exists_congr fun record => (or_iff_right id).symm

/-- So is taking out one record. -/
theorem thinned_without {first later : List Record} {old : Record}
    (hitems : store.items model.name = first ++ old :: later) :
    Thinned store (Leaving (fun _ _ _ => False) model fun i record =>
        i = first.length ∧ record = old)
      (store.replaceCollection model.name (first ++ later)) := by
  refine (thinned_start store).take ?_ fun i record h => ⟨old, ?_, ?_⟩
  · rw [hitems]
    refine (Remains.without Record.Cleared.refl first later old).weaken (fun _ _ h => h)
      fun i _ => ⟨fun hi => ⟨old, Or.inr ⟨hi, rfl⟩⟩, fun ⟨_, h⟩ => (h.resolve_left id).1⟩
  · rw [h.1, hitems]
    simp
  · rw [h.2]
    exact .refl old

/-- A delete that has come to its end: the records that it was to start with have left, and all
    that have left are forgotten. -/
structure Completed (origin : Store) (seed : String → Nat → Prop) (left : Leavers)
    (store : Store) : Prop where
  thinned : Thinned origin left store
  forgotten : ∀ model ∈ origin.schema.models, ∀ i record, left model.name i record →
    store.Forgotten model record
  seeded : ∀ name i record, seed name i → (origin.items name)[i]? = some record →
    left name i record

/-- The scopes of equal records are held by the same records. -/
theorem holdsAll_of_alike {scope other item : Record} (h : Record.Alike scope other)
    (hholds : Record.holdsAll item scope = true) : Record.holdsAll item other = true := by
  induction h with
  | nil => rfl
  | @cons x y scope other hentry _ ih =>
      obtain ⟨hname, halike⟩ := hentry
      rw [Record.holdsAll, List.all_cons, Bool.and_eq_true] at hholds ⊢
      refine ⟨?_, ih hholds.2⟩
      have hfirst := hholds.1
      dsimp only at hfirst ⊢
      rw [hname]
      cases hvalue : Entries.get? x.1 item with
      | none =>
          rw [hvalue] at hfirst
          exact halike.isNull_eq.symm.trans hfirst
      | some value =>
          rw [hvalue] at hfirst
          rcases halike with heq | hsame
          · exact heq ▸ hfirst
          · exact Value.equalsPlain_trans_same hfirst hsame

/-- When a record is forgotten, so is every record equal to it. -/
theorem Forgotten.of_same (h : store.Forgotten model b) (hsame : Record.same a b = true) :
    store.Forgotten model a := by
  refine ⟨fun field linkage dependents scope hdetaches hscope item hitem => ?_,
    h.unlinked.imp fun name id hnot ⟨hname, hid⟩ =>
      hnot ⟨hname, Model.identifies_of_same (Record.same_symm hsame) hid⟩⟩
  have halike : Option.Rel Record.Alike (linkage.scope a) (linkage.scope b) := by
    refine Linkage.scope_alike fun pair _ => ?_
    have hget := Record.get?_of_same hsame pair.1
    generalize Entries.get? pair.1 a = x at hget
    generalize Entries.get? pair.1 b = y at hget
    cases hget with
    | none => exact .none
    | some hvalue => exact .some (Or.inr hvalue)
  rw [hscope] at halike
  cases hother : linkage.scope b with
  | none => rw [hother] at halike; cases halike
  | some other =>
      rw [hother] at halike
      obtain ⟨halike⟩ := halike
      have hnone := h.detached field linkage dependents other hdetaches hother item hitem
      exact Bool.eq_false_iff.mpr fun hholds =>
        Bool.eq_false_iff.mp hnone (holdsAll_of_alike halike hholds)

end Store

namespace Write

open Store

variable {store : Store} {model : Model}

theorem completed_deleteMatching (hmodel : model ∈ store.schema.models)
    (filter : Option Record) :
    ∃ next left, (deleteMatching model filter).outcome store =
        (.ok (store.select model filter (store.items model.name)), next) ∧
      store.Completed (store.Matching model filter) left next := by
  let test (record : Record) : Bool := filter.all fun filter => store.satisfies model record filter
  obtain ⟨removed, next, hrun⟩ :=
    Shrinks.succeeds (fun bound => shrinks_deleteMatching bound model filter) store
  have hselect : (store.items model.name).filter test =
      store.select model filter (store.items model.name) := by
    cases filter with
    | none => exact List.filter_eq_self.mpr fun _ _ => rfl
    | some filter => rfl
  have hfilter (record : Record) :
      filter.all (fun filter => store.satisfies model record filter) = test record := rfl
  have hdelete := triple_deleteWithin_succ (deletes_deleteWithin store.recordCount) hmodel
    (thinned_start store) hfilter (thinned_filter store model test) (fun _ _ _ h => h.elim)
    (fun name i record h _ => ?_) fun record hrecord => ?_
  · obtain ⟨rfl, more, hproceeds, hmore⟩ :=
      hdelete.ok rfl ((outcome_deleteMatching model filter store).symm.trans hrun)
    refine ⟨next, more, ?_, hproceeds.thinned,
      fun other hother i record hleft => hproceeds.forgotten other hother i record hleft id, ?_⟩
    · rw [hrun, ← hselect]
    · rintro name i record ⟨rfl, old, hold, hpass⟩ hrecord
      obtain rfl := Option.some.inj (hold.symm.trans hrecord)
      exact hmore _ i old (Or.inr ⟨rfl, hold, hpass⟩)
  · obtain ⟨rfl, hrecord, hpass⟩ := h.resolve_left id
    exact ⟨rfl, List.mem_filter.mpr ⟨List.mem_of_getElem? hrecord, hpass⟩⟩
  · obtain ⟨hmem, hpass⟩ := List.mem_filter.mp hrecord
    obtain ⟨i, hi⟩ := List.mem_iff_getElem?.mp hmem
    exact ⟨i, Or.inr ⟨rfl, hi, hpass⟩⟩

theorem completed_deleteRecord (hmodel : model ∈ store.schema.models) (target : Record) :
    ∃ next left, (deleteRecord model target).outcome store = (.ok (), next) ∧
      store.Completed (store.FirstEqual model target) left next := by
  obtain ⟨⟨⟩, next, hrun⟩ :=
    Shrinks.succeeds (fun bound => shrinks_deleteRecord bound model target) store
  refine ⟨next, ?_⟩
  rw [hrun]
  rw [deleteRecord, outcome_bind_get] at hrun
  cases hremove : removeFirst target (store.items model.name) with
  | none =>
      rw [hremove, outcome_pure] at hrun
      obtain ⟨-, rfl⟩ := Prod.mk.inj hrun
      refine ⟨_, rfl, thinned_start store, fun _ _ _ _ h => h.elim, ?_⟩
      rintro name i record ⟨rfl, ⟨old, hold, hsame⟩, -⟩ -
      have hdiffers := removeFirst_eq_none hremove old (List.mem_of_getElem? hold)
      cases hsame.symm.trans hdiffers
  | some kept =>
      rw [hremove] at hrun
      obtain ⟨⟨⟩, removed, hset, hafter⟩ := outcome_bind_ok hrun
      rw [outcome_set] at hset
      obtain ⟨-, rfl⟩ := Prod.mk.inj hset
      obtain ⟨first, old, later, hitems, hfirst, hsame, rfl⟩ := split_of_removeFirst hremove
      -- what is forgotten is the target, which may differ from the record taken but for its values
      obtain ⟨more, hmore, hforgotten⟩ := (deletes_afterDelete
        (deletes_deleteWithin (store.recordCount + 1) _) (fun id hid =>
          ⟨model, hmodel, rfl, first.length, old, Or.inr ⟨rfl, rfl, rfl⟩,
            Model.identifies_of_same hsame hid⟩) _ _ (fun _ _ _ h => h)
        (thinned_without hitems)).ok rfl hafter
      refine ⟨more, rfl, hmore.thinned, fun other hother i record hleft => ?_, ?_⟩
      · by_cases htaken : other.name = model.name ∧ i = first.length ∧ record = old
        · obtain ⟨hname, -, rfl⟩ := htaken
          obtain rfl := Schema.eq_of_name_eq hother hmodel hname
          exact hforgotten.of_same hsame
        · exact hmore.forgotten other hother i record hleft fun h => htaken (h.resolve_left id)
      · intro name i record hseed hrecord
        obtain rfl := hseed.eq (firstEqual_of_split hitems hfirst hsame)
        obtain ⟨rfl, -⟩ := hseed
        obtain rfl : old = record := by simpa [hitems] using hrecord
        exact hmore.grows _ _ _ (Or.inr ⟨rfl, rfl, rfl⟩)

end Write

end RecordStore
