import RecordStore.Proofs.Delete.Cascade

/-!
# Cascades reach the closure

The invariant of a running delete: the positions that are gone are doomed, and all other records
are left, at most with nulls in columns that may be nulled.  A cascade adds positions to those that
are gone, and by the time it ends the dependents of all that it added are gone as well.  A whole
delete starts with nothing gone, so what is gone in the end is closed under dependents; being
doomed as well, it is exactly what is doomed.
-/

namespace RecordStore

namespace Store

variable {origin store : Store} {seed gone next last : String → Nat → Prop}
variable {model dependents : Model} {field : Field} {old record scope : Record}

/-! ## The invariant -/

/-- A running delete has taken doomed positions and no others, and has left the rest in place. -/
structure Progress (origin : Store) (seed gone : String → Nat → Prop) (store : Store) : Prop where
  schema_eq : store.schema = origin.schema
  remains : ∀ name, Remains (Record.Detached (origin.schema.Nullable name)) (gone name)
    (origin.items name) (store.items name)
  doomed : ∀ name i, gone name i → origin.Doomed seed name i

/-- The dependents of a record through a relation field are gone. -/
def Covers (origin : Store) (gone : String → Nat → Prop) (model : Model) (record : Record)
    (field : Field) : Prop :=
  ∀ linkage dependents scope, origin.schema.Cascades model field linkage dependents →
    linkage.scope record = some scope → ∀ (j : Nat) (item : Record),
      (origin.items dependents.name)[j]? = some item → Filter.fits dependents scope item = true →
        gone dependents.name j

/-- More positions are gone, and with each of the new ones all of its dependents. -/
structure Spreads (origin : Store) (gone next : String → Nat → Prop) : Prop where
  grows : ∀ name i, gone name i → next name i
  closed : ∀ model ∈ origin.schema.models, ∀ i, next model.name i → ¬ gone model.name i →
    ∀ old, (origin.items model.name)[i]? = some old → ∀ field, origin.Covers next model old field

theorem Covers.mono (h : origin.Covers gone model record field)
    (hgrows : ∀ name i, gone name i → next name i) : origin.Covers next model record field :=
  fun linkage dependents scope hcascades hscope j item hitem hfits =>
    hgrows _ _ (h linkage dependents scope hcascades hscope j item hitem hfits)

theorem Spreads.refl : origin.Spreads gone gone :=
  ⟨fun _ _ h => h, fun _ _ _ h hnot => absurd h hnot⟩

theorem Spreads.trans (h : origin.Spreads gone next) (h' : origin.Spreads next last) :
    origin.Spreads gone last := by
  refine ⟨fun name i hi => h'.grows name i (h.grows name i hi), ?_⟩
  intro model hmodel i hlast hgone old hold field
  by_cases hnext : next model.name i
  · exact (h.closed model hmodel i hnext hgone old hold field).mono h'.grows
  · exact h'.closed model hmodel i hlast hnext old hold field

/-- The dependents of a doomed record are doomed, and what a delete has to know of their scopes. -/
structure Dooms (origin : Store) (seed : String → Nat → Prop) (dependents : Model)
    (scope : Record) : Prop where
  member : dependents ∈ origin.schema.models
  plain : Filter.Plain dependents scope
  apart : ∀ entry ∈ scope, ¬ origin.schema.Nullable dependents.name entry.1
  doomed : ∀ (j : Nat) (item : Record), (origin.items dependents.name)[j]? = some item →
    Filter.fits dependents scope item = true → origin.Doomed seed dependents.name j

/-- A record that cascades like a doomed one dooms its own dependents. -/
theorem dooms_of_cascadesLike (hkeys : origin.schema.PlainKeys) (hscalar : origin.ScalarKeys)
    (hmodel : model ∈ origin.schema.models) {i : Nat} (hdoomed : origin.Doomed seed model.name i)
    (hold : (origin.items model.name)[i]? = some old)
    (hlike : origin.CascadesLike model.name old record) {linkage : Linkage}
    (hcascades : origin.schema.Cascades model field linkage dependents)
    (hscope : linkage.scope record = some scope) : origin.Dooms seed dependents scope := by
  have hsingle : ∀ column, origin.schema.Referred model.name column →
      (Record.valueAt column old).isScalar = true :=
    fun column hreferred => hscalar _ column hreferred old (List.mem_of_getElem? hold)
  obtain ⟨hplain, hapart⟩ := plain_scope hkeys hcascades
    (fun column hreferred => hlike.isScalar hreferred (hsingle column hreferred)) hscope
  refine ⟨Schema.mem_of_relatedModel hcascades.related, hplain, hapart, ?_⟩
  intro j item hitem hfits
  have hsame := hlike.fits_eq hkeys hcascades hsingle
  rw [hscope] at hsame
  cases hstart : linkage.scope old with
  | none => rw [hstart] at hsame; cases hsame
  | some start =>
      rw [hstart] at hsame
      obtain ⟨hsame⟩ := hsame
      have hplain' := (plain_scope hkeys hcascades hsingle hstart).1
      refine .dependent hmodel hdoomed hold hitem ⟨field, linkage, start, hcascades, hstart, ?_⟩
      rw [satisfies, Filter.satisfies_eq_fits hplain', hsame item]
      exact hfits

/-- What covers a record covers one that cascades like it. -/
theorem Covers.of_cascadesLike (h : origin.Covers gone model record field)
    (hkeys : origin.schema.PlainKeys)
    (hlike : origin.CascadesLike model.name old record)
    (hsingle : ∀ column, origin.schema.Referred model.name column →
      (Record.valueAt column old).isScalar = true) : origin.Covers gone model old field := by
  intro linkage dependents scope hcascades hscope j item hitem hfits
  have hsame := hlike.fits_eq hkeys hcascades hsingle
  rw [hscope] at hsame
  cases hother : linkage.scope record with
  | none => rw [hother] at hsame; cases hsame
  | some other =>
      rw [hother] at hsame
      obtain ⟨hsame⟩ := hsame
      exact h linkage dependents other hcascades hother j item hitem (hsame item ▸ hfits)

/-! ## Steps -/

/-- A record that holds the values of a scope has its columns. -/
theorem mem_keys_of_holdsAll {item : Record} (h : Record.holdsAll item scope = true)
    {entry : String × Value} (hentry : entry ∈ scope) (hnull : entry.2.isNull = false) :
    entry.1 ∈ Entries.keys item := by
  have hfits := List.all_eq_true.mp h entry hentry
  rw [Entries.mem_keys_iff, Entries.contains]
  cases hget : Entries.get? entry.1 item with
  | some _ => rfl
  | none =>
      simp only [hget] at hfits
      rw [hnull] at hfits
      cases hfits

/-- Nulling the columns of the dependents leaves all of them, detached. -/
theorem detached_dependents (hkeys : origin.schema.PlainKeys) {linkage : Linkage}
    (hlinked : origin.schema.linkage? model field = some linkage) (helsewhere : linkage.owned = false)
    (hpolicy : (origin.schema.reciprocal? model field).bind (·.onDelete) = some .setNull)
    (hrelated : origin.schema.relatedModel field = .ok dependents)
    (hscope : linkage.scope record = some scope) {item : Record}
    (hitem : Record.holdsAll item scope = true) :
    Record.Detached (origin.schema.Nullable dependents.name) item
      (Entries.insertAll item linkage.detached) := by
  obtain ⟨other, hmember, hother, howns, -, rfl⟩ :=
    Schema.declared_of_linkage hlinked helsewhere hrelated
  rw [hother] at hpolicy
  have hdependents := Schema.mem_of_relatedModel hrelated
  have hforeign {name : String}
      (h : name ∈ Entries.keys (Linkage.detached ⟨other.toFields, other.fromFields, false⟩)) :
      name ∈ other.fromFields :=
    ((Record.mem_keys_unbind other.fromFields name []).mp h).resolve_right (nomatch ·)
  refine Record.detached_insertAll (fun entry hentry => ⟨?_, ?_⟩) item fun name hname => ?_
  · exact ⟨dependents, hdependents, rfl, other, hmember, howns, hpolicy,
      hforeign (List.mem_map_of_mem hentry)⟩
  · exact Record.eq_null_of_mem_unbind other.fromFields [] (List.forall_mem_nil _) entry hentry
  · -- the columns come in pairs, so each of them has a value in the scope
    have hpaired := hkeys.paired dependents hdependents other hmember howns
    have hzip : name ∈ (other.toFields.zip other.fromFields).map Prod.snd := by
      rw [List.map_snd_zip (Nat.le_of_eq hpaired)]
      exact hforeign hname
    obtain ⟨pair, hpair, rfl⟩ := List.mem_map.mp hzip
    obtain ⟨entry, hentry, hkey⟩ := List.mem_map.mp (Linkage.mem_keys_scope hscope pair hpair)
    obtain ⟨-, -, -, hnull⟩ := Linkage.mem_scope hscope entry hentry
    rw [← hkey]
    exact mem_keys_of_holdsAll hitem hentry hnull

theorem Progress.detach (h : Progress origin seed gone store) (hkeys : origin.schema.PlainKeys)
    {linkage : Linkage} (hlinked : origin.schema.linkage? model field = some linkage)
    (helsewhere : linkage.owned = false)
    (hpolicy : (origin.schema.reciprocal? model field).bind (·.onDelete) = some .setNull)
    (hrelated : origin.schema.relatedModel field = .ok dependents)
    (hscope : linkage.scope record = some scope) :
    Progress origin seed gone (store.detach dependents scope linkage.detached) := by
  unfold Store.detach
  split
  · refine ⟨h.schema_eq, fun name => ?_, h.doomed⟩
    by_cases hname : name = dependents.name
    · subst hname
      rw [items_replaceCollection_self]
      refine (h.remains _).map fun old record hrecord => ?_
      split
      · rename_i hitem
        exact hrecord.trans
          (detached_dependents hkeys hlinked helsewhere hpolicy hrelated hscope hitem)
      · exact hrecord
    · rw [items_replaceCollection_of_ne hname]
      exact h.remains name
  · exact h

theorem Progress.unlinkAll (h : Progress origin seed gone store) (model : Model)
    (record : Record) : Progress origin seed gone (store.unlinkAll model record) := by
  unfold Store.unlinkAll
  dsimp only
  split
  · exact h
  · exact ⟨h.schema_eq, h.remains, h.doomed⟩

end Store

namespace Write

open Store

variable {origin : Store} {seed gone : String → Nat → Prop} {model : Model} {record : Record}

/-- A part of a delete that goes on from whatever is gone, and after which something is
    covered. -/
def Covering {α : Type} (origin : Store) (seed : String → Nat → Prop) (w : Write α)
    (covered : (String → Nat → Prop) → Prop) : Prop :=
  ∀ gone, Triple (Progress origin seed gone) w
    (fun _ store => ∃ next, origin.Spreads gone next ∧ Progress origin seed next store ∧
      covered next)
    fun _ _ => True

/-- A loop covers what each of its steps does, since what is gone stays gone. -/
theorem Covering.forM {ι : Type} {f : ι → Write Unit}
    {covered : ι → (String → Nat → Prop) → Prop}
    (hmono : ∀ x gone next, covered x gone → (∀ name i, gone name i → next name i) →
      covered x next) :
    ∀ items : List ι, (∀ x ∈ items, Covering origin seed (f x) (covered x)) →
      Covering origin seed (items.forM f) fun next => ∀ x ∈ items, covered x next := by
  intro items
  induction items with
  | nil =>
      intro _ gone
      exact Triple.pure fun store hstore => ⟨gone, .refl, hstore, List.forall_mem_nil _⟩
  | cons x rest ih =>
      intro hsteps gone
      refine Triple.bind (hsteps x List.mem_cons_self gone) fun _ => ?_
      rintro store ⟨next, hspreads, hnext, hfirst⟩
      refine (ih (fun y hy => hsteps y (List.mem_cons_of_mem _ hy)) next).weaken (fun _ h => h)
        ?_ store hnext
      rintro _ after ⟨last, hmore, hlast, hrest⟩
      refine ⟨last, hspreads.trans hmore, hlast, List.forall_mem_cons.mpr ⟨?_, hrest⟩⟩
      exact hmono x next last hfirst hmore.grows

/-- A cascade to the dependents that a scope dooms takes all of them that are left, and what
    depends on them. -/
def Sweeps (origin : Store) (seed : String → Nat → Prop)
    (cascade : Model → Record → Write Unit) : Prop :=
  ∀ dependents scope, origin.Dooms seed dependents scope →
    Covering origin seed (cascade dependents scope) fun next => ∀ (j : Nat) (item : Record),
      (origin.items dependents.name)[j]? = some item →
        Filter.fits dependents scope item = true → next dependents.name j

/-- A record that may be deleted: whatever it takes with it is doomed. -/
def Deletable (origin : Store) (seed : String → Nat → Prop) (model : Model) (record : Record) :
    Prop :=
  ∀ field linkage dependents scope, origin.schema.Cascades model field linkage dependents →
    linkage.scope record = some scope → origin.Dooms seed dependents scope

/-- The policy of one relation takes the dependents through it. -/
theorem covering_applyPolicy (hkeys : origin.schema.PlainKeys)
    {cascade : Model → Record → Write Unit} (hcascade : Sweeps origin seed cascade)
    (hrecord : Deletable origin seed model record) {field : Field}
    (hfield : field ∈ model.relationFields) :
    Covering origin seed (applyPolicy cascade model record field) fun next =>
      origin.Covers next model record field := by
  intro gone
  refine Triple.bind_get fun current hprogress => ?_
  rw [hprogress.schema_eq]
  dsimp only
  -- unless the policy is a cascade and there is a scope, nothing has to be covered
  have hidle {α : Type} {a : α} (hnone : ∀ linkage dependents scope,
      origin.schema.Cascades model field linkage dependents →
      linkage.scope record = some scope → False) :
      Triple (fun store => store = current) (Pure.pure a : Write α)
        (fun _ store => ∃ next, origin.Spreads gone next ∧ Progress origin seed next store ∧
          origin.Covers next model record field)
        fun _ _ => True := by
    refine Triple.pure fun store hstore => ⟨gone, .refl, hstore ▸ hprogress, ?_⟩
    exact fun linkage dependents scope hcascades hscope =>
      (hnone linkage dependents scope hcascades hscope).elim
  cases hlinked : origin.schema.linkage? model field with
  | none => exact hidle fun _ _ _ h _ => by cases hlinked.symm.trans h.linked
  | some linkage =>
      have hlinkage {other : Linkage} {others : Model}
          (h : origin.schema.Cascades model field other others) : other = linkage :=
        Option.some.inj (h.linked.symm.trans hlinked)
      dsimp only
      by_cases howned : linkage.owned = true
      · rw [if_pos howned]
        refine hidle fun other others _ h _ => ?_
        have helsewhere := h.elsewhere
        rw [hlinkage h, howned] at helsewhere
        cases helsewhere
      · rw [if_neg howned]
        have helsewhere : linkage.owned = false := Bool.not_eq_true _ ▸ howned
        cases hpolicy : (origin.schema.reciprocal? model field).bind (·.onDelete) with
        | none => exact hidle fun _ _ _ h _ => by cases hpolicy.symm.trans h.policy
        | some policy =>
            cases hscope : linkage.scope record with
            | none =>
                refine hidle fun other others scope h hother => ?_
                rw [hlinkage h, hscope] at hother
                cases hother
            | some scope =>
                refine Triple.bind_require (fun dependents hrelated => ?_) fun _ _ _ _ => trivial
                cases policy with
                | cascade =>
                    have hdooms := hrecord field linkage dependents scope
                      ⟨hfield, hlinked, helsewhere, hpolicy, hrelated⟩ hscope
                    refine (hcascade dependents scope hdooms gone).weaken
                      (fun store hstore => hstore ▸ hprogress) ?_
                    rintro _ store ⟨next, hspreads, hnext, hcovered⟩
                    refine ⟨next, hspreads, hnext, fun other others found h hfound => ?_⟩
                    obtain rfl := hlinkage h
                    obtain rfl := Except.ok.inj (hrelated.symm.trans h.related)
                    obtain rfl := Option.some.inj (hscope.symm.trans hfound)
                    exact hcovered
                | setNull =>
                    refine Triple.modify fun store hstore => ⟨gone, .refl, ?_, ?_⟩
                    · rw [hstore]
                      exact hprogress.detach hkeys hlinked helsewhere hpolicy hrelated hscope
                    · exact fun _ _ _ h _ => by cases hpolicy.symm.trans h.policy
                | _ => exact hidle fun _ _ _ h _ => by cases hpolicy.symm.trans h.policy

/-- What follows the removal of a record takes all of its dependents. -/
theorem covering_afterDelete (hkeys : origin.schema.PlainKeys)
    {cascade : Model → Record → Write Unit} (hcascade : Sweeps origin seed cascade)
    (hrecord : Deletable origin seed model record) :
    Covering origin seed (afterDelete cascade model record) fun next =>
      ∀ field, origin.Covers next model record field := by
  intro gone
  refine Triple.bind (M := fun _ => Progress origin seed gone)
    (Triple.modify fun store hstore => hstore.unlinkAll model record) fun _ => ?_
  refine (Covering.forM (fun field gone next h hgrows => h.mono hgrows) model.relationFields
    (fun field hfield => covering_applyPolicy hkeys hcascade hrecord hfield) gone).weaken
    (fun _ h => h) ?_
  rintro _ store ⟨next, hspreads, hnext, hcovered⟩
  refine ⟨next, hspreads, hnext, fun field linkage dependents scope hcascades => ?_⟩
  exact hcovered field hcascades.member linkage dependents scope hcascades

/-- What follows the removal of several records takes the dependents of each. -/
theorem covering_afterEach (hkeys : origin.schema.PlainKeys)
    {cascade : Model → Record → Write Unit} (hcascade : Sweeps origin seed cascade)
    (records : List Record) (hrecords : ∀ record ∈ records, Deletable origin seed model record) :
    Covering origin seed (records.forM (afterDelete cascade model)) fun next =>
      ∀ record ∈ records, ∀ field, origin.Covers next model record field :=
  Covering.forM (fun _ _ _ h hgrows field => (h field).mono hgrows) records
    fun record hmember => covering_afterDelete hkeys hcascade (hrecords record hmember)

/-! ## Whole deletes -/

section

variable (hkeys : origin.schema.PlainKeys) (hscalar : origin.ScalarKeys)
include hkeys hscalar

/-- What is left of the records that a position can be seen in covers the position itself. -/
theorem covers_of_detached {i : Nat} {old : Record}
    (hold : (origin.items model.name)[i]? = some old)
    (hlike : origin.CascadesLike model.name old record) {field : Field}
    (h : origin.Covers gone model record field) : origin.Covers gone model old field :=
  h.of_cascadesLike hkeys hlike fun column hreferred =>
    hscalar _ column hreferred old (List.mem_of_getElem? hold)

/-- Records that pass a test are taken out of their collection, and their dependents after
    them. -/
theorem covering_taken {cascade : Model → Record → Write Unit}
    (hcascade : Sweeps origin seed cascade) (hmodel : model ∈ origin.schema.models)
    {current : Store} (hprogress : Progress origin seed gone current)
    {stands : Record → Record → Prop}
    (hstands : ∀ old record, stands old record →
      Record.Detached (origin.schema.Nullable model.name) old record)
    (hremains : Remains stands (gone model.name) (origin.items model.name)
      (current.items model.name))
    {test : Record → Bool} (htest : ∀ old record, stands old record → test record = test old)
    (hdoomed : ∀ (i : Nat) (old : Record), (origin.items model.name)[i]? = some old →
      test old = true → origin.Doomed seed model.name i) :
    Triple
      (fun store => store = current.replaceCollection model.name
        ((current.items model.name).filter fun record => !test record))
      (((current.items model.name).filter test).forM (afterDelete cascade model))
      (fun _ store => ∃ next, origin.Spreads gone next ∧ Progress origin seed next store ∧
        ∀ (i : Nat) (old : Record), (origin.items model.name)[i]? = some old → test old = true →
          next model.name i)
      fun _ _ => True := by
  -- what is taken now comes on top of what was gone before
  let taken (name : String) (i : Nat) : Prop :=
    gone name i ∨ name = model.name ∧ ∃ old, (origin.items name)[i]? = some old ∧ test old = true
  have htaken : Progress origin seed taken (current.replaceCollection model.name
      ((current.items model.name).filter fun record => !test record)) := by
    refine ⟨hprogress.schema_eq, fun name => ?_, fun name i hi => ?_⟩
    · by_cases hname : name = model.name
      · subst hname
        rw [items_replaceCollection_self]
        exact (hremains.filter htest).weaken hstands fun i _ =>
          or_congr_right (and_iff_right rfl).symm
      · rw [items_replaceCollection_of_ne hname]
        exact (hprogress.remains name).weaken (fun _ _ h => h) fun i _ =>
          (or_iff_left fun h => hname h.1).symm
    · rcases hi with hgone | ⟨rfl, old, hold, hpass⟩
      · exact hprogress.doomed name i hgone
      · exact hdoomed i old hold hpass
  have hdeletable : ∀ record ∈ (current.items model.name).filter test,
      Deletable origin seed model record := by
    intro record hrecord field linkage dependents scope hcascades hscope
    obtain ⟨hmember, hpass⟩ := List.mem_filter.mp hrecord
    obtain ⟨i, old, hold, -, hstand⟩ := hremains.origin hmember
    have hlike := cascadesLike_of_detached hkeys (hstands old record hstand)
    have hseed := hdoomed i old hold (htest old record hstand ▸ hpass)
    exact dooms_of_cascadesLike hkeys hscalar hmodel hseed hold hlike hcascades hscope
  refine (covering_afterEach hkeys hcascade _ hdeletable taken).weaken
    (fun store hstore => hstore ▸ htaken) ?_
  rintro _ store ⟨next, hspreads, hnext, hcovered⟩
  refine ⟨next, ⟨fun name i hi => hspreads.grows name i (Or.inl hi), ?_⟩, hnext,
    fun i old hold hpass => hspreads.grows _ i (Or.inr ⟨rfl, old, hold, hpass⟩)⟩
  intro other hother i hi hnew old hold field
  by_cases hi' : taken other.name i
  · -- the position has just been taken, and what stood there was among the records taken
    obtain ⟨hname, found, hfound, hpass⟩ := hi'.resolve_left hnew
    obtain rfl := Schema.eq_of_name_eq hother hmodel hname
    obtain rfl := Option.some.inj (hold.symm.trans hfound)
    obtain ⟨record, hmember, hstand⟩ := hremains.present hold hnew
    have hrecord : record ∈ (current.items other.name).filter test :=
      List.mem_filter.mpr ⟨hmember, htest old record hstand ▸ hpass⟩
    exact covers_of_detached hkeys hscalar hold
      (cascadesLike_of_detached hkeys (hstands old record hstand)) (hcovered record hrecord field)
  · exact hspreads.closed other hother i hi hi' old hold field

/-- A delete by a filter takes the records that satisfy it, and their dependents. -/
theorem covering_deleteWithin_succ {depth : Nat}
    (hcascade : Sweeps origin seed fun dependents scope =>
      discard (deleteWithin depth dependents (some scope)))
    (hmodel : model ∈ origin.schema.models) {current : Store}
    (hprogress : Progress origin seed gone current) {stands : Record → Record → Prop}
    (hstands : ∀ old record, stands old record →
      Record.Detached (origin.schema.Nullable model.name) old record)
    (hremains : Remains stands (gone model.name) (origin.items model.name)
      (current.items model.name))
    {filter : Option Record} {test : Record → Bool}
    (hfilter : ∀ record, filter.all (fun filter => current.satisfies model record filter)
      = test record)
    (htest : ∀ old record, stands old record → test record = test old)
    (hdoomed : ∀ (i : Nat) (old : Record), (origin.items model.name)[i]? = some old →
      test old = true → origin.Doomed seed model.name i) :
    Triple (fun store => store = current) (deleteWithin (depth + 1) model filter)
      (fun removed store => removed = (current.items model.name).filter test ∧
        ∃ next, origin.Spreads gone next ∧ Progress origin seed next store ∧
          ∀ (i : Nat) (old : Record), (origin.items model.name)[i]? = some old →
            test old = true → next model.name i)
      fun _ _ => True := by
  unfold deleteWithin
  refine Triple.bind_get fun found hfound => ?_
  obtain rfl : found = current := hfound
  rw [List.partition_eq_filter_filter, funext hfilter]
  dsimp only
  by_cases hempty : ((found.items model.name).filter test).isEmpty = true
  · -- nothing passes the test any more, so all that passed it at the start is gone
    rw [if_pos hempty]
    refine Triple.pure fun store hstore => ?_
    refine ⟨(List.isEmpty_iff.mp hempty).symm, gone, .refl, hstore ▸ hprogress, ?_⟩
    intro i old hold hpass
    by_contra hnew
    obtain ⟨record, hmember, hstand⟩ := hremains.present hold hnew
    have hrecord : record ∈ (found.items model.name).filter test :=
      List.mem_filter.mpr ⟨hmember, htest old record hstand ▸ hpass⟩
    rw [List.isEmpty_iff.mp hempty] at hrecord
    cases hrecord
  · rw [if_neg hempty]
    refine Triple.bind (M := fun _ store => store = found.replaceCollection model.name
      ((found.items model.name).filter fun record => !test record))
      (Triple.set fun _ _ => rfl) fun _ => ?_
    refine Triple.bind (covering_taken hkeys hscalar hcascade hmodel hprogress hstands hremains
      htest hdoomed) fun _ => ?_
    exact Triple.pure fun store hstore => ⟨rfl, hstore⟩

/-- Cascades take what their scopes doom, at any depth. -/
theorem sweeps_deleteWithin (depth : Nat) :
    Sweeps origin seed fun dependents scope =>
      discard (deleteWithin depth dependents (some scope)) := by
  induction depth with
  | zero => exact fun _ _ _ _ => Triple.discard (Triple.throw fun _ _ => trivial)
  | succ depth ih =>
      intro dependents scope hdooms gone store hprogress
      -- the scope looks at the record alone, so it picks now what it picked at the start
      have hfilter : ∀ record, (some scope).all
          (fun filter => store.satisfies dependents record filter) =
            Filter.fits dependents scope record :=
        fun record => Filter.satisfies_eq_fits hdooms.plain store store.related record
      have hsweep := covering_deleteWithin_succ hkeys hscalar ih hdooms.member hprogress
        (fun _ _ h => h) (hprogress.remains dependents.name) hfilter
        (fun _ _ h => Filter.fits_of_detached h hdooms.apart) hdooms.doomed
      exact (Triple.discard (hsweep.weaken (fun _ h => h) fun _ _ h => h.2)) store rfl

end

end Write

namespace Store

variable {origin : Store} {seed next : String → Nat → Prop}

/-- Nothing is gone before a delete. -/
theorem progress_start (origin : Store) (seed : String → Nat → Prop) :
    Progress origin seed (fun _ _ => False) origin :=
  ⟨rfl, fun _ => Remains.all Record.Detached.refl _, fun _ _ h => h.elim⟩

/-- What is gone in the end is everything that is doomed. -/
theorem gone_of_doomed (hkeys : origin.schema.PlainKeys) (hscalar : origin.ScalarKeys)
    (hspreads : origin.Spreads (fun _ _ => False) next)
    (hseed : ∀ name i, seed name i → next name i) {name : String} {i : Nat}
    (h : origin.Doomed seed name i) : next name i := by
  -- every position that is gone has just been taken, so its dependents are gone too
  induction h with
  | seed h => exact hseed _ _ h
  | dependent hmodel _ hrecord hitem htakes ih =>
      obtain ⟨field, linkage, scope, hcascades, hscope, hsatisfies⟩ := htakes
      refine hspreads.closed _ hmodel _ ih id _ hrecord field linkage _ scope hcascades hscope _ _
        hitem ?_
      have hplain := (plain_scope hkeys hcascades (fun column hreferred =>
        hscalar _ column hreferred _ (List.mem_of_getElem? hrecord)) hscope).1
      rw [satisfies, Filter.satisfies_eq_fits hplain] at hsatisfies
      exact hsatisfies

/-- The end of a delete: all that is doomed is gone, and all else is left. -/
theorem remains_of_progress (hkeys : origin.schema.PlainKeys) (hscalar : origin.ScalarKeys)
    {store : Store} (hspreads : origin.Spreads (fun _ _ => False) next)
    (hprogress : Progress origin seed next store) (hseed : ∀ name i, seed name i → next name i)
    (name : String) :
    Remains (Record.Detached (origin.schema.Nullable name)) (origin.Doomed seed name)
      (origin.items name) (store.items name) :=
  (hprogress.remains name).weaken (fun _ _ h => h) fun i _ =>
    ⟨hprogress.doomed name i, gone_of_doomed hkeys hscalar hspreads hseed⟩

/-- The positions of the records of a model that satisfy a filter. -/
def Matching (store : Store) (model : Model) (filter : Option Record) (name : String) (i : Nat) :
    Prop :=
  name = model.name ∧ ∃ record, (store.items name)[i]? = some record ∧
    filter.all (fun filter => store.satisfies model record filter) = true

/-- The position of the first record of a model equal to a target. -/
def FirstEqual (store : Store) (model : Model) (target : Record) (name : String) (i : Nat) :
    Prop :=
  name = model.name ∧
    (∃ record, (store.items name)[i]? = some record ∧ Record.same record target = true) ∧
    ∀ j < i, ∀ record, (store.items name)[j]? = some record → Record.same record target = false

variable {store : Store} {model : Model} {target old : Record} {first later : List Record}

/-- Only one position is the first. -/
theorem FirstEqual.eq {name other : String} {i j : Nat} (h : store.FirstEqual model target name i)
    (h' : store.FirstEqual model target other j) : i = j := by
  obtain ⟨rfl, ⟨record, hrecord, hsame⟩, hbefore⟩ := h
  obtain ⟨rfl, ⟨record', hrecord', hsame'⟩, hbefore'⟩ := h'
  rcases Nat.lt_trichotomy i j with hlt | heq | hgt
  · cases hsame.symm.trans (hbefore' i hlt record hrecord)
  · exact heq
  · cases hsame'.symm.trans (hbefore j hgt record' hrecord')

theorem firstEqual_of_split (hitems : store.items model.name = first ++ old :: later)
    (hfirst : ∀ record ∈ first, Record.same record target = false)
    (hsame : Record.same old target = true) :
    store.FirstEqual model target model.name first.length := by
  refine ⟨rfl, ⟨old, ?_, hsame⟩, fun j hj record hrecord => ?_⟩
  · rw [hitems]
    simp
  · rw [hitems, List.getElem?_append_left hj] at hrecord
    exact hfirst record (List.mem_of_getElem? hrecord)

/-- One position of one collection. -/
def Only (model : Model) (position : Nat) (name : String) (i : Nat) : Prop :=
  name = model.name ∧ i = position

/-- Taking one doomed record out of its collection is progress. -/
theorem progress_only {seed : String → Nat → Prop}
    (hitems : store.items model.name = first ++ old :: later)
    (hseed : seed model.name first.length) :
    Progress store seed (Only model first.length)
      (store.replaceCollection model.name (first ++ later)) := by
  refine ⟨rfl, fun name => ?_, ?_⟩
  · by_cases hname : name = model.name
    · subst hname
      rw [items_replaceCollection_self, hitems]
      exact (Remains.without Record.Detached.refl first later old).weaken
        (fun _ _ h => h) fun i _ => (and_iff_right rfl).symm
    · rw [items_replaceCollection_of_ne hname]
      exact (Remains.all Record.Detached.refl _).weaken (fun _ _ h => h) fun i _ =>
        ⟨False.elim, fun h => hname h.1⟩
  · rintro name i ⟨rfl, rfl⟩
    exact .seed hseed

end Store

namespace Write

open Store

theorem remains_deleteMatching {store : Store} (hkeys : store.schema.PlainKeys)
    (hscalar : store.ScalarKeys) {model : Model} (hmodel : model ∈ store.schema.models)
    (filter : Option Record) :
    ∃ next, (deleteMatching model filter).outcome store =
        (.ok (store.select model filter (store.items model.name)), next) ∧
      ∀ name, Remains (Record.Detached (store.schema.Nullable name))
        (store.Doomed (store.Matching model filter) name) (store.items name)
        (next.items name) := by
  obtain ⟨removed, next, hrun⟩ :=
    Shrinks.succeeds (fun bound => shrinks_deleteMatching bound model filter) store
  refine ⟨next, ?_⟩
  rw [hrun]
  have hstart : Remains Eq (fun _ => False) (store.items model.name) (store.items model.name) :=
    Remains.all (fun _ => rfl) _
  have hsame (old record : Record) (h : old = record) :
      Record.Detached (store.schema.Nullable model.name) old record := by
    rw [h]
    exact Record.Detached.refl record
  have hdelete := covering_deleteWithin_succ hkeys hscalar
    (sweeps_deleteWithin hkeys hscalar store.recordCount) hmodel
    (progress_start store (store.Matching model filter)) hsame hstart (fun _ => rfl)
    (fun _ _ h => by rw [h]) (fun i old hold hpass => .seed ⟨rfl, old, hold, hpass⟩)
  obtain ⟨hremoved, gone, hspreads, hprogress, hseed⟩ :=
    hdelete.ok rfl ((outcome_deleteMatching model filter store).symm.trans hrun)
  refine ⟨?_, remains_of_progress hkeys hscalar hspreads hprogress ?_⟩
  · rw [hremoved]
    cases filter with
    | none => rw [select]; simp
    | some filter => rfl
  · rintro name i ⟨rfl, old, hold, hpass⟩
    exact hseed i old hold hpass

/-- A delete of a record takes the first one equal to it, and its dependents. -/
theorem triple_deleteRecord {store : Store} (hkeys : store.schema.PlainKeys)
    (hscalar : store.ScalarKeys) {model : Model} (hmodel : model ∈ store.schema.models)
    (target : Record) :
    Triple (fun current => current = store) (deleteRecord model target)
      (fun _ after => ∃ gone, store.Spreads (fun _ _ => False) gone ∧
        Progress store (store.FirstEqual model target) gone after ∧
        ∀ name i, store.FirstEqual model target name i → gone name i)
      fun _ _ => True := by
  refine Triple.bind_get fun current hcurrent => ?_
  obtain rfl : current = store := hcurrent
  cases hremove : removeFirst target (current.items model.name) with
  | none =>
      refine Triple.pure fun after hafter => ⟨fun _ _ => False, .refl, ?_, ?_⟩
      · rw [hafter]
        exact progress_start current _
      · rintro name i ⟨rfl, ⟨record, hrecord, hsame⟩, -⟩
        have hdiffers := removeFirst_eq_none hremove record (List.mem_of_getElem? hrecord)
        cases hsame.symm.trans hdiffers
  | some kept =>
      obtain ⟨first, old, later, hitems, hfirst, hsame, rfl⟩ := split_of_removeFirst hremove
      have hold : (current.items model.name)[first.length]? = some old := by
        rw [hitems]
        simp
      have hseed := firstEqual_of_split hitems hfirst hsame
      -- what cascades is the target, which may differ from the record taken but for its keys
      have hlike : current.CascadesLike model.name old target := cascadesLike_of_same hsame
      have hdeletable : Deletable current (current.FirstEqual model target) model target :=
        fun field linkage dependents scope hcascades hscope =>
          dooms_of_cascadesLike hkeys hscalar hmodel (.seed hseed) hold hlike hcascades hscope
      refine Triple.bind (M := fun _ => Progress current _ (Only model first.length))
        (Triple.set fun _ _ => progress_only hitems hseed) fun _ => ?_
      refine (covering_afterDelete hkeys (sweeps_deleteWithin hkeys hscalar _) hdeletable
        _).weaken (fun _ h => h) ?_
      rintro _ after ⟨gone, hspreads, hgone, hcovered⟩
      refine ⟨gone, ⟨fun _ _ h => h.elim, ?_⟩, hgone, fun name i hi => ?_⟩
      · intro other hother i hi _ found hfound field
        by_cases hi' : Only model first.length other.name i
        · obtain ⟨hname, rfl⟩ := hi'
          obtain rfl := Schema.eq_of_name_eq hother hmodel hname
          obtain rfl := Option.some.inj (hold.symm.trans hfound)
          exact covers_of_detached hkeys hscalar hold hlike (hcovered field)
        · exact hspreads.closed other hother i hi hi' found hfound field
      · exact hspreads.grows name i ⟨hi.1, hi.eq hseed⟩

theorem remains_deleteRecord {store : Store} (hkeys : store.schema.PlainKeys)
    (hscalar : store.ScalarKeys) {model : Model} (hmodel : model ∈ store.schema.models)
    (target : Record) :
    ∃ next, (deleteRecord model target).outcome store = (.ok (), next) ∧
      ∀ name, Remains (Record.Detached (store.schema.Nullable name))
        (store.Doomed (store.FirstEqual model target) name) (store.items name)
        (next.items name) := by
  obtain ⟨⟨⟩, next, hrun⟩ :=
    Shrinks.succeeds (fun bound => shrinks_deleteRecord bound model target) store
  obtain ⟨gone, hspreads, hprogress, hseed⟩ :=
    (triple_deleteRecord hkeys hscalar hmodel target).ok rfl hrun
  exact ⟨next, hrun, remains_of_progress hkeys hscalar hspreads hprogress hseed⟩

/-- A delete removes what it was asked for and all that cascades from it, in the store as it was,
    and leaves all other records in order, at most with nulls in columns that may be nulled. -/
theorem delete_removes_doomed {store : Store} (hkeys : store.schema.PlainKeys)
    (hscalar : store.ScalarKeys) {model : Model} (hmodel : model ∈ store.schema.models) :
    (∀ filter, ∃ next, (deleteMatching model filter).outcome store =
        (.ok (store.select model filter (store.items model.name)), next) ∧
      ∀ name, Remains (Record.Detached (store.schema.Nullable name))
        (store.Doomed (store.Matching model filter) name) (store.items name)
        (next.items name)) ∧
    (∀ target, ∃ next, (deleteRecord model target).outcome store = (.ok (), next) ∧
      ∀ name, Remains (Record.Detached (store.schema.Nullable name))
        (store.Doomed (store.FirstEqual model target) name) (store.items name)
        (next.items name)) :=
  ⟨remains_deleteMatching hkeys hscalar hmodel, remains_deleteRecord hkeys hscalar hmodel⟩

end Write

namespace Filing

open Store Write

/-- Folders in folders: a folder takes its subfolders with it. -/
def folder : Model where
  name := "Folder"
  fields := [
    { name := "id", kind := .scalar, typeName := "Int", isId := true },
    { name := "parentId", kind := .scalar, typeName := "Int" },
    { name := "parent", kind := .relation, typeName := "Folder", relationName := some "tree",
      fromFields := ["parentId"], toFields := ["id"], onDelete := some .cascade },
    { name := "children", kind := .relation, typeName := "Folder", isList := true,
      relationName := some "tree" },
    { name := "notes", kind := .relation, typeName := "Note", isList := true,
      relationName := some "filed" }]

/-- Notes in folders: a note outlives its folder. -/
def note : Model where
  name := "Note"
  fields := [
    { name := "id", kind := .scalar, typeName := "Int", isId := true },
    { name := "folderId", kind := .scalar, typeName := "Int" },
    { name := "folder", kind := .relation, typeName := "Folder", relationName := some "filed",
      fromFields := ["folderId"], toFields := ["id"], onDelete := some .setNull }]

def schema : Schema where
  options := {}
  models := [folder, note]
  nodup_names := by decide
  targets_known := by decide

/-- A chain of three folders, and a folder that contains itself. -/
def cabinet : Store :=
  { ofSchema schema 0 ⟨0⟩ with
    collections := [
      ("Folder", [[("id", .integer 1), ("parentId", .null)],
        [("id", .integer 2), ("parentId", .integer 1)],
        [("id", .integer 3), ("parentId", .integer 3)],
        [("id", .integer 4), ("parentId", .integer 2)]]),
      ("Note", [[("id", .integer 1), ("folderId", .integer 4)],
        [("id", .integer 2), ("folderId", .integer 3)]])] }

theorem plainKeys_schema : schema.PlainKeys := by
  have hreferring : ∀ model ∈ schema.models, ∀ field ∈ model.relationFields,
      field.onDelete = some .cascade → ∀ column ∈ field.fromFields,
        model.name = "Folder" ∧ column = "parentId" := by decide
  have hreferred : ∀ model ∈ schema.models, ∀ field ∈ model.relationFields,
      field.onDelete = some .cascade → field.typeName = "Folder" := by decide
  have hnullable : ∀ model ∈ schema.models, ∀ field ∈ model.relationFields,
      field.onDelete = some .setNull → model.name = "Note" := by decide
  refine ⟨by decide, ?_, ?_⟩
  · rintro model hmodel column ⟨other, hother, hname, field, hfield, -, hpolicy, hcolumn⟩
    obtain ⟨hfolder, rfl⟩ := hreferring other hother field hfield hpolicy column hcolumn
    obtain rfl : model = folder :=
      Schema.eq_of_name_eq hmodel List.mem_cons_self (hname.symm.trans hfolder)
    exact ⟨rfl, _, rfl, rfl, rfl⟩
  · rintro name column ⟨model, hmodel, rfl, field, hfield, -, hpolicy, -⟩
    have hnote := hnullable model hmodel field hfield hpolicy
    constructor
    · rintro ⟨other, hother, hname, field', hfield', -, hpolicy', hcolumn'⟩
      have hfolder := (hreferring other hother field' hfield' hpolicy' column hcolumn').1
      exact absurd (hfolder.symm.trans (hname.trans hnote)) (by decide)
    · rintro ⟨other, hother, field', hfield', hname, -, hpolicy', -⟩
      have hfolder := hreferred other hother field' hfield' hpolicy'
      exact absurd (hfolder.symm.trans (hname.trans hnote)) (by decide)

theorem scalarKeys_cabinet : cabinet.ScalarKeys := by
  have hreferred : ∀ model ∈ schema.models, ∀ field ∈ model.relationFields,
      field.onDelete = some .cascade →
        field.typeName = "Folder" ∧ ∀ column ∈ field.toFields, column = "id" := by decide
  rintro name column ⟨model, hmodel, field, hfield, rfl, -, hpolicy, hcolumn⟩
  obtain ⟨hname, hid⟩ := hreferred model hmodel field hfield hpolicy
  rw [hname, hid column hcolumn]
  decide

/-- The first folder takes the two below it with it, and no other; both notes stay. -/
theorem delete_first_folder :
    cabinet.schema.PlainKeys ∧ cabinet.ScalarKeys ∧ folder ∈ cabinet.schema.models ∧
      ((deleteMatching folder (some [("id", .integer 1)])).after cabinet).recordCount = 3 ∧
      ∃ next, (deleteMatching folder (some [("id", .integer 1)])).outcome cabinet =
          (.ok (cabinet.select folder (some [("id", .integer 1)]) (cabinet.items "Folder")),
            next) ∧
        ∀ name, Remains (Record.Detached (cabinet.schema.Nullable name))
          (cabinet.Doomed (cabinet.Matching folder (some [("id", .integer 1)])) name)
          (cabinet.items name) (next.items name) :=
  ⟨plainKeys_schema, scalarKeys_cabinet, List.mem_cons_self, by decide,
    (delete_removes_doomed plainKeys_schema scalarKeys_cabinet List.mem_cons_self).1
      (some [("id", .integer 1)])⟩

end Filing

end RecordStore
