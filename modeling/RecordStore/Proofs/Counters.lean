import RecordStore.Proofs.Columns
import RecordStore.Proofs.Run
import RecordStore.Proofs.Write.Direct

/-!
# Counters

No value that a counter has given out is given out again.  Counters move only when they fill a field
and when a collection is replaced from outside, and never backwards, so that whatever fills a field
lies between the counter before the write and the counter after it.
-/

namespace RecordStore

/-- What changes the state of a store: a request of a client, or a collection that is replaced from
    outside. -/
inductive Action where
  | request (request : Request)
  | setItems (model : String) (records : List Record)

namespace Store

/-- The store after an action.  There is no collection of a model that is not declared. -/
def act (store : Store) : Action → Store
  | .request request => store.apply request
  | .setItems name records =>
      match store.schema.model? name with
      | none => store
      | some model => store.setItems model.name records

/-- The store after a sequence of actions. -/
def play (store : Store) (history : List Action) : Store := history.foldl act store

variable {store next last : Store} {model : Model} {name : String}

/-! ## Collections from outside -/

/-- A counter of the model is moved past the greatest value of its field. -/
theorem counter?_advanceCounters_self (store : Store) (name field : String) :
    (store.advanceCounters name).counter? name field =
      (store.counter? name field).map fun counter =>
        match greatest? field (store.items name) with
        | some most => advancePast most counter
        | none => counter := by
  unfold advanceCounters counter? countersOf
  cases hfound : Entries.get? name store.counters with
  | none => simp [hfound]
  | some counters =>
      simp only [Entries.get?_insert_self, Option.getD_some]
      rw [Entries.get?_map fun entry => by cases greatest? entry.1 (store.items name) <;> rfl]
      refine Option.map_congr fun counter _ => ?_
      cases greatest? field (store.items name) <;> rfl

/-- A counter that is moved past a value shows the word after it, or a greater one. -/
theorem wrap_advancePast (most counter : Int) :
    wrap 64 (advancePast most counter) = max (wrap 64 counter) (wrap 64 (most + 1)) := by
  rcases Int.le_total (wrap 64 (most + 1)) (wrap 64 counter) with hle | hle
  · rw [advancePast, Int.max_eq_left (by omega), Int.add_zero, Int.max_eq_left hle]
  · have hback : wrap 64 counter + (wrap 64 (most + 1) - wrap 64 counter) =
        wrap 64 (most + 1) + 0 := by omega
    rw [advancePast, Int.max_eq_right (by omega), Int.max_eq_right hle, ← wrap_wrap_add, hback,
      wrap_wrap_add, Int.add_zero]

/-- The counters of the other models stay. -/
theorem counter?_advanceCounters_of_ne {other : String} (h : other ≠ name) (store : Store)
    (field : String) : (store.advanceCounters name).counter? other field =
      store.counter? other field := by
  unfold advanceCounters counter? countersOf
  cases Entries.get? name store.counters with
  | none => rfl
  | some counters => simp only [Entries.get?_insert_of_ne h]

/-- Counters that are moved past the values of a collection do not go back. -/
theorem advances_advanceCounters (store : Store) (name : String) :
    Advances store (store.advanceCounters name) := by
  intro other field counter hcounter
  by_cases hname : other = name
  · subst hname
    rw [counter?_advanceCounters_self, hcounter]
    refine ⟨_, rfl, ?_⟩
    split
    · exact Int.le_add_of_nonneg_right (Int.le_max_left _ _)
    · exact Int.le_refl counter
  · rw [counter?_advanceCounters_of_ne hname]
    exact ⟨counter, hcounter, Int.le_refl counter⟩

theorem advances_setItems (store : Store) (name : String) (records : List Record) :
    Advances store (store.setItems name records) :=
  .trans (.of_eq rfl) (advances_advanceCounters (store.replaceCollection name records) name)

/-- No record holds more than the greatest value. -/
theorem le_greatest {field : String} {records : List Record} {record : Record} {value : Int}
    (hrecord : record ∈ records) (hvalue : (Record.valueAt field record).int64? = some value) :
    ∃ most, greatest? field records = some most ∧ value ≤ most := by
  have hmem : value ∈ records.filterMap fun record => (Record.valueAt field record).int64? :=
    List.mem_filterMap.mpr ⟨record, hrecord, hvalue⟩
  cases hmost : greatest? field records with
  | none =>
      rw [List.max?_eq_none_iff.mp hmost] at hmem
      cases hmem
  | some most => exact ⟨most, rfl, (List.max?_eq_some_iff.mp hmost).2 value hmem⟩

/-- The counters of a model show more than all values that its collection is replaced with, as long
    as there is a word after each of them. -/
theorem shown?_setItems {field : String} {word : Int} {records : List Record}
    (hword : (store.setItems name records).shown? name field = some word)
    (hfits : ∀ record ∈ records, ∀ value, (Record.valueAt field record).int64? = some value →
      fitsInt64 (value + 1) = true) {record : Record} (hrecord : record ∈ records) {value : Int}
    (hvalue : (Record.valueAt field record).int64? = some value) : value < word := by
  obtain ⟨most, hmost, hle⟩ := le_greatest hrecord hvalue
  obtain ⟨holder, hholder, hheld⟩ :=
    List.mem_filterMap.mp (List.max?_eq_some_iff.mp hmost).1
  have hafter : wrap 64 (most + 1) = most + 1 := fitsInt64_iff.mp (hfits holder hholder most hheld)
  rw [shown?, setItems, counter?_advanceCounters_self, items_replaceCollection_self, hmost,
    Option.map_map] at hword
  obtain ⟨counter, -, rfl⟩ := Option.map_eq_some_iff.mp hword
  show value < wrap 64 (advancePast most counter)
  rw [wrap_advancePast, hafter]
  omega

/-! ## Actions -/

/-- The stores whose counters have all come at least as far as in an earlier one. -/
def advancing (origin : Store) : Upkeep where
  Holds store := store.schema = origin.schema ∧ origin.Advances store
  Knows _ _ _ := True
  Admits _ _ := True

/-- No change of a store sets a counter back. -/
theorem lawful_advancing (origin : Store) : (advancing origin).Lawful origin.schema := by
  have hleads {store next : Store} (hstore : (advancing origin).Holds store)
      (hschema : next.schema = store.schema) (hadvances : Advances store next) :
      (advancing origin).Leads store next :=
    ⟨⟨hschema.trans hstore.1, hstore.2.trans hadvances⟩, fun _ _ _ => trivial⟩
  constructor
  case schema_eq => exact fun hstore => hstore.1
  case supply => exact fun _ _ hstore hadvances => hleads hstore rfl hadvances
  case insert => exact fun hstore _ _ _ => ⟨hleads hstore rfl (.of_eq rfl), trivial⟩
  case replace =>
    intro store changed model current next hstore _ _ _ hswap
    obtain ⟨before, _, later, -, -, -, rfl⟩ := split_of_swap hswap
    exact ⟨hleads hstore rfl (.of_eq rfl), trivial⟩
  case remove => exact fun hstore _ => hleads hstore rfl (.of_eq rfl)
  case detach =>
    intro store model field scope hstore _ _
    unfold Store.detach
    split
    · exact hleads hstore rfl (.of_eq rfl)
    · exact .refl hstore
  case link => exact fun hstore _ _ _ _ _ _ => hleads hstore rfl (.of_eq rfl)
  case unlink => exact fun _ _ _ _ hstore => hleads hstore rfl (.of_eq rfl)
  case cleanup => exact fun _ _ hstore => hleads hstore rfl (.of_eq rfl)
  all_goals intros; trivial

/-- Emptying collections leaves the counters and the schema alone. -/
theorem emptied_eq (names : List String) :
    ∀ store : Store,
      (names.foldl (fun acc name => acc.replaceCollection name []) store).counters =
          store.counters ∧
        (names.foldl (fun acc name => acc.replaceCollection name []) store).schema =
          store.schema := by
  induction names with
  | nil => exact fun _ => ⟨rfl, rfl⟩
  | cons name rest ih => exact fun store => ih (store.replaceCollection name [])

/-- Every action takes the counters on, except a reset that starts them again. -/
theorem advances_act (store : Store) {action : Action}
    (hkept : action = .request .reset → store.schema.options.resetCounters = false) :
    Advances store (store.act action) := by
  cases action with
  | request request =>
      cases request with
      | reset =>
          refine .of_eq ?_
          show (if store.schema.options.resetCounters = true then _ else _) = _
          rw [if_neg (by rw [hkept rfl]; decide)]
          exact (emptied_eq store.collections.keys store).1
      | wait clock => exact .of_eq rfl
      | write operation name args =>
          exact (Upkeep.leads_apply_write (lawful_advancing store) ⟨rfl, .refl⟩ operation name
            args).holds.2
  | setItems name records =>
      simp only [act]
      split
      · exact .refl
      · exact advances_setItems store _ records

/-! ## Every counted field has its counter -/

/-- There is a counter for every plain field that one fills. -/
def HasCounters (store : Store) : Prop :=
  ∀ model ∈ store.schema.models, ∀ field ∈ model.scalarFields, field.isCounted = true →
    ∃ counter, store.counter? model.name field.name = some counter

theorem HasCounters.advance (h : store.HasCounters) (hschema : next.schema = store.schema)
    (hadvances : Advances store next) : next.HasCounters := by
  intro model hmodel field hfield hcounted
  obtain ⟨counter, hcounter⟩ := h model (hschema ▸ hmodel) field hfield hcounted
  obtain ⟨later, hlater, -⟩ := hadvances _ _ counter hcounter
  exact ⟨later, hlater⟩

/-- A counter that starts is to give out 1. -/
theorem get?_freshCounters {field : Field} (hfield : field ∈ model.scalarFields)
    (hcounted : field.isCounted = true) :
    Entries.get? field.name model.freshCounters = some 1 := by
  have heq : model.freshCounters = Entries.insertAll []
      ((model.scalarFields.filter (·.isCounted)).map fun field => (field.name, 1)) := by
    rw [Model.freshCounters, Entries.insertAll, List.foldl_map]
  rw [heq]
  refine Entries.get?_insertAll_of_forall ?_ (fun entry hentry _ => ?_) []
  · exact List.mem_map.mpr ⟨(field.name, 1), List.mem_map.mpr
      ⟨field, List.mem_filter.mpr ⟨hfield, hcounted⟩, rfl⟩, rfl⟩
  · obtain ⟨_, -, rfl⟩ := List.mem_map.mp hentry
    rfl

/-- A store in which each model has the counters that it starts with has them all. -/
theorem HasCounters.of_fresh (h : ∀ model ∈ store.schema.models,
    Entries.get? model.name store.counters = some model.freshCounters) : store.HasCounters := by
  intro model hmodel field hfield hcounted
  refine ⟨1, ?_⟩
  rw [counter?, countersOf, h model hmodel]
  exact get?_freshCounters hfield hcounted

/-- A new store has a counter for every counted field. -/
theorem hasCounters_ofSchema (schema : Schema) (clock : Int) (entropy : Entropy) :
    (ofSchema schema clock entropy).HasCounters := by
  refine .of_fresh fun model hmodel => ?_
  have hmem : model.name ∈ Entries.keys (ofSchema schema clock entropy).counters :=
    List.mem_map.mpr ⟨_, List.mem_map_of_mem hmodel, rfl⟩
  obtain ⟨counters, hfound⟩ := Option.isSome_iff_exists.mp ((Entries.mem_keys_iff _ _).mp hmem)
  obtain ⟨other, hother, heq⟩ := List.mem_map.mp (Entries.mem_of_get?_eq_some hfound)
  obtain ⟨hname, rfl⟩ := Prod.mk.inj heq
  rw [hfound, Schema.eq_of_name_eq hother hmodel hname]

/-- A reset that starts the counters again starts them all. -/
theorem hasCounters_reset (h : store.schema.options.resetCounters = true) :
    store.reset.HasCounters := by
  have hschema : store.reset.schema = store.schema :=
    (emptied_eq store.collections.keys store).2
  refine .of_fresh fun model hmodel => ?_
  rw [hschema] at hmodel
  show Entries.get? model.name (if store.schema.options.resetCounters = true then _ else _) = _
  rw [if_pos h]
  have heq (acc : Entries (Entries Int)) : store.schema.models.foldl
      (fun acc model => Entries.insert model.name model.freshCounters acc) acc =
        Entries.insertAll acc (store.schema.models.map fun model =>
          (model.name, model.freshCounters)) := by
    rw [Entries.insertAll, List.foldl_map]
  rw [heq]
  refine Entries.get?_insertAll_of_forall ?_ (fun entry hentry hname => ?_) _
  · exact List.mem_map.mpr ⟨_, List.mem_map_of_mem hmodel, rfl⟩
  · obtain ⟨other, hother, rfl⟩ := List.mem_map.mp hentry
    exact congrArg Model.freshCounters (Schema.eq_of_name_eq hother hmodel hname)

/-- No action changes the schema. -/
theorem schema_act (store : Store) (action : Action) : (store.act action).schema = store.schema := by
  cases action with
  | request request =>
      cases request with
      | reset => exact (emptied_eq store.collections.keys store).2
      | wait clock => rfl
      | write operation name args =>
          exact (Upkeep.leads_apply_write (lawful_advancing store) ⟨rfl, .refl⟩ operation name
            args).holds.1
  | setItems name records =>
      simp only [act]
      split
      · rfl
      · simp only [setItems, advanceCounters]
        split <;> rfl

/-- A store that has all its counters has them after every action. -/
theorem HasCounters.act (h : store.HasCounters) (action : Action) :
    (store.act action).HasCounters := by
  by_cases hstarts : action = .request .reset ∧ store.schema.options.resetCounters = true
  · obtain ⟨rfl, hreset⟩ := hstarts
    exact hasCounters_reset hreset
  · refine h.advance (schema_act store action) (advances_act store fun haction => ?_)
    exact Bool.not_eq_true _ ▸ fun hreset => hstarts ⟨haction, hreset⟩

/-- The schema stays, and with it every counted field has its counter in any store that a client
    can come to. -/
theorem hasCounters_play (history : List Action) :
    ∀ store : Store, store.HasCounters →
      (store.play history).schema = store.schema ∧ (store.play history).HasCounters := by
  induction history with
  | nil => exact fun _ h => ⟨rfl, h⟩
  | cons action rest ih =>
      intro store h
      obtain ⟨hschema, hcounters⟩ := ih _ (h.act action)
      exact ⟨hschema.trans (schema_act store action), hcounters⟩

/-! ## What a counter gives out -/

/-- A value that a counter has given out on the way from one store to a later one: the word of a
    number that the counter has come past. -/
def Counted (store next : Store) (model field : String) (value : Value) : Prop :=
  ∃ number, value = .integer (wrap 64 number) ∧
    (∀ counter, store.counter? model field = some counter → counter ≤ number) ∧
    ∃ counter, next.counter? model field = some counter ∧ number < counter

/-- It still does if counters have advanced before and afterwards. -/
theorem Counted.between {before after : Store} {field : String} {value : Value}
    (h : Counted before after name field value) (hbefore : Advances store before)
    (hafter : Advances after next) : Counted store next name field value := by
  obtain ⟨number, hvalue, hle, counter, hcounter, hlt⟩ := h
  refine ⟨number, hvalue, fun start hstart => ?_, ?_⟩
  · obtain ⟨later, hlater, hle'⟩ := hbefore _ _ start hstart
    exact Int.le_trans hle' (hle later hlater)
  · obtain ⟨later, hlater, hle'⟩ := hafter _ _ counter hcounter
    exact ⟨later, hlater, Int.lt_of_lt_of_le hlt hle'⟩

/-- What a counter gives out lies between its states before and after. -/
theorem counted_takeCounter (store : Store) (name field : String) :
    Counted store (store.takeCounter name field).2 name field
      (.integer (store.takeCounter name field).1) := by
  refine ⟨_, by rw [takeCounter_eq], fun counter hcounter => ?_, _,
    counter?_takeCounter_self store name field, Int.lt_add_one_of_le (Int.le_refl _)⟩
  rw [hcounter]
  exact Int.le_refl counter

/-- A field that is not laid out is not written. -/
theorem valueAt_layFields_of_ne {fields : List Field} (h : ∀ field ∈ fields, field.name ≠ name) :
    ∀ (given record : Record) (store : Store),
      Record.valueAt name (layFields model fields given record store).1 =
        Record.valueAt name record := by
  induction fields with
  | nil => exact fun _ _ _ => rfl
  | cons field rest ih =>
      intro given record store
      obtain ⟨hne, hrest⟩ := List.forall_mem_cons.mp h
      show Record.valueAt name (layFields model rest _ _ _).1 = _
      rw [ih hrest]
      simp only [Record.valueAt, Entries.get?_insert_of_ne hne.symm]

/-- A counted field for which nothing is given is filled from its counter, in between all that fills
    the other fields. -/
theorem counted_layFields {field : Field} (hcounted : field.isCounted = true) {later : List Field}
    (hlater : ∀ other ∈ later, other.name ≠ field.name) (before : List Field) :
    ∀ (given record : Record) (store : Store), Record.isNullAt field.name given = true →
      Counted store (layFields model (before ++ field :: later) given record store).2
        model.name field.name (Record.valueAt field.name
          (layFields model (before ++ field :: later) given record store).1) := by
  induction before with
  | nil =>
      intro given record store hnull
      have hlaid : layField model field (Record.valueAt field.name given) store =
          (.integer (store.takeCounter model.name field.name).1,
            (store.takeCounter model.name field.name).2) := by
        have hdefault : field.default = some .autoincrement := by
          unfold Field.isCounted at hcounted
          split at hcounted
          · assumption
          · cases hcounted
        have hgiven : (Record.valueAt field.name given).isNull = true := hnull
        rw [layField, if_pos hgiven, defaultValue, hdefault]
        rfl
      rw [List.nil_append, layFields, hlaid]
      dsimp only
      rw [valueAt_layFields_of_ne hlater, Record.valueAt, Entries.get?_insert_self,
        Option.getD_some]
      exact (counted_takeCounter store model.name field.name).between .refl
        (moved_layFields model later _ _ _).advances
  | cons other rest ih =>
      intro given record store hnull
      rw [List.cons_append, layFields]
      dsimp only
      refine (ih _ _ _ ?_).between (moved_layField model other _ store).advances .refl
      -- what another field of the name has used up is not given any more
      simp only [Record.isNullAt, Record.valueAt, Entries.get?_erase] at hnull ⊢
      split
      · rfl
      · exact hnull

/-- A plain field of a model is laid out after all others of its name. -/
theorem split_scalarFields {field : Field} (hfield : model.field? field.name = some field)
    (hplain : field.isRelation = false) :
    ∃ before later, model.scalarFields = before ++ field :: later ∧
      ∀ other ∈ later, other.name ≠ field.name := by
  obtain ⟨-, after, before, hsplit, hafter⟩ := List.find?_eq_some_iff_append.mp hfield
  refine ⟨before.reverse.filter fun field => !field.isRelation,
    after.reverse.filter fun field => !field.isRelation, ?_, fun other hother => ?_⟩
  · rw [Model.scalarFields, List.reverse_eq_iff.mp hsplit]
    simp [hplain]
  · have hmem := List.mem_reverse.mp (List.mem_of_mem_filter hother)
    simpa using hafter other hmem

/-- A completed record has in an open counted field what the counter has given out. -/
theorem counted_materialize {field : Field} (hfield : model.field? field.name = some field)
    (hplain : field.isRelation = false) (hcounted : field.isCounted = true) {given : Record}
    (hopen : Record.isNullAt field.name given = true) (store : Store) :
    Counted store (materialize model given store).2 model.name field.name
      (Record.valueAt field.name (materialize model given store).1) := by
  obtain ⟨before, later, hfields, hlater⟩ := split_scalarFields hfield hplain
  rw [materialize, hfields]
  exact counted_layFields hcounted hlater before given [] store hopen

/-! ## Counters that have not gone round -/

/-- No counter has counted past the words of 64 bits. -/
def CountersFit (store : Store) : Prop :=
  ∀ model field counter, store.counter? model field = some counter → fitsInt64 counter = true

/-- Only the counters that there are have to be looked at. -/
theorem CountersFit.of_forall (h : ∀ counters ∈ store.counters, ∀ counter ∈ counters.2,
    fitsInt64 counter.2 = true) : store.CountersFit := by
  intro model field counter hcounter
  rw [counter?, countersOf] at hcounter
  cases hfound : Entries.get? model store.counters with
  | none =>
      rw [hfound] at hcounter
      cases hcounter
  | some counters =>
      rw [hfound, Option.getD_some] at hcounter
      exact h _ (Entries.mem_of_get?_eq_some hfound) _ (Entries.mem_of_get?_eq_some hcounter)

/-- They show what they have counted to. -/
theorem CountersFit.shown?_eq (h : store.CountersFit) (name field : String) :
    store.shown? name field = store.counter? name field := by
  rw [shown?]
  cases hcounter : store.counter? name field with
  | none => rfl
  | some counter => exact congrArg some (fitsInt64_iff.mp (h _ _ _ hcounter))

/-- Every counter still shows something, and no less than it did. -/
def ShowsOn (store next : Store) : Prop :=
  ∀ model field word, store.shown? model field = some word →
    ∃ later, next.shown? model field = some later ∧ word ≤ later

theorem Advances.showsOn (h : Advances store next) (hstore : store.CountersFit)
    (hnext : next.CountersFit) : ShowsOn store next := by
  intro model field word hword
  rw [hstore.shown?_eq] at hword
  rw [hnext.shown?_eq]
  exact h model field word hword

/-- A value between what a counter shows in one store and what it shows in a later one. -/
def Drawn (store next : Store) (model field : String) (value : Value) : Prop :=
  ∃ number, value = .integer number ∧
    (∃ word, store.shown? model field = some word ∧ word ≤ number) ∧
    ∃ word, next.shown? model field = some word ∧ number < word

theorem Counted.drawn {field : String} {value : Value} (h : Counted store next name field value)
    {counter : Int} (hcounter : store.counter? name field = some counter)
    (hstore : store.CountersFit) (hnext : next.CountersFit) :
    Drawn store next name field value := by
  obtain ⟨number, hvalue, hle, later, hlater, hlt⟩ := h
  have hfirst := hle counter hcounter
  have hbetween : fitsInt64 number = true := by
    have hleast := of_decide_eq_true (hstore _ _ _ hcounter)
    have hgreatest := of_decide_eq_true (hnext _ _ _ hlater)
    exact decide_eq_true ⟨by omega, by omega⟩
  refine ⟨number, by rw [hvalue, fitsInt64_iff.mp hbetween], ⟨counter, ?_, hfirst⟩,
    ⟨later, ?_, hlt⟩⟩
  · rw [hstore.shown?_eq, hcounter]
  · rw [hnext.shown?_eq, hlater]

end Store

/-! ## Creates -/

/-- Whether an operation through an owned relation may bind the record to a target. -/
def NestedOperation.binds : NestedOperation → Bool
  | .connect | .connectOrCreate | .create | .upsert => true
  | _ => false

/-- A payload leaves a column of a new record open: it gives it nothing but null, and binds it
    through no relation that has the column. -/
structure Model.LeavesOpen (model : Model) (column : String) (data : Record) : Prop where
  ungiven : ∀ entry ∈ data, entry.1 = column → entry.2.isNull = true
  unbound : ∀ entry ∈ data, ∀ relation, model.relation? entry.1 = some relation →
    column ∈ relation.fromFields → ∀ operations, entry.2 = .object operations →
      ∀ operation ∈ operations,
        (NestedOperation.ofName? operation.1).any NestedOperation.binds = false

namespace NestedWrites

open Store Write

variable {model : Model} {name : String} {store next : Store}

/-- Operations that bind nothing leave the record unbound. -/
theorem ownedStep_unbinding (nested : NestedWrites) (related : Model) (current : Option Record)
    {change : OwnedChange} (hchange : ∀ target, change ≠ .bind target) {operation : String}
    (hunbound : (NestedOperation.ofName? operation).any NestedOperation.binds = false)
    (arg : Value) :
    Triple (fun _ => True) (nested.ownedStep related current change operation arg)
      (fun change _ => ∀ target, change ≠ .bind target) fun _ _ => True := by
  have hkept : Triple (fun _ => True) (pure change : Write OwnedChange)
      (fun change _ => ∀ target, change ≠ .bind target) fun _ _ => True :=
    Triple.pure fun _ _ => hchange
  unfold ownedStep
  cases hname : NestedOperation.ofName? operation with
  | none => exact hkept
  | some name =>
      rw [hname] at hunbound
      cases name with
      | connect | connectOrCreate | create | upsert => cases hunbound
      | disconnect =>
          refine Triple.pure fun _ _ => ?_
          split
          · exact fun _ h => nomatch h
          · exact hchange
      | update =>
          refine Triple.bind_require (fun payload _ => ?_) fun _ _ _ _ => True.intro
          cases current with
          | none => exact Triple.throw fun _ _ => True.intro
          | some target =>
              exact Triple.bind (.trivial _) fun _ => Triple.pure fun _ _ => hchange
      | delete =>
          dsimp only
          split
          · cases current with
            | none => exact Triple.throw fun _ _ => True.intro
            | some target => exact Triple.pure fun _ _ _ h => nomatch h
          · exact hkept
      | createMany | set | updateMany | deleteMany => exact hkept

theorem writeOwned_unbinding (nested : NestedWrites) (relation : Field) (linkage : Linkage)
    {operations : Record} (hunbound : ∀ operation ∈ operations,
      (NestedOperation.ofName? operation.1).any NestedOperation.binds = false) (record : Record) :
    Triple (fun _ => True) (nested.writeOwned relation linkage operations record)
      (fun change _ => ∀ target, change ≠ .bind target) fun _ _ => True := by
  refine Triple.bind_get fun current _ => ?_
  refine Triple.bind_require (fun related _ => ?_) fun _ _ _ _ => True.intro
  have hsteps := Triple.foldlM (fun change _ => ∀ target, change ≠ OwnedChange.bind target)
    operations .keep fun change operation hoperation store hchange =>
      ownedStep_unbinding nested related
        ((linkage.scope record).bind fun scope => current.first? related (some scope)) hchange
        (hunbound operation hoperation) operation.2 store True.intro
  exact hsteps.imp (fun _ _ _ h => nomatch h) (fun _ _ h => h) fun _ _ h => h

/-- What a payload leaves open is not among the columns that one of its relations binds. -/
theorem writeOwned_open (nested : NestedWrites) {data : Record} (hopen : model.LeavesOpen name data)
    {key : String} {operations : Record} (hentry : (key, .object operations) ∈ data)
    {relation : Field} (hrelation : model.relation? key = some relation) (linkage : Linkage)
    (record : Record) :
    Triple (fun _ => True) (nested.writeOwned relation linkage operations record)
      (fun change _ => name ∈ relation.fromFields → ∀ target, change ≠ .bind target)
      fun _ _ => True := by
  by_cases hcolumn : name ∈ relation.fromFields
  · have hunbound := hopen.unbound _ hentry relation hrelation hcolumn operations rfl
    exact (writeOwned_unbinding nested relation linkage hunbound record).weaken
      (fun _ _ => True.intro) fun _ _ hchange _ => hchange
  · exact (Triple.trivial _).weaken (fun _ _ => True.intro)
      fun _ _ _ hmember => absurd hmember hcolumn

/-- A column that the payload leaves open stays null while its keys are gathered. -/
theorem draftStep_open (nested : NestedWrites) {data : Record} (hopen : model.LeavesOpen name data)
    {entry : String × Value} (hentry : entry ∈ data) {draft : Draft}
    (hdraft : Record.isNullAt name draft.given = true) :
    Triple (fun _ => True) (nested.draftStep model draft entry.1 entry.2)
      (fun draft _ => Record.isNullAt name draft.given = true) fun _ _ => True := by
  obtain ⟨key, value⟩ := entry
  have hkept {pre : Store → Prop} {deferred : Deferred} : Triple pre
      (pure { draft with deferred } : Write Draft)
      (fun draft _ => Record.isNullAt name draft.given = true) fun _ _ => True :=
    Triple.pure fun _ _ => hdraft
  unfold draftStep
  dsimp only
  cases hkey : model.field? key with
  | none => exact hkept
  | some other =>
      dsimp only
      by_cases hrelation : other.isRelation = true
      · rw [if_pos hrelation]
        cases value with
        | object operations =>
            refine Triple.bind_get fun current _ => ?_
            cases hlinkage : current.schema.linkage? model other with
            | none => exact hkept
            | some linkage =>
                by_cases howned : linkage.owned = true
                · simp only [if_pos howned]
                  have hother : model.relation? key = some other := by
                    rw [Model.relation?, hkey, Option.filter_some, if_pos hrelation]
                  have hlocal : linkage.localColumns = other.fromFields := by
                    rw [Schema.linkage_of_owned hlinkage howned]
                  have hnulled := Record.isNullAt_unbind hdraft linkage.localColumns
                  refine Triple.bind ((writeOwned_open nested hopen hentry hother linkage
                    draft.given).weaken (fun _ _ => True.intro) fun _ _ h => h) fun change => ?_
                  cases change with
                  | keep => exact hkept
                  | bind target =>
                      intro _ hchange
                      have hcolumn : name ∉ linkage.localColumns :=
                        hlocal ▸ fun hmember => hchange hmember target rfl
                      exact Linkage.isNullAt_bind_of_notMem hcolumn hdraft target
                  | unbind | unbindAndDelete => exact Triple.pure fun _ _ => hnulled
                · simp only [if_neg howned]
                  exact hkept
        | _ => exact hkept
      · rw [if_neg hrelation]
        refine Triple.pure fun _ _ => Record.isNullAt_insert hdraft fun hname => ?_
        -- the value that is given is null, and is taken as it is
        have hnull := hopen.ungiven _ hentry hname
        cases value <;> first | rfl | cases hnull

/-- A create fills an open counted field with a value between the counter before and after it,
    however deeply it is nested and whatever is nested in it. -/
theorem counted_createStep {field : Field} (hfield : model.field? field.name = some field)
    (hplain : field.isRelation = false) (hcounted : field.isCounted = true)
    (hmodel : model ∈ store.schema.models) {data : Record}
    (hopen : model.LeavesOpen field.name data) (depth : Nat) {record : Record}
    (h : ((within depth).createStep model data).outcome store = (.ok record, next)) :
    Counted store next model.name field.name (Record.valueAt field.name record) := by
  rw [createStep_eq] at h
  obtain ⟨draft, gathered, hdraft, h⟩ := outcome_bind_ok h
  obtain ⟨stored, completed, hstored, h⟩ := outcome_bind_ok h
  obtain ⟨_, ended, hended, h⟩ := outcome_bind_ok h
  obtain ⟨hrecord, rfl⟩ := Prod.mk.inj h
  obtain rfl := Except.ok.inj hrecord
  -- the field is open when the record is completed
  have hnull : Record.isNullAt field.name draft.given = true :=
    (Triple.foldlM (fun (draft : Draft) _ => Record.isNullAt field.name draft.given = true) data {}
      fun draft entry hentry store hnull =>
        draftStep_open (within depth) hopen hentry hnull store True.intro).ok rfl hdraft
  -- what is nested in it takes the counters on, before the record is stored and after
  obtain ⟨hleads, hthrough⟩ := (Upkeep.gives_draft (lawful_advancing store)
    (Upkeep.keeps_within (lawful_advancing store) depth) hmodel data ⟨rfl, .refl⟩).ok rfl hdraft
  obtain ⟨hlaid, -, hcompleted⟩ := complete_ok hstored
  have hmoved := moved_materialize model draft.given gathered
  have hstart : Advances (materialize model draft.given gathered).2 completed :=
    .of_eq (by rw [hcompleted]; rfl)
  have hschema : completed.schema = store.schema := by
    obtain ⟨⟨counters, entropy, hsupplied⟩, -⟩ := hmoved
    rw [hcompleted, hsupplied]
    exact hleads.holds.1
  have hlaws := lawful_advancing completed
  have hholds : (advancing completed).Holds completed := ⟨rfl, .refl⟩
  obtain ⟨hafter, -⟩ := (Upkeep.keeps_deferred hlaws (Upkeep.keeps_within hlaws depth)
    (hschema ▸ hmodel) hthrough True.intro hholds).ok rfl hended
  rw [hlaid]
  exact (counted_materialize hfield hplain hcounted hnull gathered).between hleads.holds.2
    (hstart.trans hafter.holds.2)

end NestedWrites

namespace Store

open NestedWrites

/-- Counters only ever advance, except when a reset starts them again, and unless they go round they
    never show less than before; a create fills an open counted field, at any depth of nesting,
    with a value between the counter before it and the counter after it; and a collection that is
    replaced from outside leaves the counters of its model past all values that it brings. -/
theorem counters_advance :
    (∀ (store : Store) (action : Action),
      (action = .request .reset → store.schema.options.resetCounters = false) →
        Advances store (store.act action) ∧
        (store.CountersFit → (store.act action).CountersFit → ShowsOn store (store.act action))) ∧
    (∀ (store next : Store) (depth : Nat) (model : Model) (field : Field) (data record : Record),
      model ∈ store.schema.models → model.field? field.name = some field →
        field.isRelation = false → field.isCounted = true → model.LeavesOpen field.name data →
          ((within depth).create model data).outcome store = (.ok record, next) →
            Counted store next model.name field.name (Record.valueAt field.name record) ∧
            (store.HasCounters → store.CountersFit → next.CountersFit →
              Drawn store next model.name field.name (Record.valueAt field.name record))) ∧
    (∀ (schema : Schema) (clock : Int) (entropy : Entropy) (history : List Action),
      ((ofSchema schema clock entropy).play history).HasCounters ∧
      ∀ model ∈ schema.models, ∀ field ∈ model.scalarFields, field.isCounted = true →
        ∀ records : List Record,
          (∀ record ∈ records, ∀ value, (Record.valueAt field.name record).int64? = some value →
            fitsInt64 (value + 1) = true) →
          ∃ word, (((ofSchema schema clock entropy).play history).act
              (.setItems model.name records)).shown? model.name field.name = some word ∧
            ∀ record ∈ records, ∀ value,
              (Record.valueAt field.name record).int64? = some value → value < word) := by
  refine ⟨fun store action hkept => ?_, ?_, ?_⟩
  · have hadvances := advances_act store hkept
    exact ⟨hadvances, hadvances.showsOn⟩
  · intro store next depth model field data record hmodel hfield hplain hcounted hopen h
    cases depth with
    | zero => cases h
    | succ depth =>
        have hvalue := counted_createStep hfield hplain hcounted hmodel hopen depth h
        refine ⟨hvalue, fun hcounters hstore hnext => ?_⟩
        obtain ⟨_, _, hfields, -⟩ := split_scalarFields hfield hplain
        have hscalar : field ∈ model.scalarFields :=
          hfields ▸ List.mem_append_right _ List.mem_cons_self
        obtain ⟨counter, hcounter⟩ := hcounters model hmodel field hscalar hcounted
        exact hvalue.drawn hcounter hstore hnext
  · intro schema clock entropy history
    obtain ⟨hschema, hcounters⟩ :=
      hasCounters_play history _ (hasCounters_ofSchema schema clock entropy)
    refine ⟨hcounters, fun model hmodel field hfield hcounted records hfits => ?_⟩
    have hmember : model ∈ ((ofSchema schema clock entropy).play history).schema.models :=
      hschema ▸ hmodel
    obtain ⟨counter, hcounter⟩ := hcounters.act (.setItems model.name records) model
      (by rw [schema_act]; exact hmember) field hfield hcounted
    have hword : (((ofSchema schema clock entropy).play history).act
        (.setItems model.name records)).shown? model.name field.name = some (wrap 64 counter) := by
      rw [shown?, hcounter, Option.map_some]
    refine ⟨_, hword, fun record hrecord value hvalue => ?_⟩
    simp only [act, Schema.model?_of_mem hmember] at hword
    exact shown?_setItems hword hfits hrecord hvalue

end Store

namespace Profiles

open Store Write NestedWrites

def user : Model where
  name := "User"
  fields := [{ name := "id", kind := .scalar, typeName := "Int", isId := true }]

def number : Field :=
  { name := "id", kind := .scalar, typeName := "Int", isId := true, default := some .autoincrement }

/-- A counter numbers the profiles, unless they take the number of their user. -/
def profile : Model where
  name := "Profile"
  fields := [number, { name := "user", kind := .relation, typeName := "User",
                       relationName := some "has", fromFields := ["id"], toFields := ["id"] }]

def schema : Schema where
  options := {}
  models := [user, profile]
  nodup_names := by decide
  targets_known := by decide

/-- A user comes from outside. -/
def seeded : Store := (ofSchema schema 0 ⟨0⟩).play [.setItems "User" [[("id", .integer 100)]]]

/-- A profile of that user. -/
def ofUser : Record := [("user", .object [("connect", .object [("id", .integer 100)])])]

/-- A profile of nobody. -/
def ofNobody : Record := [("id", .null), ("user", .object [("disconnect", .bool true)])]

/-- The profile takes the number of its user, which the counter has not come to. -/
theorem number_not_drawn :
    ¬∀ (schema : Schema) (clock : Int) (entropy : Entropy) (history : List Action) (model : Model)
        (field : Field) (data record : Record) (next : Store),
      model ∈ schema.models → model.field? field.name = some field → field.isRelation = false →
        field.isCounted = true →
          (∀ entry ∈ data, entry.1 = field.name → entry.2.isNull = true) →
            (createRecord model data).outcome ((ofSchema schema clock entropy).play history) =
                (.ok record, next) →
              CountersFit ((ofSchema schema clock entropy).play history) → next.CountersFit →
                Drawn ((ofSchema schema clock entropy).play history) next model.name field.name
                  (Record.valueAt field.name record) := by
  intro h
  have hrun : (createRecord profile ofUser).outcome seeded =
      (.ok [("id", .integer 100)], (createRecord profile ofUser).after seeded) := rfl
  obtain ⟨value, hvalue, -, counter, hcounter, hlt⟩ := h schema 0 ⟨0⟩ _ profile number ofUser _ _
    (.tail _ (.head _)) rfl rfl rfl (by decide) hrun (.of_forall (by decide))
    (.of_forall (by decide))
  -- the counter still is to give out 1
  obtain rfl : (1 : Int) = counter := Option.some.inj hcounter
  obtain rfl : (100 : Int) = value := Value.integer.inj hvalue
  exact absurd hlt (by decide)

/-- The store with a profile from outside. -/
def numbered : Store := seeded.act (.setItems "Profile" [[("id", .integer 41)]])

/-- The counter goes past the number of a profile from outside, and the next profile gets a number
    beyond it. -/
theorem counters_of_profiles :
    ∃ next, (createRecord profile ofNobody).outcome numbered = (.ok [("id", .integer 42)], next) ∧
      numbered.HasCounters ∧ numbered.CountersFit ∧ next.CountersFit ∧
      Drawn numbered next "Profile" "id" (.integer 42) ∧
      (∃ word, numbered.shown? "Profile" "id" = some word ∧ 41 < word) ∧
      Advances next (next.act (.request .reset)) ∧ ShowsOn next (next.act (.request .reset)) := by
  obtain ⟨hadvances, hdrawn, hreachable⟩ := counters_advance
  have hmember : profile ∈ schema.models := .tail _ (.head _)
  have hrun : (createRecord profile ofNobody).outcome numbered =
      (.ok [("id", .integer 42)], (createRecord profile ofNobody).after numbered) := rfl
  have hopen : profile.LeavesOpen number.name ofNobody := by
    refine ⟨by decide, fun entry hentry relation _ _ operations hoperations => ?_⟩
    rcases List.mem_pair.mp hentry with rfl | rfl
    · cases hoperations
    · cases hoperations
      decide
  have hhas : numbered.HasCounters := (hreachable schema 0 ⟨0⟩
    [.setItems "User" [[("id", .integer 100)]], .setItems "Profile" [[("id", .integer 41)]]]).1
  have hbefore : numbered.CountersFit := .of_forall (by decide)
  have hafter : ((createRecord profile ofNobody).after numbered).CountersFit :=
    .of_forall (by decide)
  obtain ⟨hreset, hshows⟩ := hadvances ((createRecord profile ofNobody).after numbered)
    (.request .reset) fun _ => rfl
  obtain ⟨word, hword, hpast⟩ := (hreachable schema 0 ⟨0⟩
    [.setItems "User" [[("id", .integer 100)]]]).2 profile hmember number (.head _) rfl
    [[("id", .integer 41)]] (by decide)
  exact ⟨_, hrun, hhas, hbefore, hafter,
    (hdrawn _ _ _ profile number ofNobody _ hmember rfl rfl rfl hopen hrun).2 hhas hbefore hafter,
    ⟨word, hword, hpast _ List.mem_cons_self 41 rfl⟩, hreset,
    hshows hafter (.of_forall (by decide))⟩

end Profiles

end RecordStore
