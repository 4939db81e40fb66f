import RecordStore.Proofs.Write.Change
import RecordStore.Proofs.Write.KeptNested

/-!
# Runs of a client

A run is any sequence of requests: writes on a model, resets, and the passing of time.  A request
that fails leaves the store as its write left it, and one for a model that is not declared leaves
it alone.
-/

namespace RecordStore

open Write

/-- The writes that a client calls on a model. -/
inductive WriteOperation where
  | create
  | createMany
  | createManyAndReturn
  | update
  | updateMany
  | updateManyAndReturn
  | upsert
  | delete
  | deleteMany
  deriving DecidableEq, Repr

namespace WriteOperation

/-- A write on a model, whatever it answers. -/
def write : WriteOperation → Model → Value → Write Unit
  | .create, model, args => discard (Write.create model args)
  | .createMany, model, args => discard (Write.createMany model args)
  | .createManyAndReturn, model, args => discard (Write.createManyAndReturn model args)
  | .update, model, args => discard (Write.update model args)
  | .updateMany, model, args => discard (Write.updateMany model args)
  | .updateManyAndReturn, model, args => discard (Write.updateManyAndReturn model args)
  | .upsert, model, args => discard (Write.upsert model args)
  | .delete, model, args => discard (Write.delete model args)
  | .deleteMany, model, args => discard (Write.deleteMany model args)

end WriteOperation

/-- A request of a client. -/
inductive Request where
  | reset
  | wait (clock : Int)
  | write (operation : WriteOperation) (model : String) (args : Value)

namespace Store

/-- The store after a request. -/
def apply (store : Store) : Request → Store
  | .reset => store.reset
  | .wait clock => { store with clock }
  | .write operation name args =>
      match store.schema.model? name with
      | none => store
      | some model => (operation.write model args).after store

/-- The store after a sequence of requests. -/
def run (store : Store) (requests : List Request) : Store := requests.foldl apply store

variable {store : Store} {operation : WriteOperation} {name : String} {args : Value}

theorem apply_write_of_none (h : store.schema.model? name = none) :
    store.apply (.write operation name args) = store := by
  simp only [apply, h]

theorem apply_write_of_some {model : Model} (h : store.schema.model? name = some model) :
    store.apply (.write operation name args) = (operation.write model args).after store := by
  simp only [apply, h]

end Store

/-! ## Requests keep up what is lawful -/

namespace Upkeep

variable {u : Upkeep} {schema : Schema} {store : Store} {model : Model}

section

variable {fails : Error → Prop} (hallows : u.Allows fails schema) (hmodel : model ∈ schema.models)
include hallows hmodel

/-- An answer is read from the store that a write leaves. -/
theorem alike_shaped (projection : Projection) (record : Record) :
    u.RunsAlike fails store (shaped projection model record) (shaped projection model record) :=
  .bind_get fun hstore => .require <| hallows.arguments <|
    Projection.failsOnly_shape (hallows.laws.schema_eq hstore ▸ hmodel) projection record

/-- The record to be updated or deleted is a stored one. -/
theorem alike_target (filter : Option Record) {cause : MissingRecord} (hcause : cause ≠ .toFind) :
    u.Alike fails store (target model filter cause) (target model filter cause)
      fun record next => u.Knows next model record := by
  refine .bind_get fun hstore => ?_
  split
  · rename_i record hfound
    exact .pure fun _ => knows_of_first? hallows.laws hstore hmodel hfound
  · exact .throw (hallows.faults (.missing _ hcause))

variable (hcut : fails .nestingExceeded)
include hcut

/-- The records of a list are created one by one. -/
theorem alike_createAll (args : CreateManyArguments) :
    u.RunsAlike fails store (createAll model args) (createAll model args) :=
  (alike_createEach (fun data _ _ => alike_createRecord hallows hcut hmodel data) _ store).runs

/-- A write of a client keeps up what is lawful, and fails for its arguments or as nested writes
    do.  The arguments are read, and checked for a conflict if it answers records, before anything
    else. -/
theorem alike_write (operation : WriteOperation) (args : Value) :
    u.RunsAlike fails store (operation.write model args) (operation.write model args) := by
  have hparse {α : Type} (names : List String) (read : Record → Option α) :
      FailsOnly fails (Arguments.parse names read args) :=
    hallows.arguments (Arguments.failsOnly_parse names read args)
  have hcheck (projection : Projection) : FailsOnly fails projection.check :=
    hallows.arguments projection.failsOnly_check
  have hcreate (projection : Projection) (data : Record) {store : Store} :
      u.RunsAlike fails store (do shaped projection model (← createRecord model data))
        (do shaped projection model (← createRecord model data)) :=
    .bind (alike_createRecord hallows hcut hmodel data) fun record _ _ _ =>
      alike_shaped hallows hmodel projection record
  have hupdate (projection : Projection) {current : Record} (data : Record) {store : Store}
      (hcurrent : u.Knows store model current) :
      u.RunsAlike fails store (do shaped projection model (← updateRecord model current data))
        (do shaped projection model (← updateRecord model current data)) :=
    .bind (alike_updateRecord hallows hcut hmodel hcurrent data) fun record _ _ _ =>
      alike_shaped hallows hmodel projection record
  have hanswers (projection : Projection) (records : List Record) {store : Store} :
      u.RunsAlike fails store (records.mapM (shaped projection model))
        (records.mapM (shaped projection model)) :=
    .mapM records fun record _ _ _ => alike_shaped hallows hmodel projection record
  have hcount {w : Write (List Record)} (hw : u.RunsAlike fails store w w) :
      u.RunsAlike fails store (do return (← w).length) (do return (← w).length) :=
    .bind hw fun _ _ _ _ => .pure fun _ => trivial
  cases operation with
  | create =>
      exact .discard <| .bind_require (hparse _ _) fun args _ =>
        .bind_require (hcheck _) fun _ _ => hcreate _ args.data
  | createMany =>
      exact .discard <| .bind_require (hparse _ _) fun args _ =>
        hcount (alike_createAll hallows hmodel hcut args)
  | createManyAndReturn =>
      refine .discard <| .bind_require (hparse _ _) fun args _ =>
        .bind_require (hcheck _) fun _ _ => ?_
      exact .bind (alike_createAll hallows hmodel hcut args) fun records _ _ _ =>
        hanswers _ records
  | update =>
      refine .discard <| .bind_require (hparse _ _) fun args _ =>
        .bind_require (hcheck _) fun _ _ => ?_
      exact .bind (alike_target hallows hmodel _ (by nofun)) fun current _ _ hcurrent =>
        hupdate _ args.data hcurrent
  | updateMany =>
      exact .discard <| .bind_require (hparse _ _) fun args _ =>
        hcount (alike_updateSelected hallows hcut hmodel args.filter args.data)
  | updateManyAndReturn =>
      refine .discard <| .bind_require (hparse _ _) fun args _ =>
        .bind_require (hcheck _) fun _ _ => ?_
      exact .bind (alike_updateSelected hallows hcut hmodel args.filter args.data)
        fun records _ _ _ => hanswers _ records
  | upsert =>
      refine .discard <| .bind_require (hparse _ _) fun args _ =>
        .bind_require (hcheck _) fun _ _ => .bind_get fun hstore => ?_
      dsimp only
      split
      · rename_i current hfound
        exact hupdate _ args.update (knows_of_first? hallows.laws hstore hmodel hfound)
      · exact hcreate _ args.create
  | delete =>
      refine .discard <| .bind_require (hparse _ _) fun args _ =>
        .bind_require (hcheck _) fun _ _ => ?_
      refine .bind (alike_target hallows hmodel _ (by nofun)) fun record _ _ _ => ?_
      refine .bind (alike_shaped hallows hmodel _ record) fun answer _ _ _ => ?_
      exact .bind (alike_deleteRecord hallows model record) fun _ _ _ _ => .pure fun _ => trivial
  | deleteMany =>
      exact .discard <| .bind_require (hparse _ _) fun args _ =>
        hcount (alike_deleteMatching hallows model args.filter)

end

section

variable (hlaws : u.Lawful schema)
include hlaws

/-- A request for a write leads from a store with the property to another one. -/
theorem leads_apply_write (hstore : u.Holds store) (operation : WriteOperation) (name : String)
    (args : Value) : u.Leads store (store.apply (.write operation name args)) := by
  cases hmodel : store.schema.model? name with
  | none =>
      rw [Store.apply_write_of_none hmodel]
      exact .refl hstore
  | some model =>
      rw [Store.apply_write_of_some hmodel]
      have hmember : model ∈ schema.models :=
        hlaws.schema_eq hstore ▸ (Schema.model?_spec hmodel).1
      have hkeeps : u.Keeps store (operation.write model args) :=
        (alike_write hlaws.allows hmember trivial operation args).gives
      exact hkeeps.leads_after hstore

/-- Emptying the collections one by one removes their records. -/
theorem leads_emptied (names : List String) :
    ∀ store : Store, u.Holds store →
      u.Leads store (names.foldl (fun acc name => acc.replaceCollection name []) store) := by
  induction names with
  | nil => exact fun _ hstore => .refl hstore
  | cons name rest ih =>
      intro store hstore
      have hfirst := hlaws.remove hstore (List.nil_sublist (store.items name))
      exact hfirst.trans (ih _ hfirst.holds)

/-- What is lawful, and is kept when the links of all joins are removed, counters start again or
    time passes, holds after every run from a store that has it. -/
theorem holds_run (hunlinked : ∀ {counters : Entries (Entries Int)} (store : Store),
      u.Holds store → u.Holds { store with joins := store.joins.reset, counters })
    (hwait : ∀ (store : Store) (clock : Int), u.Holds store → u.Holds { store with clock })
    (requests : List Request) : ∀ store, u.Holds store → u.Holds (store.run requests) := by
  induction requests with
  | nil => exact fun _ hstore => hstore
  | cons request rest ih =>
      intro store hstore
      refine ih _ ?_
      cases request with
      | reset =>
          exact hunlinked _ (leads_emptied hlaws store.collections.keys store hstore).holds
      | wait clock => exact hwait store clock hstore
      | write operation name args =>
          exact (leads_apply_write hlaws hstore operation name args).holds

end

end Upkeep

namespace Store

/-- What every change keeps, as an upkeep that takes every record for known. -/
def keptByChange (schema : Schema) (P : Store → Prop) : Upkeep where
  Holds store := store.schema = schema ∧ P store
  Knows _ _ _ := True
  Admits _ _ := True

theorem lawful_keptByChange (schema : Schema) {P : Store → Prop}
    (hchange : ∀ store next, Change store next → P store → P next) :
    (keptByChange schema P).Lawful schema := by
  have hleads {store next : Store} (hstore : (keptByChange schema P).Holds store)
      (hstep : Change store next) : (keptByChange schema P).Leads store next :=
    ⟨⟨hstep.schema_eq.trans hstore.1, hchange store next hstep hstore.2⟩, fun _ _ _ => trivial⟩
  constructor
  case schema_eq => exact fun hstore => hstore.1
  case supply => exact fun counters entropy hstore _ => hleads hstore (.supply _ counters entropy)
  case insert =>
    intro store model record hstore hmodel _ hfree
    exact ⟨hleads hstore (.insert store model record (hstore.1 ▸ hmodel) hfree), trivial⟩
  case replace =>
    intro store changed model current next hstore hmodel _ hfree hswap
    have hmember := hstore.1 ▸ hmodel
    exact ⟨hleads hstore (.replace store changed model current next hmember hfree hswap), trivial⟩
  case remove => exact fun hstore hfewer => hleads hstore (.remove _ _ _ hfewer)
  case detach =>
    intro store model field scope hstore _ _
    exact hleads hstore (.detach store model scope field.fromFields)
  case link => exact fun hstore _ _ _ _ _ _ => hleads hstore (.relink _ _)
  case unlink => exact fun _ _ _ _ hstore => hleads hstore (.relink _ _)
  case cleanup => exact fun _ _ hstore => hleads hstore (.relink _ _)
  all_goals intros; trivial

/-- The schema alone is kept by every change. -/
abbrev schemaKept (schema : Schema) : Upkeep := keptByChange schema fun _ => True

theorem lawful_schemaKept (schema : Schema) : (schemaKept schema).Lawful schema :=
  lawful_keptByChange schema fun _ _ _ _ => trivial

/-- What holds of the empty store and is kept by every change, and over time, holds after every
    run. -/
theorem run_induction {P : Store → Prop}
    (hchange : ∀ store next, Change store next → P store → P next)
    (hwait : ∀ (store : Store) (clock : Int), P store → P { store with clock })
    (requests : List Request) : ∀ store, P store → P (store.run requests) := by
  intro store hstore
  refine (Upkeep.holds_run (lawful_keptByChange store.schema hchange) ?_ ?_ requests store
    ⟨rfl, hstore⟩).2
  · intro counters current ⟨hschema, hcurrent⟩
    have hunlinked := hchange _ _ (.relink current current.joins.reset) hcurrent
    exact ⟨hschema, hchange _ _ (.supply _ counters current.entropy) hunlinked⟩
  · exact fun current clock ⟨hschema, hcurrent⟩ => ⟨hschema, hwait current clock hcurrent⟩

end Store

end RecordStore
