import RecordStore.Proofs.Delete.Termination
import RecordStore.Proofs.Write.Kept
import RecordStore.Proofs.Write.Parts

/-!
# One walk through nested writes

Nested writes leave creates and updates of other records to what they are given for it.  Two ways of
doing these that come to the same, whenever they are asked to, make two nested writes that come to
the same; if they keep something up and answer known records, then so do the nested writes; and what
these fail for beyond that is the fault of the payload, of a record that is not there or is there
already, or of a relation without a name.  The walk is over the operations of each kind of relation
and the keys of a payload.  With both ways the same it tells what one nested write keeps up and what
it fails for.
-/

namespace RecordStore

open Store Write

namespace NestedWrites

/-- Two ways of creating and updating records that come to the same wherever nested writes may ask
    for it, and keep something up.  The record to be updated has to be known, and the one that is
    answered is. -/
structure AgreeOn (u : Upkeep) (fails : Error → Prop) {schema : Schema} (asking : Asking schema)
    (nested nested' : NestedWrites) : Prop where
  create {related : Model} {data : Record} (store : Store) : related ∈ schema.models →
    asking.asked related data →
      u.Alike fails store (nested.create related data) (nested'.create related data)
        fun record next => u.Knows next related record
  update {related : Model} {current data : Record} (store : Store) : related ∈ schema.models →
    asking.asked related data → u.Knows store related current →
      u.Alike fails store (nested.update related current data) (nested'.update related current data)
        fun record next => u.Knows next related record

/-- A join end is that of a relation field of a model, for one of its records. -/
structure JoinEnd.Of (joinEnd : JoinEnd) (schema : Schema) (model : Model) (field : Field)
    (record : Record) : Prop where
  name : field.relationName = some joinEnd.name
  side : joinEnd.side = ⟨field.name, model.name⟩
  related : schema.relatedModel field = .ok joinEnd.related
  id : joinEnd.id = model.recordId record

/-- The join end that is found is the one that was asked for. -/
theorem joinEnd_spec {store : Store} {model : Model} {field : Field} {record : Record}
    {found : JoinEnd} (h : joinEnd store model field record = .ok found) :
    found.Of store.schema model field record := by
  unfold joinEnd at h
  cases hrelated : store.schema.relatedModel field with
  | error e => rw [hrelated] at h; cases h
  | ok related =>
      rw [hrelated] at h
      dsimp only [bind, Except.bind] at h
      split at h
      · cases h
      · rename_i name hname
        split at h
        · obtain rfl := Except.ok.inj h
          exact ⟨hname, rfl, hrelated, rfl⟩
        · cases h

end NestedWrites

/-- Writes that wait go through relation fields of the model, by operations that are given. -/
def Asking.Waits {schema : Schema} (asking : Asking schema) (model : Model) (deferred : Deferred) :
    Prop :=
  ∀ later ∈ deferred, later.1 ∈ model.relationFields ∧ asking.given (.object later.2)

/-- A revision of a record of a model is fit to be stored, and the writes and deletes that wait for
    that go through relation fields. -/
structure Revision.Suits (u : Upkeep) {schema : Schema} (asking : Asking schema) (model : Model)
    (revision : Revision) : Prop where
  fit : u.Admits model revision.next
  waits : asking.Waits model revision.deferred
  orphans : ∀ orphan ∈ revision.orphans, orphan.1 ∈ model.relationFields

namespace Upkeep

open NestedWrites

variable {u : Upkeep} {fails : Error → Prop} {schema : Schema} {store : Store}
variable {model related : Model} {field : Field}
variable (hallows : u.Allows fails schema)
include hallows

/-! ## Writes on several records -/

/-- The record to be connected is a stored one. -/
theorem alike_connectTarget (hrelated : related ∈ schema.models) (filter : Record) :
    u.Alike fails store (connectTarget related filter) (connectTarget related filter)
      fun target next => u.Knows next related target := by
  refine .bind_get fun hstore => ?_
  split
  · rename_i target hfound
    exact .pure fun _ => knows_of_first? hallows.laws hstore hrelated hfound
  · exact .throw (hallows.faults (.missing _ (by nofun)))

/-- Each record is updated as it is stored when its turn has come. -/
theorem alike_updateEach (hmodel : model ∈ schema.models) {data : Record}
    {update update' : Model → Record → Record → Write Record}
    (hupdate : ∀ current store, u.Knows store model current →
      u.RunsAlike fails store (update model current data) (update' model current data))
    (targets : List Record) :
    ∀ store, u.RunsAlike fails store (updateEach update model data targets)
      (updateEach update' model data targets) := by
  induction targets with
  | nil => exact fun _ => .pure fun _ => trivial
  | cons target rest ih =>
      intro store
      refine .bind_get fun hstore => ?_
      split
      · exact ih store
      · rename_i current hfound
        have hcurrent := hallows.laws.stored hstore hmodel (List.mem_of_find?_eq_some hfound)
        exact .bind (hupdate current store hcurrent) fun _ next _ _ =>
          .bind (ih next) fun _ _ _ _ => .pure fun _ => trivial

/-- So are all records that a filter selects. -/
theorem alike_updateMatchingWith (hmodel : model ∈ schema.models) {data : Record}
    {update update' : Model → Record → Record → Write Record}
    (hupdate : ∀ current store, u.Knows store model current →
      u.RunsAlike fails store (update model current data) (update' model current data))
    (filter : Option Record) :
    u.RunsAlike fails store (updateMatchingWith update model filter data)
      (updateMatchingWith update' model filter data) :=
  .bind_get fun _ => alike_updateEach hallows hmodel hupdate _ store

omit hallows in
/-- All records that have been created are known in the end. -/
theorem alike_createEach {create create' : Record → Write Record} {payloads : List Record}
    (hcreate : ∀ data ∈ payloads, ∀ store, u.Alike fails store (create data) (create' data)
      fun record next => u.Knows next model record) (skip : Bool) :
    ∀ store, u.Alike fails store (createEach create skip payloads)
      (createEach create' skip payloads) fun records next =>
        ∀ record ∈ records, u.Knows next model record := by
  induction payloads with
  | nil => exact fun _ => .pure fun _ => List.forall_mem_nil _
  | cons data rest ih =>
      intro store
      obtain ⟨hfirst, hrest⟩ := List.forall_mem_cons.mp hcreate
      refine .bind (.orSkip skip (hfirst store)) fun created next _ hcreated => ?_
      cases created with
      | none => exact ih hrest next
      | some record =>
          refine .bind (ih hrest next) fun others last hleads hothers => .pure fun _ => ?_
          have hrecord := hleads.knows _ _ (hcreated record rfl)
          exact List.forall_mem_cons.mpr ⟨hrecord, hothers⟩

/-- A miss is an error that a write may fail for. -/
theorem alike_mustHit (related : Model) {cause : MissingRecord} (hcause : cause ≠ .toFind)
    (strict : Bool) (hits : List Record) :
    u.RunsAlike fails store (mustHit related cause strict hits)
      (mustHit related cause strict hits) := by
  unfold mustHit
  split
  · exact .throw (hallows.faults (.missing _ hcause))
  · exact .pure fun _ => trivial

/-- A delete goes as deep as it needs to, and does not fail. -/
theorem alike_deleteMatching (related : Model) (filter : Option Record) :
    u.RunsAlike fails store (deleteMatching related filter) (deleteMatching related filter) :=
  .of_succeeds (keeps_deleteMatching hallows.laws related filter)
    (Shrinks.succeeds (fun bound => shrinks_deleteMatching bound related filter) store)

/-- Nor does the delete of one record. -/
theorem alike_deleteRecord (related : Model) (record : Record) :
    u.RunsAlike fails store (deleteRecord related record) (deleteRecord related record) :=
  .of_succeeds (keeps_deleteRecord hallows.laws related record)
    (Shrinks.succeeds (fun bound => shrinks_deleteRecord bound related record) store)

section

variable {asking : Asking schema} {nested nested' : NestedWrites} {arg : Value}
variable (hnested : AgreeOn u fails asking nested nested') (hrelated : related ∈ schema.models)
include hnested hrelated

theorem alike_updateMatching {data : Record} (hdata : asking.asked related data)
    (filter : Record) :
    u.RunsAlike fails store (nested.updateMatching related filter data)
      (nested'.updateMatching related filter data) :=
  alike_updateMatchingWith hallows hrelated
    (fun _ store hcurrent => (hnested.update store hrelated hdata hcurrent).runs) (some filter)

variable (harg : asking.given arg)
include harg

omit hallows in
/-- The records of a list are each created from a part of what is given. -/
theorem alike_createMany {scope : Record}
    (hscope : ∀ part, asking.given (.object part) →
      asking.asked related (Entries.insertAll part scope)) :
    u.Alike fails store (nested.createMany related arg scope) (nested'.createMany related arg scope)
      fun records next => ∀ record ∈ records, u.Knows next related record := by
  refine alike_createEach (fun data hdata store =>
    hnested.create store hrelated (hscope data ?_)) _ store
  -- without a list there is nothing to create
  cases hlist : arg.get? "data" with
  | none =>
      rw [hlist] at hdata
      cases hdata
  | some list =>
      rw [hlist] at hdata
      exact asking.within harg ((Value.within_get? hlist).trans (Value.within_objects hdata))

/-! ## Key columns of the record itself -/

/-- Operations through an owned relation create from parts of their payload, and update the record
    that is linked by them. -/
theorem alike_ownedStep {current : Option Record}
    (hcurrent : ∀ target ∈ current, u.Knows store related target) (change : OwnedChange)
    (operation : String) :
    u.RunsAlike fails store (nested.ownedStep related current change operation arg)
      (nested'.ownedStep related current change operation arg) := by
  have hcreate {data : Record} (hdata : Value.Within (.object data) arg) :
      u.RunsAlike fails store (do return OwnedChange.bind (← nested.create related data))
        (do return OwnedChange.bind (← nested'.create related data)) :=
    .bind (hnested.create store hrelated (asking.of_part (asking.within harg hdata)))
      fun _ _ _ _ => .pure fun _ => trivial
  have hupdate {target data : Record} (htarget : u.Knows store related target)
      (hdata : Value.Within (.object data) arg) :
      u.RunsAlike fails store (do let _ ← nested.update related target data; return change)
        (do let _ ← nested'.update related target data; return change) :=
    .bind (hnested.update store hrelated (asking.of_part (asking.within harg hdata)) htarget)
      fun _ _ _ _ => .pure fun _ => trivial
  have hmember (key : String) := hallows.arguments (Payload.ofArguments_member arg key operation)
  have hobject := hallows.arguments (Payload.ofArguments_object arg operation)
  unfold ownedStep
  cases NestedOperation.ofName? operation with
  | none => exact .pure fun _ => trivial
  | some name =>
      cases name with
      | connect =>
          exact .bind_require hobject fun filter _ =>
            .bind (alike_connectTarget hallows hrelated filter) fun _ _ _ _ =>
              .pure fun _ => trivial
      | connectOrCreate =>
          refine .bind_require (hmember _) fun filter _ => .bind_get fun _ => ?_
          split
          · exact .pure fun _ => trivial
          · exact .bind_require (hmember _) fun data hdata => hcreate (Payload.within_member hdata)
      | create => exact .bind_require hobject fun data hdata => hcreate (Payload.within_object hdata)
      | update =>
          refine .bind_require (hallows.arguments (Payload.ofArguments_update arg))
            fun payload hpayload => ?_
          cases current with
          | none => exact .throw (hallows.faults (.missing _ (by nofun)))
          | some target => exact hupdate (hcurrent target rfl) (Payload.within_update hpayload)
      | upsert =>
          cases current with
          | none =>
              exact .bind_require (hmember _) fun data hdata =>
                hcreate (Payload.within_member hdata)
          | some target =>
              exact .bind_require (hmember _) fun data hdata =>
                hupdate (hcurrent target rfl) (Payload.within_member hdata)
      | delete =>
          dsimp only
          split
          · cases current with
            | none => exact .throw (hallows.faults (.missing _ (by nofun)))
            | some target => exact .pure fun _ => trivial
          · exact .pure fun _ => trivial
      | _ => exact .pure fun _ => trivial

/-! ## Key columns of the dependents -/

/-- Dependents are connected by key columns alone. -/
theorem alike_connectDependents {scope : Record} (hscope : schema.KeyColumns related scope)
    (filters : List Record) :
    u.RunsAlike fails store (nested.connectDependents related scope filters)
      (nested'.connectDependents related scope filters) :=
  .forM _ fun filter _ _ _ => .bind (alike_connectTarget hallows hrelated filter)
    fun _ next _ htarget =>
      (hnested.update next hrelated (asking.of_columns harg hscope) htarget).runs.discard

/-- Operations on dependents create from parts of their payload with key columns, and update by
    parts of it or by key columns alone. -/
theorem alike_dependentStep {scope detached : Record} (hscope : schema.KeyColumns related scope)
    (hdetached : schema.KeyColumns related detached) (operation : String) :
    u.RunsAlike fails store (nested.dependentStep related scope detached operation arg)
      (nested'.dependentStep related scope detached operation arg) := by
  have hcreate {data : Record} (hdata : asking.given (.object data)) (store : Store) :
      u.RunsAlike fails store (discard (nested.create related (Entries.insertAll data scope)))
        (discard (nested'.create related (Entries.insertAll data scope))) :=
    (hnested.create store hrelated (asking.of_scope hdata hscope)).runs.discard
  have hupdate {target data : Record} {store : Store} (htarget : u.Knows store related target)
      (hdata : asking.asked related data) :
      u.RunsAlike fails store (discard (nested.update related target data))
        (discard (nested'.update related target data)) :=
    (hnested.update store hrelated hdata htarget).runs.discard
  have hconnect (store : Store) :
      u.RunsAlike fails store (nested.connectDependents related scope arg.objects)
        (nested'.connectDependents related scope arg.objects) :=
    alike_connectDependents hallows hnested hrelated harg hscope arg.objects
  have hdetach (filter : Record) (store : Store) :
      u.RunsAlike fails store (discard (nested.updateMatching related filter detached))
        (discard (nested'.updateMatching related filter detached)) :=
    .discard <| alike_updateMatching hallows hnested hrelated (asking.of_columns harg hdetached)
      filter
  have hentry {entry : Record} (hentry : entry ∈ arg.objects) :
      asking.given (.object entry) := asking.within harg (Value.within_objects hentry)
  have hmember (entry : Record) (key : String) :=
    hallows.arguments (Payload.ofArguments_member (.object entry) key operation)
  -- one and many updates differ only in whether a miss is an error
  have hentries (strict : Bool) :
      u.RunsAlike fails store (dependentStep.updateEntries nested related scope strict arg)
        (dependentStep.updateEntries nested' related scope strict arg) := by
    refine .forM _ fun entry hentry next _ => .bind_require
      (hallows.arguments (Payload.ofArguments_update entry)) fun payload hpayload => ?_
    have hpart : asking.given (.object payload.2) := asking.within harg
      ((Payload.within_entries hentry).trans (Payload.within_update hpayload))
    exact .bind (alike_updateMatching hallows hnested hrelated (asking.of_part hpart) _)
      fun hits _ _ _ => alike_mustHit hallows related (by nofun) strict hits
  unfold dependentStep
  cases NestedOperation.ofName? operation with
  | none => exact .pure fun _ => trivial
  | some name =>
      cases name with
      | connect => exact hconnect store
      | connectOrCreate =>
          refine .forM _ fun entry hmem next _ => .bind_require (hmember entry _) fun filter _ =>
            .bind_get fun hnext => ?_
          split
          · rename_i target hfound
            exact hupdate (knows_of_first? hallows.laws hnext hrelated hfound)
              (asking.of_columns harg hscope)
          · exact .bind_require (hmember entry _) fun data hdata =>
              hcreate (asking.within (hentry hmem) (Payload.within_member hdata)) next
      | create => exact .forM _ fun data hmem next _ => hcreate (hentry hmem) next
      | createMany =>
          exact (alike_createMany hnested hrelated harg fun part hpart =>
            asking.of_scope hpart hscope).runs.discard
      | set => exact .bind (hdetach _ store) fun _ next _ _ => hconnect next
      | disconnect => exact .forM _ fun filter _ next _ => hdetach filter next
      | update => exact hentries true
      | updateMany => exact hentries false
      | upsert =>
          refine .forM _ fun entry hmem next _ => .bind_get fun hnext => ?_
          split
          · rename_i target hfound
            have htarget := knows_of_first? hallows.laws hnext hrelated hfound
            exact .bind_require (hmember entry _) fun data hdata => hupdate htarget
              (asking.of_part (asking.within (hentry hmem) (Payload.within_member hdata)))
          · exact .bind_require (hmember entry _) fun data hdata =>
              hcreate (asking.within (hentry hmem) (Payload.within_member hdata)) next
      | delete =>
          exact .forM _ fun filter _ _ _ => .bind (alike_deleteMatching hallows related _)
            fun hits _ _ _ => alike_mustHit hallows related (by nofun) true hits
      | deleteMany =>
          exact .forM _ fun filter _ _ _ => (alike_deleteMatching hallows related _).discard

end

/-! ## Joins -/

/-- Parting leaves known what is known. -/
theorem alike_unlink (joinEnd : JoinEnd) (targetId : Value) :
    u.RunsAlike fails store (joinEnd.unlink targetId) (joinEnd.unlink targetId) := by
  refine .of_succeeds (Keeps.modify fun hstore => ?_) ⟨_, _, rfl⟩
  have hlaws := hallows.laws
  have hfirst := hlaws.unlink joinEnd.name joinEnd.side joinEnd.id targetId hstore
  dsimp only
  split
  · exact hfirst.trans (hlaws.unlink joinEnd.name joinEnd.side targetId joinEnd.id hfirst.holds)
  · exact hfirst

section

variable (hmodel : model ∈ schema.models) (hfield : field ∈ model.relationFields)
variable {joinEnd : JoinEnd} {record : Record} (hend : joinEnd.Of schema model field record)
include hmodel hfield hend

/-- A known record may be linked to a known one. -/
theorem alike_link (hrecord : u.Knows store model record) {target : Record}
    (htarget : u.Knows store joinEnd.related target) :
    u.RunsAlike fails store (joinEnd.link target) (joinEnd.link target) := by
  refine .of_succeeds (Keeps.modify fun hstore => ?_) ⟨_, _, rfl⟩
  rw [hend.side, hend.id]
  exact hallows.laws.link hstore hmodel hfield hend.related hend.name hrecord htarget

/-- So it may be to every record that filters pick. -/
theorem alike_connect (hrecord : u.Knows store model record) (filters : List Record) :
    u.RunsAlike fails store (joinEnd.connect filters) (joinEnd.connect filters) := by
  have hrelated := Schema.mem_of_relatedModel hend.related
  refine .forM _ fun filter _ next hnext => ?_
  refine .bind (alike_connectTarget hallows hrelated filter) fun target last hlast htarget => ?_
  exact alike_link hallows hmodel hfield hend ((hnext.trans hlast).knows _ _ hrecord) htarget

/-- Operations through a join create and update by parts of their payload, and link what they create
    or find to a record that is known. -/
theorem alike_joinStep {asking : Asking schema} {nested nested' : NestedWrites}
    (hnested : AgreeOn u fails asking nested nested') {arg : Value} (harg : asking.given arg)
    (hrecord : u.Knows store model record) (operation : String) :
    u.RunsAlike fails store (nested.joinStep joinEnd operation arg)
      (nested'.joinStep joinEnd operation arg) := by
  have hrelated := Schema.mem_of_relatedModel hend.related
  -- what is created or found is linked right away, from a store that still knows the record
  have hlink {next : Store} (hnext : u.Leads store next) {target : Record}
      (htarget : u.Knows next joinEnd.related target) :
      u.RunsAlike fails next (joinEnd.link target) (joinEnd.link target) :=
    alike_link hallows hmodel hfield hend (hnext.knows _ _ hrecord) htarget
  have hcreate {next : Store} (hnext : u.Leads store next) {data : Record}
      (hdata : asking.given (.object data)) :
      u.RunsAlike fails next (do joinEnd.link (← nested.create joinEnd.related data))
        (do joinEnd.link (← nested'.create joinEnd.related data)) :=
    .bind (hnested.create next hrelated (asking.of_part hdata)) fun _ _ hlast htarget =>
      hlink (hnext.trans hlast) htarget
  have hconnect {next : Store} (hnext : u.Leads store next) :
      u.RunsAlike fails next (joinEnd.connect arg.objects) (joinEnd.connect arg.objects) :=
    alike_connect hallows hmodel hfield hend (hnext.knows _ _ hrecord) arg.objects
  have hentry {entry : Record} (hentry : entry ∈ arg.objects) :
      asking.given (.object entry) := asking.within harg (Value.within_objects hentry)
  have hmember (entry : Record) (key : String) :=
    hallows.arguments (Payload.ofArguments_member (.object entry) key operation)
  have hentries (strict : Bool) :
      u.RunsAlike fails store (joinStep.updateEntries nested joinEnd strict arg)
        (joinStep.updateEntries nested' joinEnd strict arg) := by
    refine .forM _ fun entry hentry next _ => .bind_require
      (hallows.arguments (Payload.ofArguments_update entry)) fun payload hpayload =>
        .bind_get fun _ => ?_
    have hpart : asking.given (.object payload.2) := asking.within harg
      ((Payload.within_entries hentry).trans (Payload.within_update hpayload))
    exact .bind (alike_updateMatching hallows hnested hrelated (asking.of_part hpart) _)
      fun hits _ _ _ => alike_mustHit hallows joinEnd.related (by nofun) strict hits
  have hdelete (strict : Bool) :
      u.RunsAlike fails store (joinStep.deleteEntries joinEnd strict arg)
        (joinStep.deleteEntries joinEnd strict arg) :=
    .bind_get fun _ => .forM _ fun filter _ _ _ =>
      .bind (alike_deleteMatching hallows joinEnd.related _) fun hits _ _ _ =>
        alike_mustHit hallows joinEnd.related (by nofun) strict hits
  unfold joinStep
  cases NestedOperation.ofName? operation with
  | none => exact .pure fun _ => trivial
  | some name =>
      cases name with
      | connect => exact .assuming fun hstore => hconnect (.refl hstore)
      | connectOrCreate =>
          refine .forM _ fun entry hmem next hnext => .bind_require (hmember entry _)
            fun filter _ => .bind_get fun hholds => ?_
          split
          · rename_i target hfound
            exact hlink hnext (knows_of_first? hallows.laws hholds hrelated hfound)
          · exact .bind_require (hmember entry _) fun data hdata =>
              hcreate hnext (asking.within (hentry hmem) (Payload.within_member hdata))
      | create => exact .forM _ fun data hmem next hnext => hcreate hnext (hentry hmem)
      | createMany =>
          refine .bind (alike_createMany hnested hrelated harg fun part hpart =>
            asking.of_part hpart) fun created next hnext hcreated => ?_
          exact .forM _ fun target htarget last hlast =>
            hlink (hnext.trans hlast) (hlast.knows _ _ (hcreated target htarget))
      | set =>
          exact .bind_get fun _ => .bind (.forM _ fun id _ _ _ => alike_unlink hallows joinEnd id)
            fun _ next hnext _ => hconnect hnext
      | disconnect =>
          exact .bind_get fun _ => .forM _ fun filter _ _ _ => .bind_get fun _ =>
            .forM _ fun target _ _ _ => alike_unlink hallows joinEnd _
      | update => exact hentries true
      | updateMany => exact hentries false
      | upsert =>
          refine .forM _ fun entry hmem next hnext => .bind_get fun hholds => ?_
          dsimp only
          split
          · rename_i target hfound
            have htarget := knows_of_first? hallows.laws hholds hrelated hfound
            exact .bind_require (hmember entry _) fun data hdata =>
              (hnested.update next hrelated (asking.of_part
                (asking.within (hentry hmem) (Payload.within_member hdata))) htarget).runs.discard
          · exact .bind_require (hmember entry _) fun data hdata =>
              hcreate hnext (asking.within (hentry hmem) (Payload.within_member hdata))
      | delete => exact hdelete true
      | deleteMany => exact hdelete false

end

/-! ## Relations of a model -/

section

variable {asking : Asking schema} {nested nested' : NestedWrites}
variable (hnested : AgreeOn u fails asking nested nested') (hmodel : model ∈ schema.models)
include hnested hmodel

section

variable {operations : Record} (hfield : field ∈ model.relationFields)
variable (hoperations : asking.given (.object operations))
include hfield hoperations

/-- The record that is linked at first stays known through all operations of an owned relation. -/
theorem alike_writeOwned (linkage : Linkage) (record : Record) :
    u.RunsAlike fails store (nested.writeOwned field linkage operations record)
      (nested'.writeOwned field linkage operations record) := by
  refine .bind_get fun hstore => ?_
  rw [hallows.laws.schema_eq hstore]
  refine .bind_require (Schema.failsOnly_relatedModel hmodel hfield) fun related hrelated => ?_
  have hmember : related ∈ schema.models := Schema.mem_of_relatedModel hrelated
  let current := (linkage.scope record).bind fun scope => store.first? related (some scope)
  have hcurrent : ∀ target ∈ current, u.Knows store related target := by
    intro target htarget
    obtain ⟨scope, -, hfound⟩ := Option.bind_eq_some_iff.mp htarget
    exact knows_of_first? hallows.laws hstore hmember hfound
  refine (Alike.foldlM (I := fun _ next => ∀ target ∈ current, u.Knows next related target) _
    (fun change entry hentry next hknown => ?_) OwnedChange.keep store hcurrent).runs
  have harg : asking.given entry.2 := asking.within hoperations (.field hentry .refl)
  exact (alike_ownedStep hallows hnested hmember harg hknown change entry.1).imp
    fun _ _ hleads _ target htarget => hleads.knows _ _ (hknown target htarget)

/-- Dependents and joins are written for a record that is known. -/
theorem alike_writeRelated {record : Record} (hrecord : u.Knows store model record) :
    u.RunsAlike fails store (nested.writeRelated model field operations record)
      (nested'.writeRelated model field operations record) := by
  have harg {entry : String × Value} (hentry : entry ∈ operations) : asking.given entry.2 :=
    asking.within hoperations (.field hentry .refl)
  refine .bind_get fun hstore => ?_
  have hschema := hallows.laws.schema_eq hstore
  rw [hschema]
  split
  · rename_i linkage hlinkage
    refine .bind_get fun _ => ?_
    rw [hschema]
    refine .bind_require (Schema.failsOnly_relatedModel hmodel hfield) fun related hrelated => ?_
    split
    · exact .pure fun _ => trivial
    · rename_i scope hscope
      exact .forM _ fun entry hentry _ _ =>
        alike_dependentStep hallows hnested (Schema.mem_of_relatedModel hrelated) (harg hentry)
          (.scope hmodel hfield hrelated hlinkage hscope)
          (.detached hmodel hfield hrelated hlinkage) entry.1
  · rename_i hlinkage
    have hend := failsOnly_joinEnd hschema hmodel hfield hlinkage record
    refine .bind_get fun _ => .bind_require (hend.imp fun _ => hallows.faults)
      fun joinEnd hjoin => ?_
    exact .forM _ fun entry hentry _ hnext =>
      alike_joinStep hallows hmodel hfield (hschema ▸ joinEnd_spec hjoin) hnested (harg hentry)
        (hnext.knows _ _ hrecord) entry.1

end

/-! ## Creating -/

omit hallows hnested hmodel in
theorem waits_append {deferred : Deferred} (h : asking.Waits model deferred)
    (hfield : field ∈ model.relationFields) {operations : Record}
    (hoperations : asking.given (.object operations)) :
    asking.Waits model (deferred ++ [(field, operations)]) :=
  List.forall_mem_append.mpr ⟨h, List.forall_mem_singleton.mpr ⟨hfield, hoperations⟩⟩

/-- The writes that wait start from a store that knows the record. -/
theorem alike_deferred {deferred : Deferred} (hwaits : asking.Waits model deferred)
    {record : Record} (hrecord : u.Knows store model record) :
    u.RunsAlike fails store
      (deferred.forM fun (field, operations) => nested.writeRelated model field operations record)
      (deferred.forM fun (field, operations) =>
        nested'.writeRelated model field operations record) :=
  .forM deferred fun later hlater _ hleads =>
    alike_writeRelated hallows hnested hmodel (hwaits later hlater).1 (hwaits later hlater).2
      (hleads.knows _ _ hrecord)

section

variable {key : String} {value : Value}
variable (hgiven : (model.relation? key).isSome = true → asking.given value)
include hgiven

/-- A key of a payload writes through an owned relation at once, and leaves other relations
    waiting. -/
theorem alike_draftStep {draft : Draft} (hdraft : asking.Waits model draft.deferred) :
    u.Alike fails store (nested.draftStep model draft key value)
      (nested'.draftStep model draft key value) fun draft _ => asking.Waits model draft.deferred := by
  unfold draftStep
  split
  · exact .pure fun _ => hdraft
  · rename_i field hfield
    split
    · rename_i hrelation
      have hmember : field ∈ model.relationFields :=
        List.mem_filter.mpr ⟨(Model.field?_spec hfield).1, hrelation⟩
      have hoperations := hgiven (by simp [Model.relation?, hfield, hrelation])
      split
      · refine .bind_get fun _ => ?_
        split
        · split
          · refine .bind (alike_writeOwned hallows hnested hmodel hmember hoperations _ _)
              fun change _ _ _ => ?_
            split <;> exact .pure fun _ => hdraft
          · exact .pure fun _ => waits_append hdraft hmember hoperations
        · exact .pure fun _ => waits_append hdraft hmember hoperations
      · exact .pure fun _ => hdraft
    · exact .pure fun _ => hdraft

end

variable {data : Record}
variable (hdata : ∀ entry ∈ data, (model.relation? entry.1).isSome = true → asking.given entry.2)
include hdata

/-- What a payload leaves waiting is given in it. -/
theorem alike_draft :
    u.Alike fails store
      (data.foldlM (fun draft (key, value) => nested.draftStep model draft key value) {})
      (data.foldlM (fun draft (key, value) => nested'.draftStep model draft key value) {})
      fun draft _ => asking.Waits model draft.deferred :=
  .foldlM (I := fun (draft : Draft) _ => asking.Waits model draft.deferred) data
    (fun _ entry hentry _ hdraft =>
      alike_draftStep hallows hnested hmodel (hdata entry hentry) hdraft) {} store
    (List.forall_mem_nil _)

/-- A create stores a record that is laid out, and then writes what waits for it. -/
theorem alike_createStep :
    u.Alike fails store (nested.createStep model data) (nested'.createStep model data)
      fun record next => u.Knows next model record := by
  refine .bind (alike_draft hallows hnested hmodel hdata) fun draft next _ hdraft => ?_
  refine .bind (.of_succeeds (gives_materialize hallows.laws hmodel draft.given) ⟨_, _, rfl⟩)
    fun record next _ hrecord => .bind_get fun hnext => ?_
  have hschema := hallows.laws.schema_eq hnext
  refine .bind_require ((failsOnly_checkUnique hschema model record none).imp
    fun _ => hallows.faults) fun _ hfree => ?_
  obtain ⟨hinserted, hknown⟩ := hallows.laws.insert hnext hmodel hrecord hfree
  have hstored : u.Gives next (modify fun store => store.append model.name record)
      fun _ last => u.Knows last model record := .modify (fun _ => hinserted) fun _ => hknown
  refine .bind (.of_succeeds hstored ⟨_, _, rfl⟩) fun _ last _ hknown => ?_
  exact .bind (alike_deferred hallows hnested hmodel hdraft hknown) fun _ _ hend _ =>
    .pure fun _ => hend.knows _ _ hknown

omit hdata

/-! ## Updating -/

/-- A key of a payload revises a plain field, or the key columns of an owned relation, and leaves
    other relations waiting. -/
theorem alike_revisionStep {key : String} {value : Value}
    (hgiven : (model.relation? key).isSome = true → asking.given value) {revision : Revision}
    (hrevision : revision.Suits u asking model) :
    u.Alike fails store (nested.revisionStep model revision key value)
      (nested'.revisionStep model revision key value)
      fun revision _ => revision.Suits u asking model := by
  have hlaws := hallows.laws
  obtain ⟨hfit, hwaits, horphans⟩ := hrevision
  unfold revisionStep
  split
  · exact .pure fun _ => ⟨hfit, hwaits, horphans⟩
  · rename_i field hfield
    split
    · rename_i hrelation
      have hmember : field ∈ model.relationFields :=
        List.mem_filter.mpr ⟨(Model.field?_spec hfield).1, hrelation⟩
      have hoperations := hgiven (by simp [Model.relation?, hfield, hrelation])
      split
      · refine .bind_get fun _ => ?_
        split
        · rename_i linkage hlinkage
          split
          · rename_i howned
            have hcolumns : linkage.localColumns = field.fromFields := by
              rw [Schema.linkage_of_owned hlinkage howned]
            have hunbound := admits_unbind hlaws hmodel hfit hmember (List.Subset.refl _)
            rw [← hcolumns] at hunbound
            refine .bind (alike_writeOwned hallows hnested hmodel hmember hoperations _ _)
              fun change _ _ _ => ?_
            split
            · exact .pure fun _ => ⟨hfit, hwaits, horphans⟩
            · exact .pure fun _ =>
                ⟨admits_bind hlaws hmodel hfit hmember hcolumns _, hwaits, horphans⟩
            · exact .pure fun _ => ⟨hunbound, hwaits, horphans⟩
            · exact .pure fun _ => ⟨hunbound, hwaits, List.forall_mem_append.mpr
                ⟨horphans, List.forall_mem_singleton.mpr hmember⟩⟩
          · exact .pure fun _ => ⟨hfit, waits_append hwaits hmember hoperations, horphans⟩
        · exact .pure fun _ => ⟨hfit, waits_append hwaits hmember hoperations, horphans⟩
      · exact .pure fun _ => ⟨hfit, hwaits, horphans⟩
    · rename_i hrelation
      obtain ⟨hmember, rfl⟩ := Model.field?_spec hfield
      refine .bind_require (hallows.arguments (field.failsOnly_updated _ _)) fun updated _ =>
        .pure fun _ => ⟨?_, hwaits, horphans⟩
      exact hlaws.filled updated hfit (List.mem_filter.mpr ⟨hmember, by simp [hrelation]⟩)

omit hnested in
/-- A fit record is known once it has replaced a known one, or is the same. -/
theorem alike_replaceStored {current record : Record} (hcurrent : u.Knows store model current)
    (hrecord : u.Admits model record) :
    u.Alike fails store (replaceStored model current record) (replaceStored model current record)
      fun _ next => u.Knows next model record := by
  unfold replaceStored
  split
  · rename_i hsame
    exact .pure fun hstore => hallows.laws.same hstore hmodel hcurrent hrecord hsame
  · refine .bind_get fun hstore => .bind_require ((failsOnly_checkUnique
      (hallows.laws.schema_eq hstore) model record _).imp fun _ => hallows.faults) fun _ hfree => ?_
    refine .bind_get fun _ => ?_
    split
    · rename_i changed hswap
      have hreplaced := hallows.laws.replace hstore hmodel hrecord hfree hswap
      exact .of_succeeds (.set (fun _ => hreplaced.1) fun _ => hreplaced.2) ⟨_, _, rfl⟩
    · exact .throw (hallows.faults (.missing _ (by nofun)))

/-- An update replaces a record by its revision, deletes what the payload says, and then writes
    what waits for it. -/
theorem alike_updateStep
    (hdata : ∀ entry ∈ data, (model.relation? entry.1).isSome = true → asking.given entry.2)
    {current : Record} (hcurrent : u.Knows store model current) :
    u.Alike fails store (nested.updateStep model current data)
      (nested'.updateStep model current data) fun record next => u.Knows next model record := by
  have hlaws := hallows.laws
  refine .assuming fun hstore => .bind (Alike.foldlM
    (I := fun (revision : Revision) _ => revision.Suits u asking model) data
    (fun revision entry hentry store hrevision =>
      alike_revisionStep hallows hnested hmodel (hdata entry hentry) hrevision) { next := current }
    store ⟨hlaws.fit hstore hcurrent, List.forall_mem_nil _, List.forall_mem_nil _⟩)
    fun revision next hleads hrevision => ?_
  obtain ⟨hfit, hwaits, horphans⟩ := hrevision
  refine .bind (.of_succeeds (gives_refreshFields hlaws hfit data) ⟨_, _, rfl⟩)
    fun record _ hrefreshed hrecord => ?_
  have hknown := (hleads.trans hrefreshed).knows _ _ hcurrent
  refine .bind (alike_replaceStored hallows hmodel hknown hrecord) fun _ next _ hreplaced => ?_
  refine .bind (.forM _ fun orphan horphan _ _ => .bind_get fun hnext => ?_)
    fun _ last hlast _ => ?_
  · rw [hlaws.schema_eq hnext]
    refine .bind_require (Schema.failsOnly_relatedModel hmodel (horphans orphan horphan))
      fun related _ => alike_deleteRecord hallows related orphan.2
  · have hrecord := hlast.knows _ _ hreplaced
    exact .bind (alike_deferred hallows hnested hmodel hwaits hrecord) fun _ _ hend _ =>
      .pure fun _ => hend.knows _ _ hrecord

end

/-! ## Payloads of any depth -/

section

variable (hcut : fails .nestingExceeded)
include hcut

/-- Creates and updates of any depth keep up what is lawful; they may be cut off. -/
theorem agreeOn_within (depth : Nat) :
    AgreeOn u fails (Asking.all schema) (within depth) (within depth) := by
  -- each level is made of the nested writes of the level below it
  induction depth with
  | zero => exact ⟨fun _ _ _ => .throw hcut, fun _ _ _ _ => .throw hcut⟩
  | succ depth ih =>
      exact ⟨fun _ hmodel _ => alike_createStep hallows ih hmodel fun _ _ _ => trivial,
        fun _ hmodel _ hcurrent =>
          alike_updateStep hallows ih hmodel (fun _ _ _ => trivial) hcurrent⟩

variable (hmodel : model ∈ schema.models)
include hmodel

/-- The record that a payload creates is known. -/
theorem alike_createRecord (data : Record) :
    u.Alike fails store (createRecord model data) (createRecord model data)
      fun record next => u.Knows next model record :=
  (agreeOn_within hallows hcut _).create store hmodel trivial

/-- So is the record that it updates. -/
theorem alike_updateRecord {current : Record} (hcurrent : u.Knows store model current)
    (data : Record) :
    u.Alike fails store (updateRecord model current data) (updateRecord model current data)
      fun record next => u.Knows next model record :=
  (agreeOn_within hallows hcut _).update store hmodel trivial hcurrent

/-- All records that a filter selects may be updated by it. -/
theorem alike_updateSelected (filter : Option Record) (data : Record) :
    u.RunsAlike fails store (updateMatching model filter data)
      (updateMatching model filter data) :=
  alike_updateMatchingWith hallows hmodel (fun _ store hcurrent =>
    ((agreeOn_within hallows hcut _).update store hmodel trivial hcurrent).runs) filter

end

end Upkeep

end RecordStore
