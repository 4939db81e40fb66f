import RecordStore.Proofs.Counters
import RecordStore.Proofs.Relation.Dependents
import RecordStore.Proofs.Relation.NestedUpdates
import RecordStore.Proofs.Write.Skipping

/-!
# Creates of linked records

A create through a relation is to link the records that it creates.  Where the link is kept in
columns of the dependents, what refers to the record is merged into each payload before the payload
is gathered; a column that the payload names itself keeps its place there, so that a relation which
comes later, and which has the column for its key, can write it again.  Where a join keeps the link,
a record is linked by its id once it has been created, all its own nested writes included.
-/

namespace RecordStore

/-! ## What no write changes -/

namespace Upkeep

open Store

/-- What no write changes: the schema, and all of the joins but their links. -/
def frame (origin : Store) : Upkeep where
  Holds store := store.schema = origin.schema ∧ store.joins.reset = origin.joins.reset
  Knows _ _ _ := True
  Admits _ _ := True

theorem lawful_frame (origin : Store) : (frame origin).Lawful origin.schema := by
  have hleads {store next : Store} (hstore : (frame origin).Holds store)
      (hschema : next.schema = store.schema) (hjoins : next.joins.reset = store.joins.reset) :
      (frame origin).Leads store next :=
    ⟨⟨hschema.trans hstore.1, hjoins.trans hstore.2⟩, fun _ _ _ => trivial⟩
  constructor
  case schema_eq => exact fun hstore => hstore.1
  case supply => exact fun _ _ hstore _ => hleads hstore rfl rfl
  case insert => exact fun hstore _ _ _ => ⟨hleads hstore rfl rfl, trivial⟩
  case replace =>
    intro store changed model current next hstore _ _ _ hswap
    obtain ⟨replaced, -, rfl⟩ := Option.map_eq_some_iff.mp hswap
    exact ⟨hleads hstore rfl rfl, trivial⟩
  case remove => exact fun hstore _ => hleads hstore rfl rfl
  case detach =>
    intro store model field scope hstore _ _
    unfold Store.detach
    split
    · exact hleads hstore rfl rfl
    · exact .refl hstore
  case link => exact fun hstore _ _ _ _ _ _ => hleads hstore rfl (Joins.reset_connect ..)
  case unlink => exact fun _ _ _ _ hstore => hleads hstore rfl (Joins.reset_disconnect ..)
  case cleanup => exact fun _ _ hstore => hleads hstore rfl (Joins.reset_cleanup ..)
  all_goals intros; trivial

end Upkeep

/-! ## Columns of a draft -/

/-- A key of a payload can write a column: it names a relation that has the column for a key of its
    own. -/
def Schema.Rebinds (schema : Schema) (model : Model) (key column : String) : Prop :=
  ∃ field linkage, model.field? key = some field ∧ field.isRelation = true ∧
    schema.linkage? model field = some linkage ∧ linkage.owned = true ∧
      column ∈ linkage.localColumns

/-- A payload respects a scope: its keys are different, and after a column of the scope that it
    names itself comes no relation that can write the column again. -/
def Schema.Respects (schema : Schema) (model : Model) (scope data : Record) : Prop :=
  (Entries.keys data).Pairwise fun key later =>
    key ≠ later ∧ (key ∈ Entries.keys scope → ¬ schema.Rebinds model later key)

namespace Schema

variable {schema : Schema} {model : Model} {scope data : Record} {column : String}

/-- A plain column writes no other one. -/
theorem not_rebinds_of_isPlain {key : String} (h : model.IsPlain key) :
    ¬ schema.Rebinds model key column := by
  rintro ⟨field, linkage, hfield, hrelation, -⟩
  obtain ⟨-, other, hother, hplain, -⟩ := h
  obtain rfl := Option.some.inj (hfield.symm.trans hother)
  rw [hrelation] at hplain
  cases hplain

/-- A payload that names no column of a scope respects it. -/
theorem respects_of_disjoint (hkeys : (Entries.keys data).Nodup)
    (hapart : ∀ key ∈ Entries.keys data, key ∉ Entries.keys scope) :
    schema.Respects model scope data :=
  hkeys.imp_of_mem fun hkey _ hne => ⟨hne, fun hcolumn => absurd hcolumn (hapart _ hkey)⟩

/-- With a scope of plain columns merged into it, a payload that respects the scope comes to the
    value of each column in the end: nothing that comes after writes the column. -/
theorem Respects.split_insertAll (h : schema.Respects model scope data)
    (hplain : Filter.Plain model scope) (hscope : (Entries.keys scope).Nodup) :
    ∀ entry ∈ scope, ∃ before later, Entries.insertAll data scope = before ++ entry :: later ∧
      ∀ key ∈ Entries.keys later, key ≠ entry.1 ∧ ¬ schema.Rebinds model key entry.1 := by
  intro entry hentry
  have hnew : ∀ name ∈ Entries.keys scope, ∀ other, other ≠ name →
      other ≠ name ∧ (other ∈ Entries.keys scope → ¬ schema.Rebinds model name other) := by
    intro name hname other hne
    obtain ⟨found, hfound, rfl⟩ := List.mem_map.mp hname
    exact ⟨hne, fun _ => not_rebinds_of_isPlain (hplain found hfound).1⟩
  have hmerged := Entries.pairwise_keys_insertAll hnew h
  have hvalue : Entries.get? entry.1 (Entries.insertAll data scope) = some entry.2 :=
    Entries.get?_insertAll_of_forall (List.mem_map_of_mem hentry) (fun other hother heq => by
      rw [List.inj_on_of_nodup_map hscope hother hentry heq]) data
  obtain ⟨before, later, hsplit⟩ := List.append_of_mem (Entries.mem_of_get?_eq_some hvalue)
  refine ⟨before, later, hsplit, fun key hkey => ?_⟩
  have hkeys : Entries.keys (before ++ entry :: later) =
      Entries.keys before ++ entry.1 :: Entries.keys later := List.map_append
  rw [hsplit, hkeys] at hmerged
  obtain ⟨hne, hrebinds⟩ :=
    (List.pairwise_cons.mp (List.pairwise_append.mp hmerged).2.1).1 key hkey
  exact ⟨hne.symm, hrebinds (List.mem_map_of_mem hentry)⟩

end Schema

namespace Store

variable {model : Model} {name : String} {value : Value}

/-- A field for which a value is given gets it, if no other field has its name. -/
theorem valueAt_layFields (hnull : value.isNull = false) {fields : List Field} :
    ∀ {given : Record} (record : Record) (store : Store), (fields.map (·.name)).Nodup →
      name ∈ fields.map (·.name) → Entries.get? name given = some value →
        Record.valueAt name (layFields model fields given record store).1 = value := by
  induction fields with
  | nil => exact fun _ _ _ hmem => nomatch hmem
  | cons field rest ih =>
      intro given record store hdistinct hmem hgiven
      obtain ⟨hfresh, hrest⟩ := List.nodup_cons.mp hdistinct
      show Record.valueAt name (layFields model rest (Entries.erase field.name given)
        (Entries.insert field.name
          (layField model field (Record.valueAt field.name given) store).1 record) _).1 = value
      by_cases hname : field.name = name
      · subst hname
        have hvalue : Record.valueAt field.name given = value := by
          rw [Record.valueAt, hgiven, Option.getD_some]
        rw [valueAt_layFields_of_ne fun other hother heq =>
            hfresh (List.mem_map.mpr ⟨other, hother, heq⟩),
          Record.valueAt, Entries.get?_insert_self, Option.getD_some, hvalue, layField, hnull]
        rfl
      · refine ih _ _ hrest ((List.mem_cons.mp hmem).resolve_left (Ne.symm hname)) ?_
        rw [Entries.get?_erase, if_neg (Ne.symm hname)]
        exact hgiven

end Store

namespace NestedWrites

open Store Write Upkeep

variable {nested : NestedWrites} {origin tried last gathered stored : Store} {model : Model}
variable {draft next : Draft} {key column : String} {value : Value} {scope data record : Record}

/-- A key that is another one, and no relation that can write a column, leaves the column as it has
    been given. -/
theorem get?_draftStep (hne : key ≠ column) (hbinds : ¬ tried.schema.Rebinds model key column)
    (hrun : (nested.draftStep model draft key value).outcome tried = (.ok next, last)) :
    Entries.get? column next.given = Entries.get? column draft.given := by
  have hpure {found : Draft} {store : Store}
      (hdone : (pure found : Write Draft).outcome store = (.ok next, last))
      (hgiven : Entries.get? column found.given = Entries.get? column draft.given) :
      Entries.get? column next.given = Entries.get? column draft.given := by
    obtain rfl := Except.ok.inj (Prod.mk.inj hdone).1
    exact hgiven
  unfold draftStep at hrun
  cases hfield : model.field? key with
  | none =>
      rw [hfield] at hrun
      exact hpure hrun rfl
  | some field =>
      rw [hfield] at hrun
      dsimp only at hrun
      by_cases hrelation : field.isRelation = true
      · rw [if_pos hrelation] at hrun
        split at hrun
        · rw [outcome_bind_get] at hrun
          cases hlinkage : tried.schema.linkage? model field with
          | none =>
              rw [hlinkage] at hrun
              exact hpure hrun rfl
          | some linkage =>
              rw [hlinkage] at hrun
              dsimp only at hrun
              by_cases howned : linkage.owned = true
              · rw [if_pos howned] at hrun
                have hcolumn : column ∉ linkage.localColumns := fun hcolumn =>
                  hbinds ⟨field, linkage, hfield, hrelation, hlinkage, howned, hcolumn⟩
                obtain ⟨change, mid, -, hrun⟩ := outcome_bind_ok hrun
                split at hrun
                · exact hpure hrun rfl
                · exact hpure hrun (Linkage.get?_bind_of_notMem hcolumn _ _)
                · refine hpure hrun ?_
                  show Entries.get? column (Record.unbind linkage.localColumns draft.given) = _
                  rw [Record.get?_unbind, if_neg hcolumn]
              · rw [if_neg howned] at hrun
                exact hpure hrun rfl
        · exact hpure hrun rfl
      · rw [if_neg hrelation] at hrun
        refine hpure hrun (Entries.get?_insert_of_ne (Ne.symm hne) _ _)

/-- So do several such keys, one after the other. -/
theorem get?_draftSteps (hnested : nested.Keeps (frame origin) origin.schema)
    (hmodel : model ∈ origin.schema.models) {entries : Record} :
    ∀ {draft : Draft} {tried : Store}, (frame origin).Holds tried → draft.deferred.Through model →
      (∀ key ∈ Entries.keys entries, key ≠ column ∧ ¬ origin.schema.Rebinds model key column) →
      (entries.foldlM (fun draft (key, value) => nested.draftStep model draft key value)
        draft).outcome tried = (.ok next, last) →
      Entries.get? column next.given = Entries.get? column draft.given := by
  induction entries with
  | nil =>
      intro draft tried _ _ _ hrun
      obtain rfl := Except.ok.inj (Prod.mk.inj hrun).1
      rfl
  | cons entry rest ih =>
      intro draft tried htried hthrough hentries hrun
      obtain ⟨⟨hne, hbinds⟩, hrest⟩ := List.forall_mem_cons.mp hentries
      obtain ⟨first, mid, hfirst, hrun⟩ := outcome_bind_ok hrun
      obtain ⟨hleads, hthrough'⟩ :=
        (gives_draftStep (lawful_frame origin) hnested hmodel hthrough entry.1 entry.2 htried).ok
          rfl hfirst
      rw [ih hleads.holds hthrough' hrest hrun, get?_draftStep hne (htried.1 ▸ hbinds) hfirst]

/-- A single value is given as it is. -/
theorem created_of_isScalar (field : Field) (h : value.isScalar = true) :
    field.created value = value := by
  cases value with
  | object _ => cases h
  | _ => rfl

/-- What is made of a payload that comes to the value of a plain column in the end holds the value. -/
theorem Stores.valueAt_eq (hstores : nested.Stores model data tried gathered record stored)
    (hnested : nested.Keeps (frame origin) origin.schema) (hmodel : model ∈ origin.schema.models)
    (htried : (frame origin).Holds tried)
    (hdistinct : (model.fields.map (·.name)).Nodup) {entry : String × Value}
    (hplain : model.IsPlain entry.1) (hscalar : entry.2.isScalar = true)
    (hnull : entry.2.isNull = false) {before later : Record}
    (hsplit : data = before ++ entry :: later)
    (hlater : ∀ key ∈ Entries.keys later,
      key ≠ entry.1 ∧ ¬ origin.schema.Rebinds model key entry.1) :
    Record.valueAt entry.1 record = entry.2 := by
  obtain ⟨draft, hgather, hcomplete⟩ := hstores
  obtain ⟨rfl, -, -⟩ := complete_ok hcomplete
  obtain ⟨-, field, hfield, hrelation, -⟩ := hplain
  have hlaws := lawful_frame origin
  rw [gather, hsplit, List.foldlM_append] at hgather
  obtain ⟨earlier, mid, hbefore, hgather⟩ := outcome_bind_ok hgather
  obtain ⟨hmid, hthrough⟩ := (gives_draft hlaws hnested hmodel before htried).ok rfl hbefore
  obtain ⟨written, mid', hwritten, hgather⟩ := outcome_bind_ok hgather
  obtain ⟨hmid', hthrough'⟩ :=
    (gives_draftStep hlaws hnested hmodel hthrough entry.1 entry.2 hmid.holds).ok rfl hwritten
  -- the column is written as it is given, and not again
  have hstep : (nested.draftStep model earlier entry.1 entry.2).outcome mid =
      (.ok { earlier with given := Entries.insert entry.1 entry.2 earlier.given }, mid) := by
    simp only [draftStep, hfield, hrelation, Bool.false_eq_true, if_false,
      created_of_isScalar field hscalar, outcome_pure]
  obtain rfl := Except.ok.inj (Prod.mk.inj (hstep.symm.trans hwritten)).1
  have hgiven : Entries.get? entry.1 draft.given = some entry.2 := by
    rw [get?_draftSteps hnested hmodel hmid'.holds hthrough' hlater hgather]
    exact Entries.get?_insert_self _ _ _
  obtain ⟨hmember, hname⟩ := Model.field?_spec hfield
  refine valueAt_layFields hnull [] gathered ((List.filter_sublist.map _).nodup hdistinct) ?_ hgiven
  rw [← hname]
  refine List.mem_map_of_mem (List.mem_filter.mpr ⟨hmember, ?_⟩)
  rw [hrelation]
  rfl

end NestedWrites

/-! ## Going through payloads -/

namespace Write

variable {counts counts' : Store → Record → Record → Store → Prop}
variable {skips skips' : Store → Record → Store → Prop}
variable {store last : Store} {payloads created : List Record}

/-- A loop over payloads goes through them, and skips none. -/
theorem tries_forM {f : Record → Write Unit}
    (hcounts : ∀ data tried next, (f data).outcome tried = (.ok (), next) →
      ∃ record, counts tried data record next)
    (h : (payloads.forM f).outcome store = (.ok (), last)) :
    ∃ created, Tries counts skips store payloads created last := by
  induction payloads generalizing store with
  | nil =>
      obtain rfl : store = last := congrArg Prod.snd h
      exact ⟨[], .done store⟩
  | cons data rest ih =>
      obtain ⟨_, next, hfirst, hrest⟩ := outcome_bind_ok h
      obtain ⟨record, hrecord⟩ := hcounts data store next hfirst
      obtain ⟨created, htries⟩ := ih hrest
      exact ⟨record :: created, .count hrecord htries⟩

/-- What is known of each payload may be made more precise by an invariant of the stores. -/
theorem Tries.strengthen (inv : Store → Prop)
    (h : Tries counts skips store payloads created last) (hstore : inv store)
    (hcounts : ∀ data ∈ payloads, ∀ tried record next, inv tried → counts tried data record next →
      inv next ∧ counts' tried data record next)
    (hskips : ∀ data ∈ payloads, ∀ tried next, inv tried → skips tried data next →
      inv next ∧ skips' tried data next) :
    inv last ∧ Tries counts' skips' store payloads created last := by
  induction h with
  | done store => exact ⟨hstore, .done store⟩
  | count hfirst _ ih =>
      obtain ⟨hdata, hrest⟩ := List.forall_mem_cons.mp hcounts
      obtain ⟨hnext, hcount⟩ := hdata _ _ _ hstore hfirst
      obtain ⟨hlast, htries⟩ := ih hnext hrest (List.forall_mem_cons.mp hskips).2
      exact ⟨hlast, .count hcount htries⟩
  | skip hfirst _ ih =>
      obtain ⟨hdata, hrest⟩ := List.forall_mem_cons.mp hskips
      obtain ⟨hnext, hskip⟩ := hdata _ _ hstore hfirst
      obtain ⟨hlast, htries⟩ := ih hnext (List.forall_mem_cons.mp hcounts).2 hrest
      exact ⟨hlast, .skip hskip htries⟩

end Write

namespace NestedWrites

open Store Write Upkeep

/-- The payloads of a create through a relation. -/
def payloadsOf (operation : String) (arg : Value) : List Record :=
  if operation = "create" then arg.objects else ((arg.get? "data").getD .null).objects

/-- A create has collided with a stored record, and collisions are to be skipped. -/
def Collides (nested : NestedWrites) (model : Model) (arg : Value) (tried : Store) (data : Record)
    (next : Store) : Prop :=
  ((arg.get? "skipDuplicates").bind Value.bool?).getD false = true ∧ ∃ name fields,
    (nested.createStep model data).outcome tried = (.error (.uniqueConstraint name fields), next)

variable {nested : NestedWrites} {origin store tried next last : Store} {model : Model}
variable {data scope record : Record} {created : List Record} {arg : Value} {depth : Nat}

/-- Whether a create succeeds or collides, it keeps the frame. -/
theorem Counts.holds (h : nested.Counts model tried data record next)
    (hnested : nested.Keeps (frame origin) origin.schema) (hmodel : model ∈ origin.schema.models)
    (htried : (frame origin).Holds tried) : (frame origin).Holds next :=
  ((gives_createStep (lawful_frame origin) hnested hmodel data htried).ok rfl h.created).1.holds

theorem Collides.holds (h : nested.Collides model arg tried data next)
    (hnested : nested.Keeps (frame origin) origin.schema) (hmodel : model ∈ origin.schema.models)
    (htried : (frame origin).Holds tried) : (frame origin).Holds next := by
  obtain ⟨-, name, fields, hrun⟩ := h
  exact ((gives_createStep (lawful_frame origin) hnested hmodel data htried).error rfl hrun).holds

/-- A nested create of many records goes through its payloads, with what refers to the record merged
    into each of them. -/
theorem tries_createMany
    (hrun : ((within (depth + 1)).createMany model arg scope).outcome store = (.ok created, last)) :
    Tries
      (fun tried data => (within depth).Counts model tried (Entries.insertAll data scope))
      (fun tried data => (within depth).Collides model arg tried (Entries.insertAll data scope))
      store (payloadsOf "createMany" arg) created last :=
  tries_createEach (fun _ _ _ _ => counts_of_outcome)
    (fun hskip _ _ name fields _ hcollides => ⟨hskip, name, fields, hcollides⟩) hrun

end NestedWrites

/-! ## Links in the columns of dependents -/

/-- A record as one end of a relation that is kept in columns of its dependents.  These are plain
    ones, in which what refers to the record can be read, and no two fields of the dependents have
    one name. -/
structure Store.KeyedScope (store : Store) (model : Model) (field : Field) (related : Model)
    (item scope : Record) : Prop where
  related_eq : store.schema.relatedModel field = .ok related
  keyed : ∃ linkage, store.schema.linkage? model field = some linkage ∧ linkage.owned = false ∧
    linkage.scope item = some scope
  plain : Filter.Plain related scope
  legible : ∀ entry ∈ scope, Value.equals (related.readingOf entry.1) entry.2 entry.2 = true
  distinct : (related.fields.map (·.name)).Nodup

/-- A create has stored a record that was linked to an item as soon as it was stored, and that still
    is, whatever else the create has written, if it is still there. -/
structure NestedWrites.LinksStored (nested : NestedWrites) (model : Model) (field : Field)
    (related : Model) (item : Record) (tried : Store) (data record : Record) (next : Store) :
    Prop where
  created : (nested.createStep related data).outcome tried = (.ok record, next)
  stored : ∃ gathered stored, nested.Stores related data tried gathered record stored ∧
    record ∈ stored.related model field item
  kept : record ∈ next.related model field item ↔ record ∈ next.items related.name

namespace Store

open NestedWrites Write Upkeep

variable {store tried next last : Store} {model related : Model} {field : Field}
variable {item scope data record other : Record} {operation : String} {arg : Value} {depth : Nat}

namespace KeyedScope

/-- In a store of the same schema a record is linked if it fits the scope. -/
theorem mem_related (h : store.KeyedScope model field related item scope)
    (hschema : next.schema = store.schema) :
    other ∈ next.related model field item ↔
      other ∈ next.items related.name ∧ Filter.fits related scope other = true := by
  obtain ⟨linkage, hlinkage, -, hscope⟩ := h.keyed
  exact mem_related_of_plain (hschema ▸ h.related_eq) (hschema ▸ hlinkage) hscope h.plain

theorem nodup_keys (h : store.KeyedScope model field related item scope) :
    (Entries.keys scope).Nodup := by
  obtain ⟨linkage, -, -, hscope⟩ := h.keyed
  exact Linkage.nodup_keys_scope hscope

/-- What is made of a payload that respects the scope fits it once it is merged into the payload. -/
theorem fits_of_stores (h : store.KeyedScope model field related item scope)
    {nested : NestedWrites} {gathered stored : Store}
    (hnested : nested.Keeps (frame store) store.schema) (htried : (frame store).Holds tried)
    (hdata : store.schema.Respects related scope data)
    (hstores : nested.Stores related (Entries.insertAll data scope) tried gathered record stored) :
    Filter.fits related scope record = true := by
  refine Filter.fits_of_legible (fun entry hentry => (h.plain entry hentry).2) h.legible
    fun entry hentry => ?_
  obtain ⟨hplain, hscalar, hnull⟩ := h.plain entry hentry
  obtain ⟨before, later, hsplit, hlater⟩ := hdata.split_insertAll h.plain h.nodup_keys entry hentry
  exact hstores.valueAt_eq hnested (Schema.mem_of_relatedModel h.related_eq) htried h.distinct
    hplain hscalar hnull hsplit hlater

/-- A create from a payload that respects the scope links what it stores. -/
theorem linksStored (h : store.KeyedScope model field related item scope) {nested : NestedWrites}
    (hnested : nested.Keeps (frame store) store.schema) (htried : (frame store).Holds tried)
    (hdata : store.schema.Respects related scope data)
    (hcounts : nested.Counts related tried (Entries.insertAll data scope) record next) :
    (frame store).Holds next ∧
      nested.LinksStored model field related item tried (Entries.insertAll data scope) record next := by
  have hmodel := Schema.mem_of_relatedModel h.related_eq
  have hnext := hcounts.holds hnested hmodel htried
  obtain ⟨gathered, stored, hstores, hitems⟩ := hcounts.added
  have hfits := h.fits_of_stores hnested htried hdata hstores
  obtain ⟨draft, hgather, hcomplete⟩ := hstores
  obtain ⟨hgathered, -⟩ := (gives_draft (lawful_frame store) hnested hmodel _ htried).ok rfl hgather
  obtain ⟨-, -, hlast⟩ := complete_ok hcomplete
  obtain ⟨counters, entropy, hsupplied⟩ := supplied_materialize related draft.given gathered
  have hschema : stored.schema = store.schema := by
    rw [hlast, hsupplied]
    exact hgathered.holds.1
  refine ⟨hnext, hcounts.created, ⟨gathered, stored, ⟨draft, hgather, hcomplete⟩, ?_⟩, ?_⟩
  · rw [h.mem_related hschema, hitems]
    exact ⟨List.mem_append_right _ (List.mem_singleton_self record), hfits⟩
  · rw [h.mem_related hnext.1]
    exact and_iff_left hfits

/-- A nested create through such a relation links each record that it creates. -/
theorem links (h : store.KeyedScope model field related item scope)
    (hoperation : operation ∈ ["create", "createMany"])
    (hdata : ∀ data ∈ payloadsOf operation arg, store.schema.Respects related scope data)
    (hrun : ((within (depth + 1)).writeRelated model field [(operation, arg)] item).outcome store =
      (.ok (), last)) :
    ∃ created, Tries
      (fun tried data => (within depth).LinksStored model field related item tried
        (Entries.insertAll data scope))
      (fun tried data => (within depth).Collides related arg tried (Entries.insertAll data scope))
      store (payloadsOf operation arg) created last := by
  have hnested := keeps_within (lawful_frame store) depth
  have hmodel := Schema.mem_of_relatedModel h.related_eq
  obtain ⟨linkage, hlinkage, -, hscope⟩ := h.keyed
  rw [outcome_writeRelated_columns hlinkage h.related_eq hscope] at hrun
  obtain ⟨created, htries⟩ : ∃ created, Tries
      (fun tried data => (within depth).Counts related tried (Entries.insertAll data scope))
      (fun tried data => (within depth).Collides related arg tried (Entries.insertAll data scope))
      store (payloadsOf operation arg) created last := by
    rcases List.mem_pair.mp hoperation with rfl | rfl
    · refine tries_forM (fun data tried next hcreate => ?_) hrun
      obtain ⟨record, hcreate⟩ := outcome_discard_ok hcreate
      exact ⟨record, counts_of_outcome hcreate⟩
    · obtain ⟨created, hcreate⟩ := outcome_discard_ok hrun
      exact ⟨created, tries_createMany hcreate⟩
  refine ⟨created, (htries.strengthen (frame store).Holds ⟨rfl, rfl⟩
    (fun data hmem tried record next htried hcounts => ?_)
    fun data _ tried next htried hcollides => ?_).2⟩
  · exact h.linksStored hnested htried (hdata data hmem) hcounts
  · exact ⟨hcollides.holds hnested hmodel htried, hcollides⟩

end KeyedScope

end Store

/-! ## Links in a join -/

namespace Joins

variable {joins others : Joins} {name : String} {join : Join}

/-- Joins that are the same but for their links have the same sides. -/
theorem get?_of_reset_eq (h : joins.reset = others.reset) (hjoin : others.get? name = some join) :
    ∃ changed, joins.get? name = some changed ∧ changed.name = join.name ∧
      changed.sides = join.sides := by
  have hreset (joins : Joins) :
      joins.reset.get? name = (joins.get? name).map fun join => { join with links := [] } :=
    List.find?_map
  have hsame := hreset joins
  rw [h, hreset others, hjoin] at hsame
  obtain ⟨changed, hchanged, heq⟩ := Option.map_eq_some_iff.mp hsame.symm
  obtain ⟨hname, ha, hb, -⟩ := Join.mk.inj heq
  exact ⟨changed, hchanged, hname, by rw [Join.sides, ha, hb, Join.sides]⟩

end Joins

/-- A record as one end of a relation that a join keeps: a field of its model is a side of the join,
    and its id is a text or a 64-bit integer. -/
structure Store.JoinSide (store : Store) (model : Model) (field : Field) (related : Model)
    (item : Record) (join : Join) : Prop where
  related_eq : store.schema.relatedModel field = .ok related
  linkage_eq : store.schema.linkage? model field = none
  relation_eq : field.relationName = some join.name
  join_eq : store.joins.get? join.name = some join
  side : (⟨field.name, model.name⟩ : Side) ∈ join.sides
  atom : (model.recordId item).isAtom = true

/-- The ids that a join holds are texts and 64-bit integers. -/
def Store.AtomicJoin (store : Store) (relation : String) : Prop :=
  ∀ join, store.joins.get? relation = some join → ∀ link ∈ join.links, link.IsAtomic

/-- Links that are in view can be looked through. -/
theorem Store.atomicJoin_of_all {store : Store} {relation : String}
    (h : ((store.joins.get? relation).all fun join =>
      join.links.all fun link => link.a.isAtom && link.b.isAtom) = true) :
    store.AtomicJoin relation := by
  intro join hjoin link hlink
  rw [hjoin, Option.all_some] at h
  exact Bool.and_eq_true_iff.mp (List.all_eq_true.mp h link hlink)

/-- A create has come to a record, and then an item has been linked to it: it is linked if it is
    still there, as long as ids are texts and 64-bit integers. -/
def NestedWrites.LinksCreated (nested : NestedWrites) (model : Model) (field : Field)
    (related : Model) (item : Record) (relation : String) (tried : Store) (data record : Record)
    (next : Store) : Prop :=
  ∃ made, nested.Counts related tried data record made ∧
    (∀ name, next.items name = made.items name) ∧
    (made.AtomicJoin relation → (related.recordId record).isAtom = true →
      (record ∈ next.related model field item ↔ record ∈ next.items related.name))

namespace Store

open NestedWrites Write Upkeep

variable {store made next last : Store} {model related : Model} {field : Field} {join : Join}
variable {item record : Record} {records : List Record} {joinEnd : JoinEnd} {depth : Nat}
variable {arg : Value}

/-- Links are no records. -/
theorem items_link_each (hrun : (records.forM joinEnd.link).outcome made = (.ok (), last))
    (name : String) : last.items name = made.items name := by
  induction records generalizing made with
  | nil => rw [show made = last from congrArg Prod.snd hrun]
  | cons record rest ih =>
      obtain ⟨_, mid, hfirst, hrest⟩ := outcome_bind_ok hrun
      obtain rfl := congrArg Prod.snd hfirst
      have hkept := ih hrest
      exact hkept

namespace JoinSide

/-- The end of the join stays what it is, whatever is written. -/
theorem of_frame (h : store.JoinSide model field related item join)
    (hnext : (frame store).Holds next) :
    ∃ changed, next.JoinSide model field related item changed ∧ changed.name = join.name := by
  obtain ⟨changed, hchanged, hname, hsides⟩ := Joins.get?_of_reset_eq hnext.2 h.join_eq
  exact ⟨changed, ⟨hnext.1 ▸ h.related_eq, hnext.1 ▸ h.linkage_eq, hname ▸ h.relation_eq,
    hname ▸ hchanged, hsides ▸ h.side, h.atom⟩, hname⟩

/-- Linking records makes the item see them. -/
theorem link_each (hend : joinEnd.Of store.schema model field item) :
    ∀ {made : Store} {join : Join}, made.JoinSide model field related item join →
      made.schema = store.schema → (∀ link ∈ join.links, link.IsAtomic) →
      (∀ record ∈ records, (related.recordId record).isAtom = true) →
      (records.forM joinEnd.link).outcome made = (.ok (), last) →
      ∃ changed, last.JoinSide model field related item changed ∧
        (∀ link ∈ changed.links, link.IsAtomic) ∧
        ∀ x, x ∈ changed.seenFrom model.name (model.recordId item) ↔
          x ∈ join.seenFrom model.name (model.recordId item) ∨
            x ∈ records.map related.recordId := by
  induction records with
  | nil =>
      intro made join h _ hlinks _ hrun
      obtain rfl : made = last := congrArg Prod.snd hrun
      refine ⟨join, h, hlinks, fun x => ?_⟩
      rw [List.map_nil, or_iff_left List.not_mem_nil]
  | cons record rest ih =>
      intro made join h hschema hlinks hatoms hrun
      obtain ⟨hatom, hrest⟩ := List.forall_mem_cons.mp hatoms
      obtain ⟨_, mid, hfirst, hrun⟩ := outcome_bind_ok hrun
      obtain rfl := congrArg Prod.snd hfirst
      obtain hname : joinEnd.name = join.name :=
        Option.some.inj (hend.name.symm.trans h.relation_eq)
      obtain hrelated : joinEnd.related = related :=
        Except.ok.inj (hend.related.symm.trans (hschema ▸ h.related_eq))
      let tied := join.tie ⟨field.name, model.name⟩ (model.recordId item) (related.recordId record)
      have htied : tied = { join with links := tied.links } := Join.tie_eq ..
      have hlinked : ((joinEnd.link record).after made).JoinSide model field related item tied := by
        have htiedName : tied.name = join.name := by rw [htied]
        have hsides : tied.sides = join.sides := by rw [htied]; rfl
        refine ⟨h.related_eq, h.linkage_eq, htiedName ▸ h.relation_eq, ?_, hsides ▸ h.side, h.atom⟩
        show (made.joins.connect joinEnd.name joinEnd.side joinEnd.id
          (joinEnd.related.recordId record)).get? tied.name = _
        rw [htiedName, hname, hend.side, hend.id, hrelated]
        exact Joins.get?_connect h.join_eq hatom
      obtain ⟨changed, hchanged, hatomic, hsees⟩ := ih hlinked hschema
        (Join.isAtomic_tie hlinks h.atom hatom) hrest hrun
      refine ⟨changed, hchanged, hatomic, fun x => ?_⟩
      rw [hsees, Join.mem_seenFrom_tie hlinks h.atom hatom h.side, List.map_cons, List.mem_cons,
        or_assoc]

/-- A record whose id the item sees is linked if it is stored. -/
theorem mem_related (h : store.JoinSide model field related item join)
    (hlinks : ∀ link ∈ join.links, link.IsAtomic) (hatom : (related.recordId record).isAtom = true)
    (hsees : related.recordId record ∈ join.seenFrom model.name (model.recordId item)) :
    record ∈ store.related model field item ↔ record ∈ store.items related.name := by
  rw [mem_related_of_join h.related_eq h.linkage_eq h.relation_eq h.join_eq
    (fun link hlink => (hlinks link hlink).isId) (Value.isId_of_isAtom h.atom)
    (Value.isId_of_isAtom hatom)]
  exact and_iff_left hsees

/-- Linking records that have been created makes them linked to the item. -/
theorem mem_related_of_link (h : store.JoinSide model field related item join)
    (hend : joinEnd.Of store.schema model field item) (hmade : (frame store).Holds made)
    (hjoin : made.AtomicJoin join.name)
    (hatoms : ∀ record ∈ records, (related.recordId record).isAtom = true)
    (hrun : (records.forM joinEnd.link).outcome made = (.ok (), last)) :
    ∀ record ∈ records, record ∈ last.related model field item ↔
      record ∈ last.items related.name := by
  obtain ⟨found, hfound, hname⟩ := h.of_frame hmade
  obtain ⟨changed, hchanged, hatomic, hsees⟩ := link_each hend hfound hmade.1
    (hjoin found (hname ▸ hfound.join_eq)) hatoms hrun
  exact fun record hrecord => hchanged.mem_related hatomic (hatoms record hrecord)
    ((hsees _).mpr (Or.inr (List.mem_map_of_mem hrecord)))

/-- A write through the relation goes through an end of the join. -/
theorem outcome_writeRelated (h : store.JoinSide model field related item join)
    {nested : NestedWrites} {operation : String}
    (hrun : (nested.writeRelated model field [(operation, arg)] item).outcome store =
      (.ok (), last)) :
    ∃ joinEnd : JoinEnd, joinEnd.Of store.schema model field item ∧ joinEnd.related = related ∧
      (nested.joinStep joinEnd operation arg).outcome store = (.ok (), last) := by
  have hjoin := hrun
  rw [writeRelated, outcome_bind_get, h.linkage_eq] at hjoin
  dsimp only at hjoin
  rw [writeJoin, outcome_bind_get] at hjoin
  obtain ⟨joinEnd, hend, -⟩ := outcome_bind_require_ok hjoin
  rw [outcome_writeRelated_join h.linkage_eq hend] at hrun
  exact ⟨joinEnd, joinEnd_spec hend,
    Except.ok.inj ((joinEnd_spec hend).related.symm.trans h.related_eq), hrun⟩

/-- A nested create of records one by one links each of them when it has been created. -/
theorem create_links (h : store.JoinSide model field related item join)
    (hrun : ((within (depth + 1)).writeRelated model field [("create", arg)] item).outcome store =
      (.ok (), last)) :
    ∃ created, Tries ((within depth).LinksCreated model field related item join.name)
      (fun _ _ _ => False) store arg.objects created last := by
  have hnested := keeps_within (lawful_frame store) depth
  have hmodel := Schema.mem_of_relatedModel h.related_eq
  obtain ⟨joinEnd, hend, hrelated, hrun⟩ := h.outcome_writeRelated hrun
  have hloop : (within (depth + 1)).joinStep joinEnd "create" arg =
      arg.objects.forM fun data => (within (depth + 1)).create joinEnd.related data >>= joinEnd.link :=
    rfl
  rw [hloop, hrelated] at hrun
  obtain ⟨created, htries⟩ : ∃ created, Tries
      (fun tried data record next => ∃ made, (within depth).Counts related tried data record made ∧
        (joinEnd.link record).outcome made = (.ok (), next))
      (fun _ _ _ => False) store arg.objects created last := by
    refine tries_forM (fun data tried next hround => ?_) hrun
    obtain ⟨record, made, hcreate, hlink⟩ := outcome_bind_ok hround
    exact ⟨record, made, counts_of_outcome hcreate, hlink⟩
  refine ⟨created, (htries.strengthen (frame store).Holds ⟨rfl, rfl⟩
    (fun data _ tried record next htried ⟨made, hcounts, hlink⟩ => ?_) nofun).2⟩
  have hmade := hcounts.holds hnested hmodel htried
  have hlinked (hjoin : made.AtomicJoin join.name)
      (hatom : (related.recordId record).isAtom = true) :
      record ∈ next.related model field item ↔ record ∈ next.items related.name := by
    refine h.mem_related_of_link hend hmade hjoin (List.forall_mem_singleton.mpr hatom) ?_ record
      (List.mem_singleton_self record)
    rw [List.forM, List.forM, outcome_bind, hlink]
    rfl
  obtain rfl := congrArg Prod.snd hlink
  exact ⟨⟨hmade.1, (Joins.reset_connect ..).trans hmade.2⟩, made, hcounts, fun _ => rfl, hlinked⟩

/-- A nested create of many records links all of them when they have been created. -/
theorem createMany_links (h : store.JoinSide model field related item join)
    (hrun : ((within (depth + 1)).writeRelated model field [("createMany", arg)] item).outcome
      store = (.ok (), last)) :
    ∃ created made, Tries ((within depth).Counts related) ((within depth).Collides related arg)
        store (payloadsOf "createMany" arg) created made ∧
      (∀ name, last.items name = made.items name) ∧
      (made.AtomicJoin join.name →
        (∀ record ∈ created, (related.recordId record).isAtom = true) →
          ∀ record ∈ created, record ∈ last.related model field item ↔
            record ∈ last.items related.name) := by
  have hnested := keeps_within (lawful_frame store) (depth + 1)
  have hmodel := Schema.mem_of_relatedModel h.related_eq
  obtain ⟨joinEnd, hend, hrelated, hrun⟩ := h.outcome_writeRelated hrun
  obtain ⟨created, made, hcreate, hlink⟩ := outcome_bind_ok hrun
  rw [hrelated] at hcreate
  have hmade : (frame store).Holds made :=
    ((gives_nestedCreateMany hnested hmodel arg [] ⟨rfl, rfl⟩).ok rfl hcreate).1.holds
  exact ⟨created, made, tries_createMany hcreate, items_link_each hlink, fun hjoin hatoms =>
    h.mem_related_of_link hend hmade hjoin hatoms hlink⟩

end JoinSide

/-- A nested create links each record that it creates: through key columns as soon as it is stored,
    if its payload respects what is merged into it, and through a join once it has been created,
    alone or together with the others. -/
theorem nested_create_links (arg : Value) (depth : Nat) :
    (∀ scope, store.KeyedScope model field related item scope →
      ∀ operation ∈ ["create", "createMany"],
        (∀ data ∈ payloadsOf operation arg, store.schema.Respects related scope data) →
        ∀ last, ((within (depth + 1)).writeRelated model field [(operation, arg)] item).outcome
            store = (.ok (), last) →
          ∃ created, Tries
            (fun tried data => (within depth).LinksStored model field related item tried
              (Entries.insertAll data scope))
            (fun tried data =>
              (within depth).Collides related arg tried (Entries.insertAll data scope))
            store (payloadsOf operation arg) created last) ∧
    ∀ join, store.JoinSide model field related item join →
      (∀ last, ((within (depth + 1)).writeRelated model field [("create", arg)] item).outcome
          store = (.ok (), last) →
        ∃ created, Tries ((within depth).LinksCreated model field related item join.name)
          (fun _ _ _ => False) store arg.objects created last) ∧
      ∀ last, ((within (depth + 1)).writeRelated model field [("createMany", arg)] item).outcome
          store = (.ok (), last) →
        ∃ created made, Tries ((within depth).Counts related)
            ((within depth).Collides related arg) store (payloadsOf "createMany" arg) created made ∧
          (∀ name, last.items name = made.items name) ∧
          (made.AtomicJoin join.name →
            (∀ record ∈ created, (related.recordId record).isAtom = true) →
              ∀ record ∈ created, record ∈ last.related model field item ↔
                record ∈ last.items related.name) :=
  ⟨fun _ h _ hoperation hdata _ hrun => h.links hoperation hdata hrun,
    fun _ h => ⟨fun _ hrun => h.create_links hrun, fun _ hrun => h.createMany_links hrun⟩⟩

end Store

namespace Labels

open NestedWrites Store

/-- The post that has a tag, as stored. -/
def tagged : Record := [("id", .integer 1)]

/-- Another tag, and a list of it alone. -/
def another : Value := .object [("id", .integer 8)]

def others : Value := .object [("data", .array [another])]

/-- The other tag, as stored. -/
def untexted : Record := [("id", .integer 8), ("in", .null), ("text", .null)]

/-- The post is one end of the join of its tags. -/
theorem joinSide_tags : ∃ join, join.name = "labels" ∧
    (store "id").JoinSide post tagsField (tag "id") tagged join :=
  ⟨((store "id").joins.get? "labels").get rfl, rfl, rfl, by decide, rfl, rfl, by decide, rfl⟩

end Labels

namespace Press

open NestedWrites Store Write

/-- What a post for the other author comes with. -/
def toOther : String × Value := ("writer", .object [("connect", .object [("id", .integer 2)])])

/-- A new post for the other author. -/
def forOther : Value := .object [("id", .integer 9), toOther]

/-- A new post, as stored for an author. -/
def stored (authorId : Int) : Record :=
  [("id", .integer 9), ("title", .null), ("authorId", .integer authorId)]

/-- Posts refer to their authors by a plain column. -/
theorem keyedScope_posts :
    issue.KeyedScope author postsField post writer [("authorId", .integer 1)] where
  related_eq := rfl
  keyed := ⟨⟨["id"], ["authorId"], false⟩, by decide, rfl, rfl⟩
  plain := List.forall_mem_singleton.mpr ⟨⟨rfl, _, rfl, rfl, rfl⟩, rfl, rfl⟩
  legible := by decide
  distinct := by decide

/-- A new post is the author's, although it is for the other author; and another tag is the post's,
    whether it is created as one or as one of many. -/
theorem create_dependents :
    (∃ last, ((within 1).writeRelated author postsField [("create", forOther)] writer).outcome
        issue = (.ok (), last) ∧ stored 1 ∈ last.related author postsField writer) ∧
    (∃ last, ((within 1).writeRelated Labels.post Labels.tagsField [("create", Labels.another)]
        Labels.tagged).outcome (Labels.store "id") = (.ok (), last) ∧
      Labels.untexted ∈ last.related Labels.post Labels.tagsField Labels.tagged) ∧
    ∃ last, ((within 1).writeRelated Labels.post Labels.tagsField [("createMany", Labels.others)]
        Labels.tagged).outcome (Labels.store "id") = (.ok (), last) ∧
      Labels.untexted ∈ last.related Labels.post Labels.tagsField Labels.tagged := by
  obtain ⟨join, hname, hside⟩ := Labels.joinSide_tags
  refine ⟨⟨_, rfl, ?_⟩, ⟨_, rfl, ?_⟩, _, rfl, ?_⟩
  · have hrespects : ∀ data ∈ payloadsOf "create" forOther,
        issue.schema.Respects post [("authorId", .integer 1)] data :=
      List.forall_mem_singleton.mpr (Schema.respects_of_disjoint (by decide) (by decide))
    obtain ⟨created, htries⟩ := (nested_create_links forOther 0).1 _ keyedScope_posts "create"
      (.head _) hrespects _ rfl
    cases htries with
    | count hlinks hrest =>
        cases hrest with
        | done =>
            obtain rfl : stored 1 = _ := Except.ok.inj (congrArg Prod.fst hlinks.created)
            exact hlinks.kept.mpr (.tail _ (.tail _ (.head _)))
    | skip hskip => cases hskip.1
  · obtain ⟨created, htries⟩ := ((nested_create_links Labels.another 0).2 join hside).1 _ rfl
    cases htries with
    | count hlinks hrest =>
        cases hrest with
        | done =>
            obtain ⟨made, hcounts, -, hlinked⟩ := hlinks
            obtain rfl : Labels.untexted = _ := Except.ok.inj (congrArg Prod.fst hcounts.created)
            obtain rfl : _ = made := congrArg Prod.snd hcounts.created
            rw [hname] at hlinked
            exact (hlinked (atomicJoin_of_all (by decide)) rfl).mpr (List.mem_of_getElem? (i := 3) rfl)
    | skip hskip => cases hskip
  · obtain ⟨created, made, htries, -, hlinked⟩ :=
      ((nested_create_links Labels.others 0).2 join hside).2 _ rfl
    cases htries with
    | count hcounts hrest =>
        cases hrest with
        | done =>
            obtain rfl : Labels.untexted = _ := Except.ok.inj (congrArg Prod.fst hcounts.created)
            obtain rfl : _ = made := congrArg Prod.snd hcounts.created
            rw [hname] at hlinked
            exact (hlinked (atomicJoin_of_all (by decide)) (List.forall_mem_singleton.mpr rfl) _
              (List.mem_singleton_self _)).mpr (List.mem_of_getElem? (i := 3) rfl)
    | skip hskip => cases hskip.1

/-- A new post for the other author, which names the column for its author before. -/
def misplaced : Value := .object [("id", .integer 9), ("authorId", .integer 0), toOther]

/-- Not every nested create links what it creates: a column that the payload names before a relation
    that writes it has given way by the time that the record is stored. -/
theorem not_forall_nested_create_links :
    ¬ ∀ (schema : Schema) (clock : Int) (entropy : Entropy) (requests : List Request)
        (model related : Model) (field : Field) (item scope : Record) (idField operation : String)
        (linkage : Linkage) (arg : Value) (depth : Nat) (last : Store),
      let store := (ofSchema schema clock entropy).run requests
      schema.options.enforceUnique = true → model ∈ schema.models →
      model.field? field.name = some field → item ∈ store.items model.name →
      model.idFields = [idField] → (model.recordId item).isNull = false →
      schema.relatedModel field = .ok related → schema.linkage? model field = some linkage →
      linkage.owned = false → linkage.scope item = some scope → Filter.Plain related scope →
      operation ∈ ["create", "createMany"] →
      ((within (depth + 1)).writeRelated model field [(operation, arg)] item).outcome store =
        (.ok (), last) →
      ∃ created, Tries
        (fun tried data => (within depth).LinksStored model field related item tried
          (Entries.insertAll data scope))
        (fun tried data => (within depth).Collides related arg tried (Entries.insertAll data scope))
        store (payloadsOf operation arg) created last := by
  intro h
  obtain ⟨created, htries⟩ := h schema 0 ⟨0⟩ (requests ++ joining) author post postsField writer
    [("authorId", .integer 1)] "id" "create" ⟨["id"], ["authorId"], false⟩ misplaced 0 _ rfl
    (.head _) rfl (.head _) rfl rfl rfl (by decide) rfl rfl keyedScope_posts.plain (.head _) rfl
  cases htries with
  | count hlinks hrest =>
      obtain rfl : stored 2 = _ := Except.ok.inj (congrArg Prod.fst hlinks.created)
      obtain rfl : _ = _ := congrArg Prod.snd hlinks.created
      exact notMem_of_any_same (by decide) (by decide)
        (hlinks.kept.mpr (List.mem_of_getElem? (i := 2) rfl))
  | skip hskip => cases hskip.1

end Press

end RecordStore
