import RecordStore.Proofs.Relation.Linked
import RecordStore.Proofs.Relation.Linking
import RecordStore.Proofs.Relation.ShortCut

/-!
# Links in the columns of dependents

The records that depend on a record are those that hold its values in some columns.  Writing these
values links a record, and writing nulls parts it; no other record is touched, since the records are
known by ids that neither kind of write changes.
-/

namespace RecordStore

namespace Linkage

/-- A scope has an entry for each of its columns. -/
theorem nodup_keys_scope {linkage : Linkage} {record scope : Record}
    (h : linkage.scope record = some scope) : (Entries.keys scope).Nodup := by
  have hfold (pairs : List (String × String)) :
      ∀ acc : Record, (Entries.keys acc).Nodup → pairs.foldlM (addColumn record) acc = some scope →
        (Entries.keys scope).Nodup := by
    induction pairs with
    | nil => exact fun acc hacc hscope => Option.some.inj hscope ▸ hacc
    | cons pair rest ih =>
        intro acc hacc hscope
        rw [List.foldlM_cons] at hscope
        obtain ⟨next, hnext, hrest⟩ := Option.bind_eq_some_iff.mp hscope
        obtain ⟨value, -, -, rfl⟩ := addColumn_eq_some hnext
        exact ih _ (Entries.pairwise_keys_insert (fun _ hne => hne) hacc _) hrest
  exact hfold linkage.columns [] List.nodup_nil h

/-- What parts a record is null in each of the columns. -/
theorem mem_detached {linkage : Linkage} :
    ∀ entry ∈ linkage.detached, entry.1 ∈ linkage.foreign ∧ entry.2 = .null := by
  intro entry hentry
  have hkeys := Record.mem_keys_unbind linkage.foreign entry.1 []
  refine ⟨(hkeys.mp (List.mem_map_of_mem hentry)).resolve_right (nomatch ·), ?_⟩
  exact Record.eq_null_of_mem_unbind linkage.foreign [] (List.forall_mem_nil _) entry hentry

end Linkage

namespace Filter

variable {related : Model} {scope record other : Record}

/-- A record that holds the values of a scope fits it, if the values can be read as their columns
    are. -/
theorem fits_of_legible (hsingle : ∀ entry ∈ scope, entry.2.isScalar = true ∧ entry.2.isNull = false)
    (hlegible : ∀ entry ∈ scope,
      Value.equals (related.readingOf entry.1) entry.2 entry.2 = true)
    (h : ∀ entry ∈ scope, Record.valueAt entry.1 record = entry.2) :
    fits related scope record = true := by
  refine List.all_eq_true.mpr fun entry hentry => ?_
  obtain ⟨hscalar, hnull⟩ := hsingle entry hentry
  rw [Condition.matchesScalar_of_isScalar _ _ hscalar hnull, h entry hentry, hnull]
  exact hlegible entry hentry

/-- Atoms can be read plainly. -/
theorem fits_of_values (hatoms : ∀ entry ∈ scope, entry.2.isAtom = true)
    (hplain : ∀ entry ∈ scope, related.readingOf entry.1 = .plain)
    (h : ∀ entry ∈ scope, Record.valueAt entry.1 record = entry.2) :
    fits related scope record = true := by
  refine fits_of_legible (fun entry hentry => ?_) (fun entry hentry => ?_) h <;>
    have hatom := hatoms entry hentry
  · exact ⟨Value.isScalar_of_isAtom hatom, Value.isNull_of_isAtom hatom⟩
  · have hid := Value.isId_of_isAtom hatom
    rw [hplain entry hentry]
    exact (sameId_iff hid hid).mpr rfl

/-- A record with a null in a column of a scope does not fit it. -/
theorem not_fits_of_null (hatoms : ∀ entry ∈ scope, entry.2.isAtom = true) {entry : String × Value}
    (hentry : entry ∈ scope) (h : (Record.valueAt entry.1 record).isNull = true) :
    ¬ fits related scope record = true := by
  intro hfits
  have hatom := hatoms entry hentry
  have hholds := List.all_eq_true.mp hfits entry hentry
  rw [Condition.matchesScalar_of_isScalar _ _ (Value.isScalar_of_isAtom hatom)
    (Value.isNull_of_isAtom hatom), h] at hholds
  cases hholds

/-- Records with equal values in the columns of a scope fit it both or neither. -/
theorem fits_of_same_values (hatoms : ∀ entry ∈ scope, entry.2.isAtom = true)
    (h : ∀ entry ∈ scope, Value.Alike (Record.valueAt entry.1 record) (Record.valueAt entry.1 other))
    (hfits : fits related scope record = true) : fits related scope other = true := by
  refine List.all_eq_true.mpr fun entry hentry => ?_
  have hatom := hatoms entry hentry
  have hholds := List.all_eq_true.mp hfits entry hentry
  rw [Condition.matchesScalar_of_isScalar _ _ (Value.isScalar_of_isAtom hatom)
    (Value.isNull_of_isAtom hatom)] at hholds ⊢
  rcases h entry hentry with heq | hsame
  · exact heq ▸ hholds
  · rw [← Value.isNull_of_same hsame,
      ← Value.equals_congr_left hsame (Value.isScalar_of_isAtom hatom)]
    exact hholds

end Filter

namespace Store

open Write NestedWrites

/-- A record as one end of a relation that is kept in columns of its dependents.  The columns are
    plain ones other than the id, and no update fills them of its own accord; what they refer to is
    a text or a 64-bit integer, and keeps no time of an update. -/
structure KeyedEnd (store : Store) (model : Model) (field : Field) (related : Model)
    (item : Record) (linkage : Linkage) (scope : Record) : Prop where
  linkage_eq : store.schema.linkage? model field = some linkage
  dependent : linkage.owned = false
  related_eq : store.schema.relatedModel field = .ok related
  scope_eq : linkage.scope item = some scope
  refers : linkage.columns ≠ []
  referred : ∀ pair ∈ linkage.columns,
    (Record.valueAt pair.1 item).isAtom = true ∧ model.Unstamped pair.1
  plain : ∀ column ∈ linkage.foreign,
    related.IsPlain column ∧ related.readingOf column = .plain
  open_ : ∀ column ∈ linkage.foreign, related.Unstamped column ∧ related.Undefaulted column
  apart : ∀ column ∈ linkage.foreign, column ∉ related.idFields

variable {store current next : Store} {model related : Model} {field : Field}
variable {item scope target updated : Record} {linkage : Linkage} {idField : String} {depth : Nat}

namespace KeyedEnd

/-- A scope holds atoms in columns of the dependents. -/
theorem atoms (h : store.KeyedEnd model field related item linkage scope) :
    ∀ entry ∈ scope, entry.2.isAtom = true ∧ entry.1 ∈ linkage.foreign := by
  intro entry hentry
  obtain ⟨column, hpair, hvalue, -⟩ := Linkage.mem_scope h.scope_eq entry hentry
  have hatom := (h.referred _ hpair).1
  rw [Record.valueAt, hvalue, Option.getD_some] at hatom
  exact ⟨hatom, (List.of_mem_zip hpair).2⟩

theorem exists_mem (h : store.KeyedEnd model field related item linkage scope) :
    ∃ entry, entry ∈ scope := by
  obtain ⟨pair, hpair⟩ := List.exists_mem_of_ne_nil _ h.refers
  obtain ⟨entry, hentry, -⟩ := List.mem_map.mp (Linkage.mem_keys_scope h.scope_eq pair hpair)
  exact ⟨entry, hentry⟩

theorem plain_scope (h : store.KeyedEnd model field related item linkage scope) :
    Filter.Plain related scope := by
  intro entry hentry
  obtain ⟨hatom, hcolumn⟩ := h.atoms entry hentry
  exact ⟨(h.plain _ hcolumn).1, Value.isScalar_of_isAtom hatom, Value.isNull_of_isAtom hatom⟩

/-- The linked records are those that fit the scope. -/
theorem mem_related (h : store.KeyedEnd model field related item linkage scope)
    (hschema : current.schema = store.schema) (other : Record) :
    other ∈ current.related model field item ↔
      other ∈ current.items related.name ∧ Filter.fits related scope other = true :=
  mem_related_of_plain (hschema ▸ h.related_eq) (hschema ▸ h.linkage_eq) h.scope_eq h.plain_scope

theorem mem_relatedIds (h : store.KeyedEnd model field related item linkage scope)
    (hschema : current.schema = store.schema) (id : Value) :
    id ∈ current.relatedIds model field related item ↔
      ∃ other ∈ current.items related.name, Filter.fits related scope other = true ∧
        related.recordId other = id := by
  simp only [relatedIds, List.mem_map, h.mem_related hschema, and_assoc]

/-- Writing the scope into a record makes it fit. -/
theorem update_scope (h : store.KeyedEnd model field related item linkage scope)
    (hids : related.idFields = [idField]) (hstamp : related.Unstamped idField)
    (hid : current.Identified related) (htarget : target ∈ current.items related.name)
    (hrun : ((within (depth + 1)).update related target scope).outcome current =
      (.ok updated, next)) :
    Rewrites current next related target updated ∧ Filter.fits related scope updated = true := by
  have hdata : ∀ entry ∈ scope, related.IsPlain entry.1 ∧ entry.2.isScalar = true :=
    fun entry hentry => ⟨(h.plain_scope entry hentry).1, (h.plain_scope entry hentry).2.1⟩
  have hapart : idField ∉ Entries.keys scope := by
    intro hmem
    obtain ⟨entry, hentry, rfl⟩ := List.mem_map.mp hmem
    exact h.apart _ (h.atoms entry hentry).2 (hids ▸ List.mem_singleton_self _)
  obtain ⟨hrewrites, hvalues⟩ := rewrites_of_update hid htarget hids hstamp hapart hdata hrun
  refine ⟨hrewrites, Filter.fits_of_values (fun entry hentry => (h.atoms entry hentry).1)
    (fun entry hentry => (h.plain _ (h.atoms entry hentry).2).2) fun entry hentry => ?_⟩
  -- a column stands in the scope once, so its value is the one that is written
  have hwritten : Record.valueAt entry.1 (Entries.insertAll target scope) = entry.2 := by
    rw [Record.valueAt, Entries.get?_insertAll_of_forall (List.mem_map_of_mem hentry)
      fun other hother hname => congrArg Prod.snd
        (List.inj_on_of_nodup_map (Linkage.nodup_keys_scope h.scope_eq) hother hentry hname),
      Option.getD_some]
  obtain ⟨hatom, hcolumn⟩ := h.atoms entry hentry
  rw [hvalues entry.1 (h.open_ _ hcolumn).1 fun _ => (h.open_ _ hcolumn).2, hwritten]

/-- Writing nulls into the columns of a record makes it fit no more. -/
theorem update_detached (h : store.KeyedEnd model field related item linkage scope)
    (hids : related.idFields = [idField]) (hstamp : related.Unstamped idField)
    (hid : current.Identified related) (htarget : target ∈ current.items related.name)
    (hrun : ((within (depth + 1)).update related target linkage.detached).outcome current =
      (.ok updated, next)) :
    Rewrites current next related target updated ∧
      ¬ Filter.fits related scope updated = true := by
  have hdata : ∀ entry ∈ linkage.detached, related.IsPlain entry.1 ∧ entry.2.isScalar = true := by
    intro entry hentry
    obtain ⟨hcolumn, hnull⟩ := Linkage.mem_detached entry hentry
    exact ⟨(h.plain _ hcolumn).1, hnull ▸ rfl⟩
  have hapart : idField ∉ Entries.keys linkage.detached := by
    intro hmem
    obtain ⟨entry, hentry, rfl⟩ := List.mem_map.mp hmem
    exact h.apart _ (Linkage.mem_detached entry hentry).1 (hids ▸ List.mem_singleton_self _)
  obtain ⟨hrewrites, hvalues⟩ := rewrites_of_update hid htarget hids hstamp hapart hdata hrun
  obtain ⟨entry, hentry⟩ := h.exists_mem
  obtain ⟨-, hcolumn⟩ := h.atoms entry hentry
  refine ⟨hrewrites, Filter.not_fits_of_null (fun entry hentry => (h.atoms entry hentry).1)
    hentry ?_⟩
  have hnull : Record.valueAt entry.1 (Entries.insertAll target linkage.detached) = .null := by
    show Record.valueAt entry.1 (Entries.insertAll target (Record.unbind linkage.foreign [])) = _
    rw [Record.valueAt, Record.get?_insertAll_unbind, if_pos hcolumn, Option.getD_some]
  rw [hvalues entry.1 (h.open_ _ hcolumn).1 fun _ => (h.open_ _ hcolumn).2, hnull]
  rfl

/-- Linking a record adds its id to the linked ones. -/
theorem link (h : store.KeyedEnd model field related item linkage scope)
    (hids : related.idFields = [idField]) (hstamp : related.Unstamped idField)
    (hschema : current.schema = store.schema) (hid : current.Identified related)
    (htarget : target ∈ current.items related.name)
    (hrun : (discard ((within (depth + 1)).update related target scope)).outcome current =
      (.ok (), next)) :
    (next.schema = store.schema ∧ next.Identified related) ∧
      ∀ id, id ∈ next.relatedIds model field related item ↔
        id ∈ current.relatedIds model field related item ∨ id = related.recordId target := by
  obtain ⟨updated, hupdate⟩ := outcome_discard_ok hrun
  obtain ⟨hrewrites, hfits⟩ := h.update_scope hids hstamp hid htarget hupdate
  have hnext : next.schema = store.schema := hrewrites.schema_eq.trans hschema
  refine ⟨⟨hnext, hid.of_ids_eq hrewrites.ids_eq⟩, fun id => ?_⟩
  rw [h.mem_relatedIds hnext, h.mem_relatedIds hschema]
  by_cases heq : id = related.recordId target
  · refine iff_of_true ?_ (Or.inr heq)
    -- the record of the id is the one that was written, or one equal to it
    have hmem : id ∈ next.ids related := by
      rw [hrewrites.ids_eq, heq]
      exact List.mem_map_of_mem htarget
    obtain ⟨other, hother, hotherId⟩ := List.mem_map.mp hmem
    refine ⟨other, hother, ?_, hotherId⟩
    rcases hrewrites.written other hother (hotherId.trans heq) with rfl | ⟨rfl, hsame⟩
    · exact hfits
    · exact Filter.fits_of_same_values (fun entry hentry => (h.atoms entry hentry).1)
        (fun entry _ => Or.inr (Record.valueAt_of_same hsame entry.1)) hfits
  · rw [or_iff_left heq]
    refine exists_congr fun other => ?_
    constructor
    · rintro ⟨hother, hfits, rfl⟩
      exact ⟨(hrewrites.kept other heq).mp hother, hfits, rfl⟩
    · rintro ⟨hother, hfits, rfl⟩
      exact ⟨(hrewrites.kept other heq).mpr hother, hfits, rfl⟩

end KeyedEnd

/-! ## Parting -/

/-- A record of an atom for its id is reloaded as the one that has the id. -/
theorem reload?_eq_some (hid : current.Identified related)
    (htarget : (related.recordId target).isAtom = true) {found : Record}
    (h : current.reload? related target = some found) :
    found ∈ current.items related.name ∧ related.recordId found = related.recordId target := by
  simp only [reload?, Value.isNull_of_isAtom htarget, Bool.false_eq_true, if_false] at h
  have hmem := List.mem_of_find?_eq_some h
  have hsame := (List.find?_eq_some_iff_append.mp h).1
  exact ⟨hmem, Value.eq_of_same_of_isAtom (hid.isAtom hmem) hsame⟩

theorem reload?_eq_none (htarget : (related.recordId target).isAtom = true)
    (h : current.reload? related target = none) :
    ∀ other ∈ current.items related.name, related.recordId other ≠ related.recordId target := by
  simp only [reload?, Value.isNull_of_isAtom htarget, Bool.false_eq_true, if_false] at h
  intro other hother heq
  refine List.find?_eq_none.mp h other hother ?_
  rw [heq]
  exact Value.same_self_of_isId (Value.isId_of_isAtom htarget)

/-- A store in which the records of some ids have been parted from a scope, and no others have been
    written. -/
structure Parts (current next : Store) (related : Model) (scope : Record) (parted : List Value) :
    Prop where
  schema_eq : next.schema = current.schema
  ids_eq : next.ids related = current.ids related
  kept : ∀ other, related.recordId other ∉ parted →
    (other ∈ next.items related.name ↔ other ∈ current.items related.name)
  gone : ∀ other ∈ next.items related.name, related.recordId other ∈ parted →
    ¬ Filter.fits related scope other = true

namespace KeyedEnd

/-- Parting records one by one parts those of their ids. -/
theorem part_each (h : store.KeyedEnd model field related item linkage scope)
    (hids : related.idFields = [idField]) (hstamp : related.Unstamped idField)
    {targets : List Record} (hatoms : ∀ target ∈ targets, (related.recordId target).isAtom = true) :
    ∀ {current : Store} {answers : List Record}, current.Identified related →
      (updateEach (within (depth + 1)).update related linkage.detached targets).outcome current =
        (.ok answers, next) →
      Parts current next related scope (targets.map related.recordId) := by
  induction targets with
  | nil =>
      intro current answers _ hrun
      obtain rfl : current = next := congrArg Prod.snd hrun
      exact ⟨rfl, rfl, fun _ _ => Iff.rfl, fun _ _ hnil => (nomatch hnil)⟩
  | cons target rest ih =>
      intro current answers hid hrun
      obtain ⟨htarget, hrest⟩ := List.forall_mem_cons.mp hatoms
      rw [updateEach, outcome_bind_get] at hrun
      cases hreload : current.reload? related target with
      | none =>
          rw [hreload] at hrun
          have hapart := reload?_eq_none htarget hreload
          have hparts := ih hrest hid hrun
          refine ⟨hparts.schema_eq, hparts.ids_eq, fun other hother => ?_,
            fun other hother hparted => ?_⟩
          · exact hparts.kept other fun hmem => hother (List.mem_cons_of_mem _ hmem)
          · rcases List.mem_cons.mp hparted with heq | hmem
            · -- no record has the id, neither before nor after
              have hthere : related.recordId other ∈ current.ids related :=
                hparts.ids_eq ▸ List.mem_map_of_mem hother
              obtain ⟨old, hold, hsame⟩ := List.mem_map.mp hthere
              exact absurd (hsame.trans heq) (hapart old hold)
            · exact hparts.gone other hother hmem
      | some found =>
          rw [hreload] at hrun
          obtain ⟨hfound, hfoundId⟩ := reload?_eq_some hid htarget hreload
          obtain ⟨updated, mid, hupdate, hrun⟩ := outcome_bind_ok hrun
          obtain ⟨others, last, hothers, hlast⟩ := outcome_bind_ok hrun
          obtain rfl : last = next := congrArg Prod.snd hlast
          obtain ⟨hrewrites, hfits⟩ := h.update_detached hids hstamp hid hfound hupdate
          have hparts := ih hrest (hid.of_ids_eq hrewrites.ids_eq) hothers
          refine ⟨hparts.schema_eq.trans hrewrites.schema_eq, hparts.ids_eq.trans hrewrites.ids_eq,
            fun other hother => ?_, fun other hother hparted => ?_⟩
          · obtain ⟨hne, hmore⟩ := not_or.mp (mt List.mem_cons.mpr hother)
            rw [hparts.kept other hmore, hrewrites.kept other (hfoundId ▸ hne)]
          · by_cases hmore : related.recordId other ∈ rest.map related.recordId
            · exact hparts.gone other hother hmore
            · have heq : related.recordId other = related.recordId found :=
                ((List.mem_cons.mp hparted).resolve_right hmore).trans hfoundId.symm
              rcases hrewrites.written other ((hparts.kept other hmore).mp hother) heq with
                rfl | ⟨rfl, hsame⟩
              · exact hfits
              · exact fun hother => hfits (Filter.fits_of_same_values
                  (fun entry hentry => (h.atoms entry hentry).1)
                  (fun entry _ => Or.inr (Value.same_symm _ _
                    (Record.valueAt_of_same hsame entry.1))) hother)

/-- Parting the records that satisfy a filter parts those of them that fit the scope. -/
theorem part_matching (h : store.KeyedEnd model field related item linkage scope)
    (hids : related.idFields = [idField]) (hstamp : related.Unstamped idField)
    (hid : current.Identified related) {filter : Record}
    (hrun : (discard ((within (depth + 1)).updateMatching related filter linkage.detached)).outcome
      current = (.ok (), next)) :
    Parts current next related scope (((current.items related.name).filter fun other =>
      current.satisfies related other filter).map related.recordId) := by
  obtain ⟨answers, hupdates⟩ := outcome_discard_ok hrun
  exact h.part_each hids hstamp
    (fun target htarget => hid.isAtom (List.mem_of_mem_filter htarget)) hid hupdates

/-- Parting everything that fits the scope leaves nothing linked. -/
theorem part_all (h : store.KeyedEnd model field related item linkage scope)
    (hids : related.idFields = [idField]) (hstamp : related.Unstamped idField)
    (hschema : current.schema = store.schema) (hid : current.Identified related)
    (hrun : (discard ((within (depth + 1)).updateMatching related scope linkage.detached)).outcome
      current = (.ok (), next)) :
    (next.schema = store.schema ∧ next.Identified related) ∧
      ∀ id, id ∉ next.relatedIds model field related item := by
  have hparts := h.part_matching hids hstamp hid hrun
  have hnext : next.schema = store.schema := hparts.schema_eq.trans hschema
  refine ⟨⟨hnext, hid.of_ids_eq hparts.ids_eq⟩, fun id hmem => ?_⟩
  obtain ⟨other, hother, hfits, -⟩ := (h.mem_relatedIds hnext id).mp hmem
  refine hparts.gone other hother ?_ hfits
  by_contra hkept
  -- a record that was not parted fitted the scope before, and so it was
  refine hkept (List.mem_map_of_mem (List.mem_filter.mpr ⟨(hparts.kept other hkept).mp hother, ?_⟩))
  rw [satisfies, Filter.satisfies_eq_fits h.plain_scope]
  exact hfits

/-- Parting by local filters, one after the other, leaves the linked records that satisfy none. -/
theorem part_filters (h : store.KeyedEnd model field related item linkage scope)
    (hids : related.idFields = [idField]) (hstamp : related.Unstamped idField)
    {filters : List Record} (hlocal : ∀ filter ∈ filters, Filter.isLocal related filter = true) :
    ∀ {current : Store}, current.Identified related →
      ((filters.map fun filter => Filter.narrow scope (some filter)).forM fun filter =>
        discard ((within (depth + 1)).updateMatching related filter linkage.detached)).outcome
          current = (.ok (), next) →
      next.schema = current.schema ∧ ∀ other, Filter.fits related scope other = true →
        (other ∈ next.items related.name ↔ other ∈ current.items related.name ∧
          ∀ filter ∈ filters, current.satisfies related other filter = false) := by
  induction filters with
  | nil =>
      intro current _ hrun
      obtain rfl : current = next := congrArg Prod.snd hrun
      exact ⟨rfl, fun other _ => (and_iff_left (List.forall_mem_nil _)).symm⟩
  | cons filter rest ih =>
      intro current hid hrun
      obtain ⟨hfilter, hrest⟩ := List.forall_mem_cons.mp hlocal
      obtain ⟨_, mid, hfirst, hrun⟩ := outcome_bind_ok hrun
      have hparts := h.part_matching hids hstamp hid hfirst
      obtain ⟨hschema, hmembers⟩ := ih hrest (hid.of_ids_eq hparts.ids_eq) hrun
      refine ⟨hschema.trans hparts.schema_eq, fun other hfits => ?_⟩
      have hasks (record : Record) (hrecord : Filter.fits related scope record = true) :
          current.satisfies related record (Filter.narrow scope (some filter)) =
            current.satisfies related record filter := by
        rw [satisfies, Filter.satisfies_narrow, Filter.satisfies_eq_fits h.plain_scope, hrecord,
          Bool.and_true, satisfies]
      -- this filter keeps what fits the scope and does not satisfy it
      have hfirst : other ∈ mid.items related.name ↔
          other ∈ current.items related.name ∧ current.satisfies related other filter = false := by
        constructor
        · intro hother
          have hkept := fun hparted => hparts.gone other hother hparted hfits
          have hcurrent := (hparts.kept other hkept).mp hother
          refine ⟨hcurrent, ?_⟩
          by_contra hsatisfies
          refine hkept (List.mem_map_of_mem (List.mem_filter.mpr ⟨hcurrent, ?_⟩))
          rw [hasks other hfits]
          exact Bool.not_eq_false _ ▸ hsatisfies
        · rintro ⟨hcurrent, hfails⟩
          refine (hparts.kept other fun hparted => ?_).mpr hcurrent
          obtain ⟨picked, hpicked, hsame⟩ := List.mem_map.mp hparted
          obtain ⟨hmem, hsatisfies⟩ := List.mem_filter.mp hpicked
          obtain rfl := hid.eq_of_id_eq hmem hcurrent hsame
          rw [hasks picked hfits, hfails] at hsatisfies
          cases hsatisfies
      have hsame (filter : Record) (hmem : filter ∈ rest) :
          mid.satisfies related other filter = current.satisfies related other filter :=
        Filter.satisfies_congr filter (hrest filter hmem)
      rw [hmembers other hfits, hfirst, List.forall_mem_cons, and_assoc]
      refine and_congr_right fun _ => and_congr_right fun _ => ?_
      exact forall₂_congr fun filter hmem => by rw [hsame filter hmem]

/-! ## The operations -/

/-- Through columns of the dependents, the operations act on the set of the linked ids. -/
theorem actsOnLinks (h : store.KeyedEnd model field related item linkage scope)
    (hids : related.idFields = [idField]) (hstamp : related.Unstamped idField)
    (hschema : current.schema = store.schema) (hid : current.Identified related) :
    current.ActsOnLinks model field related item
      (fun target => discard ((within (depth + 1)).update related target scope))
      ((within (depth + 1)).dependentStep related scope linkage.detached) := by
  have hconnect {start last : Store} {filters : List Record}
      (hstart : start.schema = store.schema ∧ start.Identified related)
      (hrun : ((within (depth + 1)).connectDependents related scope filters).outcome start =
        (.ok (), last)) :=
    (linked_connectEach (fun current => current.schema = store.schema ∧ current.Identified related)
      (fun current id => id ∈ current.relatedIds model field related item)
      (fun current target next hinv htarget hlink =>
        h.link hids hstamp hinv.1 hinv.2 htarget hlink) filters start hstart hrun).2
  constructor
  · exact fun arg last hrun => hconnect ⟨hschema, hid⟩ hrun
  · intro arg last hrun
    obtain ⟨_, cleared, hclear, hrun⟩ := outcome_bind_ok hrun
    obtain ⟨hcleared, hnone⟩ := h.part_all hids hstamp hschema hid hclear
    refine ⟨cleared, ?_, fun id => ?_⟩
    · show ((discard ((within (depth + 1)).updateMatching related scope linkage.detached)) >>=
        fun _ => (within (depth + 1)).connectDependents related scope []).outcome current = _
      rw [outcome_bind, hclear]
      rfl
    · rw [hconnect hcleared hrun id, or_iff_right (hnone id)]
  · intro last hrun
    obtain ⟨_, cleared, hclear, hrun⟩ := outcome_bind_ok hrun
    obtain rfl : cleared = last := congrArg Prod.snd hrun
    exact (h.part_all hids hstamp hschema hid hclear).2
  · intro arg last harg hlocal hrun id
    have hparted : ((filtersOf (Filter.narrow scope) arg).forM fun filter =>
        discard ((within (depth + 1)).updateMatching related filter linkage.detached)).outcome
          current = (.ok (), last) := hrun
    rw [filtersOf_eq_map harg] at hparted
    obtain ⟨hlast, hmembers⟩ := h.part_filters hids hstamp hlocal hid hparted
    rw [h.mem_relatedIds (hlast.trans hschema)]
    refine exists_congr fun other => ?_
    rw [h.mem_related hschema]
    constructor
    · rintro ⟨hother, hfits, rfl⟩
      obtain ⟨hcurrent, hnone⟩ := (hmembers other hfits).mp hother
      exact ⟨⟨hcurrent, hfits⟩, rfl, hnone⟩
    · rintro ⟨⟨hcurrent, hfits⟩, rfl, hnone⟩
      exact ⟨(hmembers other hfits).mpr ⟨hcurrent, hnone⟩, hfits, rfl⟩

end KeyedEnd

end Store

end RecordStore
