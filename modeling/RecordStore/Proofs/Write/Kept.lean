import RecordStore.Proofs.Collections
import RecordStore.Proofs.Write.Upkeep

/-!
# Upkeep through the steps of writes

What every lawful upkeep has of the steps that all writes share, and of deletes: the record that is
completed is fit, the record that is stored is known, and a cascade keeps the property at every
depth.
-/

namespace RecordStore

namespace Upkeep

open Store Write

variable {u : Upkeep} {schema : Schema} {store next : Store} {model : Model}
variable (hlaws : u.Lawful schema)
include hlaws

/-! ## Completing and storing records -/

/-- Counters and the source of digits may move on. -/
theorem leads_of_moved (hmoved : Moved store next) (hstore : u.Holds store) :
    u.Leads store next := by
  obtain ⟨⟨counters, entropy, rfl⟩, hadvances⟩ := hmoved
  exact hlaws.supply counters entropy hstore hadvances

/-- A record that is laid out is fit to be stored. -/
theorem gives_materialize (hmodel : model ∈ schema.models) (given : Record) :
    u.Gives store (step (materialize model given)) fun record _ => u.Admits model record :=
  .step (leads_of_moved hlaws (moved_materialize model given store))
    fun _ => hlaws.laid given store hmodel

/-- A record stays fit while its fields are refreshed one by one. -/
theorem admits_refreshFields (written : Record) {fields : List Field}
    (hfields : fields ⊆ model.scalarFields) :
    ∀ (record : Record) (store : Store), u.Admits model record →
      u.Admits model (refreshFields model written fields record store).1 := by
  induction fields with
  | nil => exact fun _ _ hrecord => hrecord
  | cons field rest ih =>
      intro record store hrecord
      obtain ⟨hfield, hrest⟩ := List.cons_subset.mp hfields
      have hfirst : u.Admits model (refreshField model written record field store).1 := by
        unfold refreshField
        split
        · exact hlaws.filled _ hrecord hfield
        · split
          · rcases store.defaultValue model field with ⟨_ | value, next⟩
            · exact hrecord
            · exact hlaws.filled value hrecord hfield
          · exact hrecord
      exact ih hrest _ _ hfirst

/-- So it does in a write that refreshes all plain fields. -/
theorem gives_refreshFields {record : Record} (hrecord : u.Admits model record)
    (written : Record) :
    u.Gives store (step (refreshFields model written model.scalarFields record))
      fun next _ => u.Admits model next :=
  .step (leads_of_moved hlaws (moved_refreshFields model written _ record store))
    fun _ => admits_refreshFields hlaws written (List.Subset.refl _) record store hrecord

/-- A record that is found is a stored one. -/
theorem knows_of_first? (hstore : u.Holds store) (hmodel : model ∈ schema.models)
    {filter : Option Record} {found : Record} (h : store.first? model filter = some found) :
    u.Knows store model found :=
  hlaws.stored hstore hmodel (List.mem_of_find?_eq_some h)

/-- A record stays fit when it is bound to a target. -/
theorem admits_bind (hmodel : model ∈ schema.models) {field : Field} {linkage : Linkage}
    {record : Record} (hrecord : u.Admits model record) (hfield : field ∈ model.relationFields)
    (hlinkage : linkage.localColumns = field.fromFields) (target : Record) :
    u.Admits model (linkage.bind record target) := by
  have hcolumns : ∀ pair ∈ linkage.columns, pair.1 ∈ field.fromFields :=
    fun pair hpair => hlinkage ▸ (List.of_mem_zip hpair).1
  unfold Linkage.bind
  revert hcolumns record
  induction linkage.columns with
  | nil => exact fun hrecord _ => hrecord
  | cons pair rest ih =>
      intro record hrecord hcolumns
      obtain ⟨hcolumn, hrest⟩ := List.forall_mem_cons.mp hcolumns
      exact ih (hlaws.bound _ hmodel hrecord hfield hcolumn) hrest

/-- A record stays fit when it is unbound. -/
theorem admits_unbind (hmodel : model ∈ schema.models) {field : Field} {columns : List String}
    {record : Record} (hrecord : u.Admits model record) (hfield : field ∈ model.relationFields)
    (hcolumns : columns ⊆ field.fromFields) : u.Admits model (record.unbind columns) := by
  unfold Record.unbind
  induction columns generalizing record with
  | nil => exact hrecord
  | cons column rest ih =>
      obtain ⟨hcolumn, hrest⟩ := List.cons_subset.mp hcolumns
      exact ih (hlaws.bound _ hmodel hrecord hfield hcolumn) hrest

/-! ## Deleting -/

/-- A record that is gone may be taken out of the joins. -/
theorem keeps_unlinkAll (record : Record) :
    u.Keeps store (modify fun store => store.unlinkAll model record) := by
  refine Keeps.modify fun hstore => ?_
  unfold Store.unlinkAll
  dsimp only
  split
  · exact .refl hstore
  · exact hlaws.cleanup model.name _ hstore

/-- The dependents of a record that is gone are deleted with it, detached, or left alone. -/
theorem keeps_applyPolicy {cascade : Model → Record → Write Unit}
    (hcascade : ∀ model scope store, u.Keeps store (cascade model scope)) (record : Record)
    (field : Field) : u.Keeps store (applyPolicy cascade model record field) := by
  refine .bind_get fun hstore => ?_
  dsimp only
  split
  · exact .pure fun _ => trivial
  · rename_i linkage hlinkage
    by_cases howned : linkage.owned = true
    · rw [if_pos howned]
      exact .pure fun _ => trivial
    · rw [if_neg howned]
      split
      · refine .bind_require fun dependents hrelated => ?_
        split
        · exact hcascade dependents _ store
        · -- the columns to be nulled are those of the field that keeps the link
          obtain ⟨other, hother, -, -, -, rfl⟩ :=
            Schema.declared_of_linkage hlinkage (Bool.not_eq_true _ ▸ howned) hrelated
          have hmember : dependents ∈ schema.models :=
            hlaws.schema_eq hstore ▸ Schema.mem_of_relatedModel hrelated
          exact Keeps.modify fun _ => hlaws.detach _ hstore hmember hother
        · exact .pure fun _ => trivial
      · exact .pure fun _ => trivial

/-- What follows the delete of a record goes through all fields of its model. -/
theorem keeps_afterDelete {cascade : Model → Record → Write Unit}
    (hcascade : ∀ model scope store, u.Keeps store (cascade model scope)) (model : Model)
    (record : Record) : u.Keeps store (afterDelete cascade model record) :=
  .bind (keeps_unlinkAll hlaws record) fun _ _ _ _ =>
    Keeps.forM _ fun field _ _ _ => keeps_applyPolicy hlaws hcascade record field

/-- A cascade of any depth keeps up what is lawful, also if it is cut off. -/
theorem keeps_deleteWithin (depth : Nat) :
    ∀ (model : Model) (filter : Option Record) (store : Store),
      u.Keeps store (deleteWithin depth model filter) := by
  -- a cascade is a delete of the next smaller depth
  induction depth with
  | zero => exact fun _ _ _ => .throw _
  | succ depth ih =>
      intro model filter store
      unfold deleteWithin
      refine .bind_get fun hstore => ?_
      rw [List.partition_eq_filter_filter]
      dsimp only
      split
      · exact .pure fun _ => trivial
      · refine .bind (Keeps.set fun _ => hlaws.remove hstore List.filter_sublist)
          fun _ _ _ _ => .bind (Keeps.forM _ fun record _ _ _ => ?_) fun _ _ _ _ =>
            .pure fun _ => trivial
        exact keeps_afterDelete hlaws (fun dependents scope next =>
          .discard (ih dependents (some scope) next)) model record

/-- A delete of what a filter selects is a cascade that is deep enough. -/
theorem keeps_deleteMatching (model : Model) (filter : Option Record) :
    u.Keeps store (deleteMatching model filter) :=
  .bind_get fun _ => keeps_deleteWithin hlaws _ model filter store

/-- A delete of one record is followed by such cascades. -/
theorem keeps_deleteRecord (model : Model) (target : Record) :
    u.Keeps store (deleteRecord model target) := by
  refine .bind_get fun hstore => ?_
  split
  · exact .pure fun _ => trivial
  · rename_i kept hkept
    refine .bind (Keeps.set fun _ => hlaws.remove hstore (sublist_of_removeFirst hkept))
      fun _ _ _ _ => ?_
    exact keeps_afterDelete hlaws (fun dependents scope next =>
      .discard (keeps_deleteWithin hlaws _ dependents (some scope) next)) model target

end Upkeep

end RecordStore
