import RecordStore.Proofs.Delete.Termination
import RecordStore.Proofs.Join.Traced

/-!
# Deletes and links

A delete takes the links of a record away right after the record, before it goes on to what depends
on it.  Between the two the ends of these links belong to no record any more; at the end of a
delete each end that belonged to a record still does, however far the delete has cascaded.
-/

namespace RecordStore

namespace Store

variable {schema : Schema} {store : Store} {model : Model} {record : Record} {name : String}
variable {id : Value} {P : String → Value → Prop}

/-- What the ends of links may have besides a record may be loosened. -/
theorem Tidy.imp {Q : String → Value → Prop} (h : store.Tidy schema P)
    (hpq : ∀ name id, P name id → Q name id) : store.Tidy schema Q :=
  ⟨h.schema_eq, h.declared, fun hkeyed => (h.ends hkeyed).imp
    fun name id ⟨hkey, hend⟩ => ⟨hkey, hend.imp_right (hpq name id)⟩⟩

/-- The id is that of a record which is gone, while its links are still there. -/
def Departing (schema : Schema) (model : Model) (gone : List Record) (P : String → Value → Prop)
    (name : String) (id : Value) : Prop :=
  P name id ∨ (name = model.name ∧ schema.IdAmong name gone id)

/-- Once the links of all records that are gone have been removed, the store is tidy again. -/
theorem Tidy.of_departing_nil (h : store.Tidy schema (Departing schema model [] P)) :
    store.Tidy schema P := by
  refine h.imp fun _ _ hdeparting => hdeparting.resolve_right ?_
  rintro ⟨-, _, -, -, _, hnil, -⟩
  cases hnil

/-- Records that are taken out of a collection leave their links behind. -/
theorem Tidy.remove (h : store.Tidy schema P) (hmodel : model ∈ schema.models)
    {kept gone : List Record} (hitems : ∀ record ∈ store.items model.name, record ∈ kept ∨
      ∃ other ∈ gone, Value.Alike (model.recordId record) (model.recordId other)) :
    (store.replaceCollection model.name kept).Tidy schema (Departing schema model gone P) := by
  obtain ⟨rfl, hdeclared, hends⟩ := h
  refine ⟨rfl, hdeclared, fun hkeyed => ?_⟩
  refine (hends hkeyed.of_replaceCollection).imp fun name id ⟨hkey, hend⟩ => ⟨hkey, ?_⟩
  rcases hend with ⟨owner, howner, rfl, record, hrecord, hsame⟩ | hallowed
  · by_cases hname : owner.name = model.name
    · obtain rfl := Schema.eq_of_name_eq howner hmodel hname
      rcases hitems record hrecord with hkept | ⟨other, hother, halike⟩
      · refine Or.inl ⟨owner, howner, rfl, record, ?_, hsame⟩
        rw [items_replaceCollection_self]
        exact hkept
      · refine Or.inr (Or.inr ⟨rfl, owner, howner, rfl, other, hother, ?_⟩)
        rcases halike with heq | hid
        · exact heq ▸ hsame
        · exact Value.same_trans _ _ _ hsame hid
    · refine Or.inl ⟨owner, howner, rfl, record, ?_, hsame⟩
      rw [items_replaceCollection_of_ne hname]
      exact hrecord
  · exact Or.inr (Or.inl hallowed)

/-- Once its links are removed, a record that is gone leaves nothing behind. -/
theorem Tidy.unlinkAll {rest : List Record} (hmodel : model ∈ schema.models)
    (h : store.Tidy schema (Departing schema model (record :: rest) P)) :
    (store.unlinkAll model record).Tidy schema (Departing schema model rest P) := by
  -- an end is allowed without the record, or is its id
  have hsplit {name : String} {id : Value}
      (hend : store.HoldsId name id ∨ Departing schema model (record :: rest) P name id) :
      (store.HoldsId name id ∨ Departing schema model rest P name id) ∨
        (name = model.name ∧ Value.same id (model.recordId record) = true) := by
    rcases hend with hholds | hallowed | ⟨hname, owner, howner, hsame, gone, hgone, hid⟩
    · exact Or.inl (Or.inl hholds)
    · exact Or.inl (Or.inr (Or.inl hallowed))
    · rcases List.mem_cons.mp hgone with rfl | hrest
      · obtain rfl := Schema.eq_of_name_eq howner hmodel (hsame.trans hname)
        exact Or.inr ⟨hname, hid⟩
      · exact Or.inl (Or.inr (Or.inr ⟨hname, owner, howner, hsame, gone, hrest, hid⟩))
  unfold Store.unlinkAll
  dsimp only
  split
  · -- a record without an id is at no end of a link, since ends are keys
    rename_i hnull
    refine ⟨h.schema_eq, h.declared, fun hkeyed => (h.ends hkeyed).imp fun name id hends => ?_⟩
    obtain ⟨hkey, hend⟩ := hends
    refine ⟨hkey, (hsplit hend).resolve_right fun ⟨_, hid⟩ => ?_⟩
    have hsome := (Value.isKey_iff.mp hkey).1
    rw [Value.isNull_of_same hid, hnull] at hsome
    cases hsome
  · refine ⟨h.schema_eq, (Joins.reset_cleanup _ _ _).trans h.declared, fun hkeyed => ?_⟩
    refine Joins.EachEnd.cleanup ((h.ends hkeyed).imp fun name id ⟨hkey, hend⟩ => ?_)
    exact (hsplit hend).imp (fun hend => ⟨hkey, hend⟩)
      fun ⟨hname, hid⟩ => ⟨hname, Value.sameId_of_same hkey hid⟩

/-- A detached record of a joined model still has its id: it would have none otherwise, and that
    would have been told. -/
theorem HoldsId.detachedItems {scope : Record} {columns : List String}
    (hkeyed : (store.replaceCollection model.name
      (store.detachedItems model scope (Record.unbind columns []))).Keyed)
    (hjoined : store.schema.IsJoined name) (h : store.HoldsId name id) :
    (store.replaceCollection model.name
      (store.detachedItems model scope (Record.unbind columns []))).HoldsId name id := by
  obtain ⟨owner, howner, rfl, item, hitem, hsame⟩ := h
  by_cases hname : owner.name = model.name
  · let new := if Record.holdsAll item scope then
      Entries.insertAll item (Record.unbind columns []) else item
    have hnew : new ∈ store.detachedItems model scope (Record.unbind columns []) :=
      List.mem_map_of_mem (hname ▸ hitem)
    have hkey : (owner.recordId new).isKey = true :=
      hkeyed _ List.mem_cons_self (hname ▸ hjoined) owner howner hname new hnew
    have hid : owner.recordId new = owner.recordId item := by
      revert hkey
      dsimp only [new]
      split
      · exact Model.recordId_insertAll_unbind
      · exact fun _ => rfl
    refine ⟨owner, howner, rfl, new, ?_, hid ▸ hsame⟩
    rw [hname, items_replaceCollection_self]
    exact hnew
  · refine ⟨owner, howner, rfl, item, ?_, hsame⟩
    rw [items_replaceCollection_of_ne hname]
    exact hitem

/-- Detaching records leaves all links to stored records. -/
theorem Tidy.detach (h : store.Tidy schema P) (model : Model) (scope : Record)
    (columns : List String) :
    (store.detach model scope (Record.unbind columns [])).Tidy schema P := by
  unfold Store.detach
  split
  · refine ⟨h.schema_eq, h.declared, fun hkeyed join hjoin link hlink => ?_⟩
    have hends := h.ends hkeyed.of_replaceCollection join hjoin link hlink
    have hjoined {side : Side} (hside : side ∈ join.sides) :
        store.schema.IsJoined side.model := ⟨_, h.declared.mem hjoin, side, hside, rfl⟩
    refine hends.imp (fun ⟨hkey, hend⟩ => ⟨hkey, hend.imp_left fun hholds => ?_⟩)
      fun ⟨hkey, hend⟩ => ⟨hkey, hend.imp_left fun hholds => ?_⟩
    · exact hholds.detachedItems hkeyed (hjoined List.mem_cons_self)
    · exact hholds.detachedItems hkeyed
        (hjoined (List.mem_cons_of_mem _ (List.mem_singleton_self _)))
  · exact h

end Store

/-! ## Through a delete -/

namespace Write

open Store

variable {schema : Schema} {store : Store} {model : Model} {P : String → Value → Prop}

/-- A write that leaves a store tidy if it succeeds, whatever the property of the other ends. -/
def Tidies {α : Type} (schema : Schema) (w : Write α) : Prop :=
  ∀ P, Triple (Tidy schema P) w (fun _ => Tidy schema P) fun _ _ => True

/-- A delete succeeds, so it leaves a tidy store tidy. -/
theorem Tidies.ends {α : Type} {w : Write α} (h : Tidies schema w)
    (hsucceeds : ∀ bound, Shrinks bound w) (htidy : store.Tidy schema P) :
    Triple (· = store) w (fun _ => Tidy schema P) fun _ => Tidy schema P := by
  intro current hcurrent
  obtain ⟨a, next, hrun⟩ := Shrinks.succeeds hsucceeds store
  rw [hcurrent, hrun]
  exact (h P).ok htidy hrun

section

variable {cascade : Model → Record → Write Unit}
variable (hcascade : ∀ model ∈ schema.models, ∀ scope, Tidies schema (cascade model scope))
include hcascade

/-- Dependents are dealt with as the policy says, and the store ends tidy. -/
theorem tidies_applyPolicy (model : Model) (record : Record) (field : Field) :
    Tidies schema (applyPolicy cascade model record field) := by
  intro P
  refine Triple.bind_get fun current hcurrent => ?_
  have hidle {α : Type} {a : α} : Triple (fun store => store = current) (Pure.pure a : Write α)
      (fun _ => Tidy schema P) fun _ _ => True :=
    Triple.pure fun _ hstore => hstore ▸ hcurrent
  dsimp only
  split
  · exact hidle
  · rename_i linkage hlinkage
    by_cases howned : linkage.owned = true
    · rw [if_pos howned]
      exact hidle
    · rw [if_neg howned]
      split
      · refine Triple.bind_require (fun dependents hrelated => ?_) fun _ _ _ _ => trivial
        have hmember : dependents ∈ schema.models :=
          hcurrent.schema_eq ▸ Schema.mem_of_relatedModel hrelated
        split
        · exact (hcascade dependents hmember _ P).weaken (fun _ hstore => hstore ▸ hcurrent)
            fun _ _ h => h
        · obtain ⟨other, -, -, -, -, rfl⟩ :=
            Schema.declared_of_linkage hlinkage (Bool.not_eq_true _ ▸ howned) hrelated
          exact Triple.modify fun _ hstore => hstore ▸ hcurrent.detach _ _ _
        · exact hidle
      · exact hidle

variable (hmodel : model ∈ schema.models)
include hmodel

/-- What follows the removal of a record takes the links of the record away. -/
theorem triple_afterDelete (record : Record) (rest : List Record) :
    Triple (Tidy schema (Departing schema model (record :: rest) P))
      (afterDelete cascade model record)
      (fun _ => Tidy schema (Departing schema model rest P)) fun _ _ => True := by
  refine Triple.bind (M := fun _ => Tidy schema (Departing schema model rest P))
    (Triple.modify fun _ hstore => hstore.unlinkAll hmodel) fun _ => ?_
  exact Triple.forM (fun _ => Tidy schema (Departing schema model rest P)) _
    fun field _ _ => tidies_applyPolicy hcascade model record field _

/-- The records that are gone leave nothing behind once all of them are done with. -/
theorem triple_afterEach (gone : List Record) :
    Triple (Tidy schema (Departing schema model gone P)) (gone.forM (afterDelete cascade model))
      (fun _ => Tidy schema P) fun _ _ => True :=
  (Triple.forM (fun rest => Tidy schema (Departing schema model rest P)) gone
    fun record rest _ => triple_afterDelete hcascade hmodel record rest).weaken (fun _ h => h)
      fun _ _ h => h.of_departing_nil

end

/-- A cascade of any depth ends tidy, if it ends. -/
theorem tidies_deleteWithin (depth : Nat) : ∀ model ∈ schema.models, ∀ filter,
    Tidies schema (deleteWithin depth model filter) := by
  -- each level is done with the records that it removes before the level above goes on
  induction depth with
  | zero => exact fun _ _ _ _ => Triple.throw fun _ _ => trivial
  | succ depth ih =>
      intro model hmodel filter P
      unfold deleteWithin
      refine Triple.bind_get fun current hcurrent => ?_
      let items := current.items model.name
      let test (record : Record) : Bool := filter.all fun filter =>
        current.satisfies model record filter
      rw [List.partition_eq_filter_filter]
      dsimp only
      split
      · exact Triple.pure fun _ hstore => hstore ▸ hcurrent
      · have hremoved : (current.replaceCollection model.name (items.filter (not ∘ test))).Tidy
            schema (Departing schema model (items.filter test) P) := by
          refine hcurrent.remove hmodel fun record hrecord => ?_
          cases htest : test record with
          | true => exact Or.inr ⟨record, List.mem_filter.mpr ⟨hrecord, htest⟩, Or.inl rfl⟩
          | false => exact Or.inl (List.mem_filter.mpr ⟨hrecord, by simp [htest]⟩)
        refine Triple.bind
          (M := fun _ => Tidy schema (Departing schema model (items.filter test) P))
          (Triple.set fun _ _ => hremoved) fun _ => ?_
        refine Triple.bind (triple_afterEach (fun dependents hmember scope P => ?_) hmodel _)
          fun _ => Triple.pure fun _ h => h
        exact Triple.discard (ih dependents hmember (some scope) P)

section

variable (hmodel : model ∈ schema.models)
include hmodel

/-- So does a delete of what a filter selects. -/
theorem tidies_deleteMatching (filter : Option Record) :
    Tidies schema (deleteMatching model filter) := by
  intro P
  refine Triple.bind_get fun current hcurrent => ?_
  exact (tidies_deleteWithin _ model hmodel filter P).weaken (fun _ hstore => hstore ▸ hcurrent)
    fun _ _ h => h

/-- So does a delete of one record. -/
theorem tidies_deleteRecord (target : Record) : Tidies schema (deleteRecord model target) := by
  intro P
  refine Triple.bind_get fun current hcurrent => ?_
  split
  · exact Triple.pure fun _ hstore => hstore ▸ hcurrent
  · rename_i kept hkept
    have hremoved : (current.replaceCollection model.name kept).Tidy schema
        (Departing schema model [target] P) := by
      obtain ⟨before, old, later, hitems, -, hsame, rfl⟩ := split_of_removeFirst hkept
      refine hcurrent.remove hmodel fun record hrecord => ?_
      rw [hitems, List.mem_append, List.mem_cons] at hrecord
      rcases hrecord with hbefore | rfl | hlater
      · exact Or.inl (List.mem_append_left _ hbefore)
      · exact Or.inr ⟨target, List.mem_singleton_self _, Or.inr (model.recordId_of_same hsame)⟩
      · exact Or.inl (List.mem_append_right _ hlater)
    refine Triple.bind (M := fun _ => Tidy schema (Departing schema model [target] P))
      (Triple.set fun _ _ => hremoved) fun _ => ?_
    refine (triple_afterDelete (fun dependents hmember scope P => ?_) hmodel target []).weaken
      (fun _ h => h) fun _ _ h => h.of_departing_nil
    exact Triple.discard (tidies_deleteWithin _ dependents hmember (some scope) P)

/-- A delete that a client calls ends tidy whether it succeeds or fails. -/
theorem ends_delete (h : store.Tidy schema P) (args : Value) :
    Triple (· = store) (delete model args) (fun _ => Tidy schema P) fun _ => Tidy schema P := by
  have hsame : ∀ next, next = store → next.Tidy schema P := fun _ hnext => hnext ▸ h
  refine Triple.bind_require (fun args _ => ?_) fun _ _ => hsame
  refine Triple.bind_require (fun _ _ => ?_) fun _ _ => hsame
  refine Triple.bind (M := fun _ next => next = store) (Triple.bind_get fun current hcurrent => ?_)
    fun record => ?_
  · split
    · exact Triple.pure fun _ hnext => hnext.trans hcurrent
    · exact Triple.throw fun _ hnext => hsame _ (hnext.trans hcurrent)
  · -- the answer is shaped before anything is deleted
    refine Triple.bind (M := fun _ next => next = store)
      (Triple.bind_get fun current hcurrent => ?_) fun answer => ?_
    · exact Triple.require (fun _ _ hnext => hnext.trans hcurrent)
        fun _ _ hnext => hsame _ (hnext.trans hcurrent)
    · refine Triple.bind ((tidies_deleteRecord hmodel record).ends
        (fun bound => shrinks_deleteRecord bound model record) h) fun _ => ?_
      exact Triple.pure fun _ hnext => hnext

/-- So does one of many records. -/
theorem ends_deleteMany (h : store.Tidy schema P) (args : Value) :
    Triple (· = store) (deleteMany model args) (fun _ => Tidy schema P)
      fun _ => Tidy schema P := by
  refine Triple.bind_require (fun args _ => ?_) fun _ _ _ hnext => hnext ▸ h
  refine Triple.bind ((tidies_deleteMatching hmodel args.filter).ends
    (fun bound => shrinks_deleteMatching bound model args.filter) h) fun _ => ?_
  exact Triple.pure fun _ hnext => hnext

end

end Write

end RecordStore
