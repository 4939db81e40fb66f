import RecordStore.Proofs.Relation.Dependents
import RecordStore.Proofs.Relation.KeyColumns

/-!
# Nested writes by recursion on the payload

Where key columns are plain fields, writing them asks for no further nested write, and a part of a
payload asks for nothing that its own parts do not.  Creates and updates could therefore be defined
without a bound on their nesting, by recursion on the payload.  That comes to the same as the
bounded ones, and so does every bound greater than the depth of the payload.
-/

namespace RecordStore

namespace Schema

variable {schema : Schema} {related : Model} {part data columns : Record}

/-- Key columns are plain fields. -/
theorem KeyColumns.hasColumn (hcolumns : schema.ScalarColumns)
    (h : schema.KeyColumns related columns) :
    ∀ entry ∈ columns, related.HasColumn entry.1 := by
  cases h with
  | scope hmodel hfield hrelated hlinkage hscope =>
      exact hcolumns.scope hmodel hfield hrelated hlinkage hscope
  | detached hmodel hfield hrelated hlinkage =>
      exact fun entry hentry => hcolumns.foreign hmodel hfield hrelated hlinkage _
        (Linkage.mem_detached entry hentry).1

/-- So no relation is written through them. -/
theorem KeyColumns.not_relation (hcolumns : schema.ScalarColumns)
    (hrelated : related ∈ schema.models) (h : schema.KeyColumns related columns)
    {entry : String × Value} (hentry : entry ∈ columns) :
    ¬ (related.relation? entry.1).isSome = true := by
  rw [(h.hasColumn hcolumns entry hentry).relation? (hcolumns.distinct related hrelated)]
  exact Bool.false_ne_true

/-- The relations that a part with key columns writes through are those of the part. -/
theorem Extends.mem_part (hcolumns : schema.ScalarColumns) (hrelated : related ∈ schema.models)
    (h : schema.Extends related part data) :
    ∀ entry ∈ data, (related.relation? entry.1).isSome = true → entry ∈ part := by
  intro entry hentry hrelation
  rcases h with rfl | ⟨columns, hkeys, rfl⟩
  · exact hentry
  · exact (Entries.mem_insertAll hentry).resolve_right fun hcolumn =>
      hkeys.not_relation hcolumns hrelated hcolumn hrelation

end Schema

namespace NestedWrites

open Store Write

open Classical in
/-- The creates and updates that a payload may ask for, without a bound on their nesting.  What is
    made of a part of the payload may ask for what that part asks for; what is made of key columns
    alone runs without nested writes; and there is nothing else. -/
noncomputable def descending (schema : Schema) (given : Record) : NestedWrites :=
  { create := fun related data =>
      if schema.Asks given related data then
        (if h : ∃ part, PartOf part given ∧ schema.Extends related part data then
          descending schema h.choose else within 0).createStep related data
      else throw .nestingExceeded
    update := fun related current data =>
      if schema.Asks given related data then
        (if h : ∃ part, PartOf part given ∧ schema.Extends related part data then
          descending schema h.choose else within 0).updateStep related current data
      else throw .nestingExceeded }
termination_by Value.fieldsDepth given
decreasing_by all_goals exact h.choose_spec.1.fieldsDepth_lt

open Classical in
/-- The nested writes of what a payload asks for: those of a part of it, or none. -/
noncomputable def ofPart (schema : Schema) (given : Record) (related : Model) (data : Record) :
    NestedWrites :=
  if h : ∃ part, PartOf part given ∧ schema.Extends related part data then
    descending schema h.choose else within 0

variable {schema : Schema} {given data : Record} {nested nested' : NestedWrites}
  {related : Model}

/-- What a payload asks to create is created with the nested writes of the part it is made of. -/
theorem create_descending (h : schema.Asks given related data) :
    (descending schema given).create related data =
      (ofPart schema given related data).createStep related data := by
  rw [descending]
  exact if_pos h

/-- So is what it asks to update updated. -/
theorem update_descending (h : schema.Asks given related data) (current : Record) :
    (descending schema given).update related current data =
      (ofPart schema given related data).updateStep related current data := by
  rw [descending]
  exact if_pos h

/-- Two ways of nested writing that come to the same on all that a payload may ask for, though never
    to nesting too deeply. -/
abbrev AgreeOnPayload (schema : Schema) (given : Record) (nested nested' : NestedWrites) : Prop :=
  AgreeOn (schemaKept schema) (· ≠ .nestingExceeded) (Asking.ofPayload schema given) nested nested'

/-- Nothing else that a write fails for is that it nests too deeply. -/
theorem allows_bounded (schema : Schema) :
    (schemaKept schema).Allows (· ≠ .nestingExceeded) schema :=
  ⟨lawful_schemaKept schema, WriteFault.ne_nestingExceeded⟩

/-- An empty payload asks for nothing. -/
theorem agreeOn_nil (nested nested' : NestedWrites) : AgreeOnPayload schema [] nested nested' := by
  have hnothing {related : Model} {data : Record} : ¬ schema.Asks [] related data := by
    rintro (⟨part, hpart, -⟩ | ⟨hne, -⟩)
    · exact hpart.ne_nil rfl
    · exact hne rfl
  exact ⟨fun _ _ h => (hnothing h).elim, fun _ _ h _ => (hnothing h).elim⟩

/-- Two ways that agree with a third one agree. -/
theorem AgreeOn.of_common {third : NestedWrites} (h : AgreeOnPayload schema given nested third)
    (h' : AgreeOnPayload schema given nested' third) :
    AgreeOnPayload schema given nested nested' where
  create store hrelated hasks hstore :=
    (h.create store hrelated hasks hstore).of_common (h'.create store hrelated hasks hstore)
  update store hrelated hasks hcurrent hstore :=
    (h.update store hrelated hasks hcurrent hstore).of_common
      (h'.update store hrelated hasks hcurrent hstore)

section

variable (hrelated : related ∈ schema.models)
include hrelated

/-- What goes through no relations but those of a payload is created alike by two ways of nested
    writing that come to the same on what the payload may ask for. -/
theorem alike_createStep_of_agree {part : Record} (hnested : AgreeOnPayload schema part nested nested')
    (hdata : ∀ entry ∈ data, (related.relation? entry.1).isSome = true → entry ∈ part)
    (store : Store) :
    (schemaKept schema).RunsAlike (· ≠ .nestingExceeded) store (nested.createStep related data)
      (nested'.createStep related data) :=
  (Upkeep.alike_createStep (allows_bounded schema) hnested hrelated fun entry hentry hrelation =>
    ⟨entry, hdata entry hentry hrelation, .refl⟩).runs

/-- So it is updated. -/
theorem alike_updateStep_of_agree {part : Record} (hnested : AgreeOnPayload schema part nested nested')
    (hdata : ∀ entry ∈ data, (related.relation? entry.1).isSome = true → entry ∈ part)
    (current : Record) (store : Store) :
    (schemaKept schema).RunsAlike (· ≠ .nestingExceeded) store
      (nested.updateStep related current data) (nested'.updateStep related current data) :=
  (Upkeep.alike_updateStep (allows_bounded schema) hnested hrelated
    (fun entry hentry hrelation => ⟨entry, hdata entry hentry hrelation, .refl⟩) trivial).runs

variable (hcolumns : schema.ScalarColumns)
include hcolumns

/-- What is asked for goes through no relations but those of a part of the payload, so it is enough
    to know how the nested writes of parts run. -/
theorem exists_agreeOn_ofPart (hasks : schema.Asks given related data)
    (h : ∀ part, PartOf part given → AgreeOnPayload schema part nested (descending schema part)) :
    ∃ part, (∀ entry ∈ data, (related.relation? entry.1).isSome = true → entry ∈ part) ∧
      AgreeOnPayload schema part nested (ofPart schema given related data) := by
  unfold ofPart
  by_cases hpart : ∃ part, PartOf part given ∧ schema.Extends related part data
  · obtain ⟨hmem, hextends⟩ := hpart.choose_spec
    rw [dif_pos hpart]
    exact ⟨_, hextends.mem_part hcolumns hrelated, h _ hmem⟩
  · obtain ⟨-, hkeys⟩ := hasks.resolve_left hpart
    exact ⟨[], fun _ hentry hrelation =>
      (hkeys.not_relation hcolumns hrelated hentry hrelation).elim, agreeOn_nil _ _⟩

end

/-- Any bound greater than the depth of a payload is enough for what it may ask for. -/
theorem agreeOn_descending (hcolumns : schema.ScalarColumns) (depth : Nat) :
    ∀ given, Value.fieldsDepth given < depth →
      AgreeOnPayload schema given (within depth) (descending schema given) := by
  induction depth with
  | zero => exact fun _ hdepth => absurd hdepth (Nat.not_lt_zero _)
  | succ depth ih =>
      intro given hdepth
      -- a part is nested less deeply, so what is left of the bound is enough for it
      have hparts (part : Record) (hpart : PartOf part given) :
          AgreeOnPayload schema part (within depth) (descending schema part) :=
        ih part (Nat.lt_of_lt_of_le hpart.fieldsDepth_lt (Nat.le_of_lt_succ hdepth))
      constructor
      · intro related data store hrelated hasks
        obtain ⟨part, hdata, hpart⟩ := exists_agreeOn_ofPart hrelated hcolumns hasks hparts
        rw [create_descending hasks]
        exact (alike_createStep_of_agree hrelated hpart hdata store).imp fun _ _ _ _ => trivial
      · intro related current data store hrelated hasks _
        obtain ⟨part, hdata, hpart⟩ := exists_agreeOn_ofPart hrelated hcolumns hasks hparts
        rw [update_descending hasks]
        exact (alike_updateStep_of_agree hrelated hpart hdata current store).imp
          fun _ _ _ _ => trivial

end NestedWrites

namespace Write

open NestedWrites Store

variable {α : Type}

/-- On a store a write comes to the same as another one, and not to nesting too deeply. -/
def Completes (store : Store) (w w' : Write α) : Prop :=
  w'.outcome store = w.outcome store ∧ ∀ next, w.outcome store ≠ (.error .nestingExceeded, next)

/-- Writes that are alike come to the same on the store itself. -/
theorem completes_of_alike {store : Store} {w w' : Write α} (h : (schemaKept store.schema).RunsAlike
    (· ≠ .nestingExceeded) store w w') : Completes store w w' := by
  have hagree := h ⟨rfl, trivial⟩
  exact ⟨hagree.same store rfl, fun _ hrun => (hagree.triple.error rfl hrun).2 rfl⟩

/-- **Nested writes come to an end** on every schema whose key columns are plain fields, on every
    store of it and for every payload.  What is linked is found without following any other link.
    Key columns are written in the same way whatever nested writes are like, since they ask for
    none.  And a payload comes to the same whether nesting is bounded, by any number greater than
    its depth, or each nested write is only asked to be for a smaller part of the payload, with or
    without key columns, or for key columns alone. -/
theorem writes_descend (store : Store) (hcolumns : store.schema.ScalarColumns) :
    (∀ model ∈ store.schema.models, ∀ field ∈ model.relationFields, ∀ record links,
      store.linkedBy links model field record = store.related model field record) ∧
    (∀ related ∈ store.schema.models, ∀ columns, store.schema.KeyColumns related columns →
      (∀ entry ∈ columns, related.HasColumn entry.1) ∧ ∀ nested nested' : NestedWrites,
        Completes store (nested.createStep related columns) (nested'.createStep related columns) ∧
        ∀ current, Completes store (nested.updateStep related current columns)
          (nested'.updateStep related current columns)) ∧
    ∀ model ∈ store.schema.models, ∀ data nested,
      nested = descending store.schema data ∨
          (∃ depth > Value.fieldsDepth data, nested = within depth) →
        Completes store (createRecord model data) (nested.createStep model data) ∧
        (∀ current, Completes store (updateRecord model current data)
          (nested.updateStep model current data)) ∧
        ∀ filter, Completes store (updateMatching model filter data)
          (updateMatchingWith nested.updateStep model filter data) := by
  refine ⟨fun model hmodel field hfield => Store.linkedBy_eq_related hcolumns hmodel hfield,
    fun related hrelated columns hkeys => ⟨hkeys.hasColumn hcolumns, fun nested nested' => ?_⟩,
    fun model hmodel data nested hnested => ?_⟩
  · -- key columns go through no relation, so what nested writes are like does not matter
    have hnothing : ∀ entry ∈ columns, (related.relation? entry.1).isSome = true → entry ∈ [] :=
      fun _ hentry hrelation => (hkeys.not_relation hcolumns hrelated hentry hrelation).elim
    have hnil : AgreeOnPayload store.schema [] nested nested' := agreeOn_nil nested nested'
    exact ⟨completes_of_alike (alike_createStep_of_agree hrelated hnil hnothing store),
      fun current =>
        completes_of_alike (alike_updateStep_of_agree hrelated hnil hnothing current store)⟩
  · have hpayload : AgreeOnPayload store.schema data (inPayload data) nested := by
      have hbounded : AgreeOnPayload store.schema data (inPayload data)
          (descending store.schema data) :=
        agreeOn_descending hcolumns _ data (Nat.lt_add_of_pos_right (by decide))
      rcases hnested with rfl | ⟨depth, hdepth, rfl⟩
      · exact hbounded
      · exact hbounded.of_common (agreeOn_descending hcolumns depth data hdepth)
    have hself : ∀ entry ∈ data, (model.relation? entry.1).isSome = true → entry ∈ data :=
      fun _ hentry _ => hentry
    have hupdate := alike_updateStep_of_agree hmodel hpayload hself
    exact ⟨completes_of_alike (alike_createStep_of_agree hmodel hpayload hself store),
      fun current => completes_of_alike (hupdate current store),
      fun filter => completes_of_alike (Upkeep.alike_updateMatchingWith
        (allows_bounded store.schema) hmodel (fun current next _ => hupdate current next) filter)⟩

end Write

/-! Notes of persons, and replies to notes, which are notes themselves. -/

namespace Forum

open Store Write NestedWrites

def person : Model where
  name := "Person"
  fields := [
    { name := "id", kind := .scalar, typeName := "Int", isId := true },
    { name := "notes", kind := .relation, typeName := "Note", isList := true,
      relationName := some "written" }]

def note : Model where
  name := "Note"
  fields := [
    { name := "id", kind := .scalar, typeName := "Int", isId := true },
    { name := "personId", kind := .scalar, typeName := "Int" },
    { name := "person", kind := .relation, typeName := "Person", relationName := some "written",
      fromFields := ["personId"], toFields := ["id"] },
    { name := "parentId", kind := .scalar, typeName := "Int" },
    { name := "parent", kind := .relation, typeName := "Note", relationName := some "thread",
      fromFields := ["parentId"], toFields := ["id"] },
    { name := "replies", kind := .relation, typeName := "Note", isList := true,
      relationName := some "thread" }]

def schema : Schema := ⟨{}, [person, note], by decide, by decide⟩

def store : Store := ofSchema schema 0 ⟨0⟩

/-- A person with a note that has two replies already. -/
def thread : Record :=
  [("id", .integer 1),
    ("notes", .object [("create", .object [("id", .integer 1),
      ("replies", .object [("create", .array [.object [("id", .integer 2)],
        .object [("id", .integer 3)]])])])])]

/-- The thread is stored as a whole, and six levels are more than it needs. -/
theorem create_thread :
    store.schema.ScalarColumns ∧ person ∈ store.schema.models ∧
      ((createRecord person thread).after store).recordCount = 4 ∧
      Completes store (createRecord person thread)
        ((descending store.schema thread).createStep person thread) ∧
      Completes store (createRecord person thread) ((within 6).createStep person thread) := by
  have hcolumns : store.schema.ScalarColumns := ⟨by decide, by decide, by decide⟩
  have hperson : person ∈ store.schema.models := List.mem_cons_self
  have hcreate := (writes_descend store hcolumns).2.2 person hperson thread
  have hdepth : Value.fieldsDepth thread < 6 := by decide
  exact ⟨hcolumns, hperson, by decide, (hcreate _ (Or.inl rfl)).1,
    (hcreate _ (Or.inr ⟨6, hdepth, rfl⟩)).1⟩

end Forum

end RecordStore
