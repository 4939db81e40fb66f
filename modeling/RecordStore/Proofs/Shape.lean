import RecordStore.Proofs.Columns
import RecordStore.Proofs.Relation.BothEnds
import RecordStore.Proofs.Run

/-!
# The shape of records

A stored record has the plain fields of its model, all of them, in order of declaration, and nothing
else.  A new record is laid out so; from then on values are only written into fields that are
there, since updates write plain fields, and links are bound and nulled in key columns, which are
plain fields too.
-/

namespace RecordStore

/-- A record has the plain fields of a model, in their order, and nothing else. -/
def Model.Shapes (model : Model) (record : Record) : Prop :=
  Entries.keys record = model.scalarFields.map (·.name)

/-- The fields of each model have different names, and key columns are plain fields of the model
    that declares them. -/
structure Schema.NamesFields (schema : Schema) : Prop where
  distinct : ∀ model ∈ schema.models, (model.fields.map (·.name)).Nodup
  columns : ∀ model ∈ schema.models, ∀ field ∈ model.relationFields,
    field.fromFields ⊆ model.scalarFields.map (·.name)

/-! ## Records -/

namespace Model.Shapes

variable {model : Model} {record : Record} {name : String}

/-- A value in a plain field keeps the shape. -/
theorem insert (h : model.Shapes record) (hname : name ∈ model.scalarFields.map (·.name))
    (value : Value) : model.Shapes (Entries.insert name value record) := by
  rw [← show Entries.keys record = _ from h] at hname
  have hpresent := (Entries.mem_keys_iff name record).mp hname
  exact (Entries.keys_insert_of_contains hpresent value).trans h

/-- So do nulls in columns that are plain fields. -/
theorem insertAll_unbind (h : model.Shapes record) {columns : List String}
    (hcolumns : columns ⊆ model.scalarFields.map (·.name)) :
    model.Shapes (Entries.insertAll record (Record.unbind columns [])) := by
  refine (Entries.keys_insertAll_of_subset fun name hname => ?_).trans h
  rcases (Record.mem_keys_unbind columns name []).mp hname with hcolumn | hnil
  · exact h ▸ hcolumns hcolumn
  · cases hnil

end Model.Shapes

namespace Store

/-- Fields that a record does not have yet are laid out behind those that it has. -/
theorem keys_layFields (model : Model) (fields : List Field) :
    ∀ (given record : Record) (store : Store),
      (Entries.keys record ++ fields.map (·.name)).Nodup →
        Entries.keys (layFields model fields given record store).1 =
          Entries.keys record ++ fields.map (·.name) := by
  induction fields with
  | nil => exact fun _ record _ _ => (List.append_nil _).symm
  | cons field rest ih =>
      intro given record store hdistinct
      have habsent : Entries.contains field.name record = false := by
        rw [← Bool.not_eq_true, ← Entries.mem_keys_iff]
        exact fun hmem => (List.nodup_append.mp hdistinct).2.2 _ hmem _ List.mem_cons_self rfl
      have hnext (value : Value) :
          Entries.keys (Entries.insert field.name value record) ++ rest.map (·.name) =
            Entries.keys record ++ (field :: rest).map (·.name) := by
        rw [Entries.keys_insert_of_not_contains habsent, List.append_assoc]
        rfl
      rw [← hnext (layField model field (Record.valueAt field.name given) store).1] at hdistinct ⊢
      exact ih _ _ _ hdistinct

/-- A record that is laid out by a model has its shape. -/
theorem shapes_materialize {model : Model} (hdistinct : (model.fields.map (·.name)).Nodup)
    (given : Record) (store : Store) : model.Shapes (materialize model given store).1 := by
  refine keys_layFields model model.scalarFields given [] store ?_
  exact (List.filter_sublist.map _).nodup hdistinct

/-! ## Stores -/

/-- Every record has the shape of the model of its collection. -/
def Shaped (store : Store) : Prop :=
  ∀ collection ∈ store.snapshot, ∀ record ∈ collection.2,
    ∃ model ∈ store.schema.models, model.name = collection.1 ∧ model.Shapes record

variable {store : Store} {model : Model} {record : Record}

/-- A stored record has the shape of its model. -/
theorem Shaped.shapes (h : store.Shaped) (hmodel : model ∈ store.schema.models)
    (hrecord : record ∈ store.items model.name) : model.Shapes record := by
  unfold items at hrecord
  cases hfound : Entries.get? model.name store.collections with
  | none => rw [hfound] at hrecord; cases hrecord
  | some records =>
      rw [hfound] at hrecord
      obtain ⟨other, hother, hname, hshapes⟩ :=
        h _ (Entries.mem_of_get?_eq_some hfound) record hrecord
      exact Schema.eq_of_name_eq hother hmodel hname ▸ hshapes

/-- Only the collection that is written has to be looked at. -/
theorem Shaped.replaceCollection (h : store.Shaped) {name : String} {records : List Record}
    (hnew : ∀ record ∈ records, ∃ model ∈ store.schema.models,
      model.name = name ∧ model.Shapes record) : (store.replaceCollection name records).Shaped := by
  intro collection hcollection
  rcases Entries.mem_insert hcollection with rfl | hold
  · exact hnew
  · exact h collection hold

/-- A model's collection may be replaced by records of its shape. -/
theorem Shaped.replaceItems (h : store.Shaped) (hmodel : model ∈ store.schema.models)
    {records : List Record} (hnew : ∀ record ∈ records, model.Shapes record) :
    (store.replaceCollection model.name records).Shaped :=
  h.replaceCollection fun record hrecord => ⟨model, hmodel, rfl, hnew record hrecord⟩

/-- The shape of records, as an upkeep. -/
def shape (schema : Schema) : Upkeep where
  Holds store := store.schema = schema ∧ store.Shaped
  Knows _ model record := model.Shapes record
  Admits model record := model.Shapes record

theorem lawful_shape {schema : Schema} (hnames : schema.NamesFields) :
    (shape schema).Lawful schema := by
  have hleads {store next : Store} (hschema : next.schema = schema) (hshaped : next.Shaped) :
      (shape schema).Leads store next := ⟨⟨hschema, hshaped⟩, fun _ _ hknown => hknown⟩
  constructor
  case schema_eq => exact fun hstore => hstore.1
  case stored => exact fun ⟨hschema, hshaped⟩ hmodel => hshaped.shapes (hschema ▸ hmodel)
  case fit => exact fun _ hshapes => hshapes
  case laid => exact fun given store hmodel =>
    shapes_materialize (hnames.distinct _ hmodel) given store
  case filled => exact fun value hshapes hfield =>
    hshapes.insert (List.mem_map_of_mem hfield) value
  case bound => exact fun value hmodel hshapes hfield hcolumn =>
    hshapes.insert (hnames.columns _ hmodel _ hfield hcolumn) value
  case supply => exact fun _ _ ⟨hschema, hshaped⟩ _ => hleads hschema hshaped
  case insert =>
    rintro store model record ⟨rfl, hshaped⟩ hmodel hrecord _
    refine ⟨hleads rfl (hshaped.replaceItems hmodel ?_), hrecord⟩
    refine List.forall_mem_append.mpr ⟨fun _ => hshaped.shapes hmodel, ?_⟩
    exact List.forall_mem_singleton.mpr hrecord
  case same => exact fun _ _ _ hshapes _ => hshapes
  case replace =>
    rintro store changed model current next ⟨rfl, hshaped⟩ hmodel hnext _ hswap
    obtain ⟨replaced, hreplaced, rfl⟩ := Option.map_eq_some_iff.mp hswap
    refine ⟨hleads rfl (hshaped.replaceItems hmodel fun record hrecord => ?_), hnext⟩
    -- each record is the new one or was there before
    obtain ⟨before, old, later, hitems, -, -, rfl⟩ := split_of_replaceFirst hreplaced
    rcases List.mem_append.mp hrecord with hbefore | hlater
    · exact hshaped.shapes hmodel (hitems ▸ List.mem_append_left _ hbefore)
    · rcases List.mem_cons.mp hlater with rfl | hlater
      · exact hnext
      · exact hshaped.shapes hmodel
          (hitems ▸ List.mem_append_right _ (List.mem_cons_of_mem _ hlater))
  case remove =>
    rintro store name kept ⟨rfl, hshaped⟩ hfewer
    refine hleads rfl (hshaped.replaceCollection fun record hrecord => ?_)
    have hmem := hfewer.subset hrecord
    unfold items at hmem
    cases hfound : Entries.get? name store.collections with
    | none => rw [hfound] at hmem; cases hmem
    | some records =>
        rw [hfound] at hmem
        exact hshaped _ (Entries.mem_of_get?_eq_some hfound) record hmem
  case detach =>
    rintro store model field scope ⟨rfl, hshaped⟩ hmodel hfield
    unfold Store.detach
    split
    · refine hleads rfl (hshaped.replaceItems hmodel fun record hrecord => ?_)
      obtain ⟨item, hitem, rfl⟩ := List.mem_map.mp hrecord
      split
      · exact (hshaped.shapes hmodel hitem).insertAll_unbind (hnames.columns _ hmodel _ hfield)
      · exact hshaped.shapes hmodel hitem
    · exact hleads rfl hshaped
  case link => exact fun ⟨hschema, hshaped⟩ _ _ _ _ _ _ => hleads hschema hshaped
  case unlink => exact fun _ _ _ _ ⟨hschema, hshaped⟩ => hleads hschema hshaped
  case cleanup => exact fun _ _ ⟨hschema, hshaped⟩ => hleads hschema hshaped

/-- After any run of a client every record of every collection has exactly the plain fields of its
    model, in order of declaration. -/
theorem shaped_run {schema : Schema} (hnames : schema.NamesFields) (clock : Int)
    (entropy : Entropy) (requests : List Request) :
    ∀ collection ∈ ((ofSchema schema clock entropy).run requests).snapshot,
      ∀ record ∈ collection.2, ∃ model ∈ schema.models, model.name = collection.1 ∧
        Entries.keys record = model.scalarFields.map (·.name) := by
  have hempty : (ofSchema schema clock entropy).Shaped := by
    intro collection hcollection record hrecord
    obtain ⟨model, -, rfl⟩ := List.mem_map.mp hcollection
    cases hrecord
  obtain ⟨hschema, hshaped⟩ := Upkeep.holds_run (lawful_shape hnames) (fun _ h => h)
    (fun _ _ h => h) requests _ ⟨rfl, hempty⟩
  intro collection hcollection record hrecord
  exact hschema ▸ hshaped collection hcollection record hrecord

end Store

namespace Library

open Store

/-- An author comes with a book and the book with a tag; then the book leaves its author, and asks
    in vain for one that does not exist. -/
def publishing : List Request := [
  .write .create "Author" (.object [("data", .object [
    ("books", .object [("create", .object [("title", .string "unknown"), ("id", .integer 7),
      ("tags", .object [("create", .object [("id", .string "t")])])])]),
    ("id", .integer 1)])]),
  .write .update "Book" (.object [("where", .object [("id", .integer 7)]),
    ("data", .object [("author", .object [("disconnect", .bool true)])])]),
  .write .update "Book" (.object [("where", .object [("id", .integer 7)]),
    ("data", .object [("author", .object [("connect", .object [("id", .integer 2)])])])])]

theorem shaped_run_publishing :
    (((ofSchema schema 0 ⟨0⟩).run publishing).snapshot.map fun collection =>
        (collection.1, collection.2.map Entries.keys)) =
      [("Author", [["id"]]), ("Book", [["id", "authorId"]]), ("Tag", [["id"]])] ∧
    ∀ collection ∈ ((ofSchema schema 0 ⟨0⟩).run publishing).snapshot,
      ∀ record ∈ collection.2, ∃ model ∈ schema.models, model.name = collection.1 ∧
        Entries.keys record = model.scalarFields.map (·.name) :=
  ⟨by decide, shaped_run ⟨by decide, by decide⟩ 0 ⟨0⟩ publishing⟩

end Library

end RecordStore
