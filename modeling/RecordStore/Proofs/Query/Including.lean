import RecordStore.Proofs.Query.Faults
import RecordStore.Proofs.Query.Pages
import RecordStore.Proofs.Query.Sorting
import RecordStore.Proofs.Relation.Grounded

/-!
# Records included in others

An inclusion of a list of linked records answers what a query for these records answers: the
linkage of the relation is one more condition of the query, and whatever else the nested arguments
ask for is done alike.  The counts of linked records, the inclusion and the order by a count agree
on how many they are.
-/

namespace RecordStore

/-! ## Nested arguments -/

namespace Arguments

variable {fields : Record} {args : FindArguments}

/-- An object that may be absent is the one that is found. -/
theorem eq_of_object? {name : String} {found : Option Record}
    (h : object? name fields = some found) :
    found = (Entries.get? name fields).bind Value.object? := by
  unfold object? Members.nullable at h
  cases hget : Entries.get? name fields with
  | none =>
      rw [hget] at h
      exact (Option.some.inj h).symm
  | some value =>
      rw [hget] at h
      cases value with
      | null => exact (Option.some.inj h).symm
      | object members => exact (Option.some.inj h).symm
      | _ => cases h

/-- The projection of nested arguments is what stands under `select` and `include`. -/
theorem projection_of_find (h : find (.object fields) = .ok args) :
    args.projection =
      { select := (Entries.get? "select" fields).bind Value.object?
        inclusion := (Entries.get? "include" fields).bind Value.object? } := by
  unfold find parse at h
  simp only [Value.isNull, Bool.false_eq_true, if_false, Members.ofValue?, Option.bind_some] at h
  split at h
  case h_2 => cases h
  case h_1 read hread =>
    cases h
    simp only [Option.bind_eq_bind, Option.bind_eq_some_iff, projection] at hread
    obtain ⟨_, _, _, _, _, _, _, _, _, _, _, _, _, ⟨_, hselect, _, hinclude, hprojection⟩,
      hargs⟩ := hread
    cases hprojection
    cases hargs
    rw [eq_of_object? hselect, eq_of_object? hinclude]

end Arguments

namespace Projection

variable {store : Store} {model related : Model} {field : Field} {record item : Record}
  {fields : Record} {args : FindArguments}

/-- Of different members, the one under `select` or `include` shapes a record. -/
theorem shapeUnder_eq (hnodup : (Entries.keys fields).Nodup)
    (hone : (Entries.get? "select" fields).bind Value.object? = none ∨
      (Entries.get? "include" fields).bind Value.object? = none) :
    shapeUnder store model record fields =
      match (Entries.get? "select" fields).bind Value.object?,
        (Entries.get? "include" fields).bind Value.object? with
      | some keys, _ => extend store model record true [] keys
      | none, some keys => extend store model record false record keys
      | none, none => .ok record := by
  induction fields with
  | nil => rfl
  | cons entry rest ih =>
      obtain ⟨name, value⟩ := entry
      obtain ⟨hfresh, hrest⟩ := List.nodup_cons.mp hnodup
      have habsent : Entries.get? name rest = none :=
        Option.not_isSome_iff_eq_none.mp (mt (Entries.mem_keys_iff name rest).mpr hfresh)
      -- a member that is no object stands for none
      have hskip (h : value.object? = none) (key : String) :
          (Entries.get? key ((name, value) :: rest)).bind Value.object? =
            (Entries.get? key rest).bind Value.object? := by
        rw [Entries.get?_cons]
        split
        case isTrue hkey => rw [← hkey, habsent]; exact h
        case isFalse => rfl
      cases value with
      | object keys =>
          by_cases hselect : name = "select"
          · subst hselect
            rfl
          · by_cases hinclude : name = "include"
            · subst hinclude
              rcases hone with hnone | hnone
              · rw [hnone]
                rfl
              · cases hnone
            · simp only [Entries.get?_cons, if_neg hselect, if_neg hinclude] at hone ⊢
              rw [shapeUnder, if_neg hselect, if_neg hinclude]
              exact ih hrest hone
      | _ =>
          rw [hskip rfl, hskip rfl] at hone ⊢
          exact ih hrest hone

/-- Nested arguments shape a record by the projection that is read from them. -/
theorem shapeUnder_of_find (hnodup : (Entries.keys fields).Nodup)
    (hfind : Arguments.find (.object fields) = .ok args) (hcheck : args.projection.check = .ok ()) :
    shapeUnder store model record fields = args.projection.shape store model record := by
  have hprojection := Arguments.projection_of_find hfind
  rw [shape, hcheck, hprojection]
  refine shapeUnder_eq hnodup ?_
  rw [check, hprojection] at hcheck
  split at hcheck
  case isTrue => cases hcheck
  case isFalse hone =>
    rwa [Bool.and_eq_true, not_and_or, Option.not_isSome_iff_eq_none,
      Option.not_isSome_iff_eq_none] at hone

/-- Records are shaped one by one, and then shown as objects. -/
theorem mapM_object {shape : Record → Except Error Record} (records : List Record) :
    (records.mapM fun record => (shape record).map Value.object) =
      (records.mapM shape).map (List.map Value.object) := by
  induction records with
  | nil => rfl
  | cons record rest ih =>
      rw [List.mapM_cons, List.mapM_cons, ih]
      cases shape record with
      | error e => rfl
      | ok shaped => cases rest.mapM shape <;> rfl

/-- The records linked through a relation to a list are found by a query over them. -/
theorem resolve_list (hlist : field.isList = true)
    (hrelated : store.schema.relatedModel field = .ok related)
    (hnodup : (Entries.keys fields).Nodup) :
    resolve store model record field (.object fields) = (do
      let args ← Arguments.find (.object fields)
      let rows ← store.query related args (store.related model field record)
      return .array (rows.map .object)) := by
  simp only [resolve, hrelated, hlist, if_true]
  cases hfind : Arguments.find (.object fields) with
  | error e => rfl
  | ok args =>
      simp only [bind, Except.bind, pure, Except.pure, Store.query]
      cases hcheck : args.projection.check with
      | error e => rfl
      | ok _ =>
          simp only [shapeUnder_of_find hnodup hfind hcheck, mapM_object]
          cases (store.window related args (store.related model field record)).mapM
            (args.projection.shape store related) <;> rfl

/-- An inclusion of one relation adds what it resolves to. -/
theorem shape_include {name : String} (hfield : model.relation? name = some field)
    (hname : name ≠ "_count") :
    shape { inclusion := some [(name, .object fields)] } store model item =
      (resolve store model item field (.object fields)).map
        fun value => Entries.insert name value item := by
  obtain ⟨hfound, hrelation⟩ := Option.filter_eq_some_iff.mp hfield
  have henabled : (Value.object fields).isEnabled = true := rfl
  simp only [shape, check, Option.isSome_none, Bool.false_and, Bool.false_eq_true, if_false,
    extend, henabled, Bool.not_true, if_neg hname, hfound, hrelation, if_true]
  cases resolve store model item field (.object fields) <;> rfl

end Projection

namespace Store

variable {store : Store} {model related : Model} {field : Field} {item : Record}

/-- A query narrowed to a scope is a query over the records in the scope. -/
theorem window_narrow (scope : Record) (args : FindArguments) (records : List Record) :
    store.window related { args with filter := some (Filter.narrow scope args.filter) } records =
      store.window related args (store.select related (some scope) records) := by
  have hselect : store.select related (some (Filter.narrow scope args.filter)) records =
      store.select related args.filter (store.select related (some scope) records) := by
    cases args.filter with
    | none => rfl
    | some filter =>
        rw [select, select, select, List.filter_filter]
        exact List.filter_congr fun record _ => Filter.satisfies_narrow scope filter
  rw [window, hselect]
  rfl

/-- Grounded links through key columns lead to the records that satisfy the scope. -/
theorem Grounded.related_of_linkage (h : store.Grounded model field item)
    (hrelated : store.schema.relatedModel field = .ok related) {linkage : Linkage}
    (hlinkage : store.schema.linkage? model field = some linkage) :
    store.related model field item =
      match linkage.scope item with
      | some scope => store.select related (some scope) (store.items related.name)
      | none => [] := by
  rw [h.related_eq_linkedBy]
  simp only [linkedBy, Schema.model?_of_relatedModel hrelated, hlinkage]
  rfl

/-- The query that nested arguments stand for: one over the collection that is narrowed to a
    scope, or one over no records when there is no scope. -/
def findScoped (store : Store) (related : Model) (scope : Option Record) (args : FindArguments) :
    Except Error (List Record) :=
  match scope with
  | some scope =>
      store.find related { args with filter := some (Filter.narrow scope args.filter) }
  | none => store.query related args []

/-- A query over linked records is the query that nested arguments stand for. -/
theorem query_related (h : store.Grounded model field item)
    (hrelated : store.schema.relatedModel field = .ok related) {linkage : Linkage}
    (hlinkage : store.schema.linkage? model field = some linkage) (args : FindArguments) :
    store.query related args (store.related model field item) =
      store.findScoped related (linkage.scope item) args := by
  rw [h.related_of_linkage hrelated hlinkage]
  cases linkage.scope item with
  | none => rfl
  | some scope => simp only [findScoped, find, query, window_narrow]

end Store

/-! ## Counts -/

namespace Projection

variable {store : Store} {model related : Model} {field : Field} {item : Record} {name : String}
  {spec : Value}

/-- `_count` with a selection of one relation answers a number for it, whether it is selected
    itself or included. -/
structure CountsAs (store : Store) (model : Model) (item : Record) (name : String) (spec : Value)
    (number : Nat) : Prop where
  included :
    shape { inclusion := some [("_count", .object [("select", .object [(name, spec)])])] } store
      model item = .ok (Entries.insert "_count" (.object [(name, .integer number)]) item)
  selected :
    shape { select := some [("_count", .object [("select", .object [(name, spec)])])] } store
      model item = .ok [("_count", .object [(name, .integer number)])]

/-- The number is that of the linked records that satisfy the filter of the selection. -/
theorem countsAs_relation (store : Store) (item : Record)
    (hfield : model.relation? name = some field) (henabled : spec.isEnabled = true) :
    CountsAs store model item name spec
      (relationCount store model item field ((spec.get? "where").bind Value.object?)) := by
  have hcounts : counts store model item (.object [("select", .object [(name, spec)])]) =
      .ok [(name, .integer
        (relationCount store model item field ((spec.get? "where").bind Value.object?)))] := by
    have hselect : (Value.get? "select" (.object [("select", .object [(name, spec)])])).bind
        Value.object? = some [(name, spec)] := rfl
    simp only [counts, hselect, selectedCounts, List.foldlM_cons, List.foldlM_nil, henabled, hfield]
    rfl
  have harg : (Value.object [("select", .object [(name, spec)])]).isEnabled = true := rfl
  constructor
  case included =>
    simp only [shape, check, Option.isSome_none, Bool.false_and, Bool.false_eq_true, if_false,
      extend, harg, Bool.not_true, if_true, hcounts]
  case selected =>
    simp only [shape, check, Option.isSome_none, Bool.and_false, Bool.false_eq_true, if_false,
      extend, harg, Bool.not_true, if_true, hcounts]
    rfl

end Projection

namespace Store

variable {store : Store} {model : Model} {field : Field} {name : String}

/-- **Inclusions are scoped queries, and counts agree with them.**  An inclusion of a list of
    records linked by key columns answers the rows, or the error, of the query that its arguments
    stand for.  A count under a filter is the number of the linked records that satisfy it, which
    for a list is the length of the inclusion; a count without a filter is the number by which an
    order by the count sorts. -/
theorem include_scopes (hmodel : model ∈ store.schema.models)
    (hfield : model.relation? name = some field) (item : Record) :
    ∃ related, store.schema.relatedModel field = .ok related ∧
      (name ≠ "_count" → field.isList = true →
        ∀ linkage, store.schema.linkage? model field = some linkage →
          store.Grounded model field item → ∀ fields : Record, (Entries.keys fields).Nodup →
            Projection.shape { inclusion := some [(name, .object fields)] } store model item = (do
              let args ← Arguments.find (.object fields)
              let rows ← store.findScoped related (linkage.scope item) args
              return Entries.insert name (.array (rows.map .object)) item)) ∧
      (∀ filter : Record, ∃ number,
        number = (store.select related (some filter) (store.related model field item)).length ∧
        Projection.CountsAs store model item name (.object [("where", .object filter)]) number ∧
        (name ≠ "_count" → field.isList = true → ∃ rows,
          Projection.shape
              { inclusion := some [(name, .object [("where", .object filter)])] } store model item =
            .ok (Entries.insert name (.array rows) item) ∧ rows.length = number)) ∧
      ∀ spec direction key, spec.isEnabled = true →
        (spec.get? "where").bind Value.object? = none →
        SortKey.ofTarget? (.relationCount name) direction = some key →
          Projection.CountsAs store model item name spec (store.related model field item).length ∧
          SortKey.ofValue (.object [(name, .object [("_count", direction)])]) = [key] ∧
          key.value store model item = .integer (store.related model field item).length := by
  obtain ⟨hfound, hrelation⟩ := Option.filter_eq_some_iff.mp hfield
  have hmember : field ∈ model.relationFields :=
    List.mem_filter.mpr ⟨List.mem_reverse.mp (List.mem_of_find?_eq_some hfound), hrelation⟩
  obtain ⟨related, -, hrelated⟩ := Schema.exists_relatedModel hmodel hmember
  refine ⟨related, hrelated, ?_, fun filter => ⟨_, rfl, ?_, ?_⟩, ?_⟩
  · intro hname hlist linkage hlinkage hgrounded fields hnodup
    rw [Projection.shape_include hfield hname, Projection.resolve_list hlist hrelated hnodup]
    simp only [query_related hgrounded hrelated hlinkage]
    cases Arguments.find (.object fields) with
    | error e => rfl
    | ok args =>
        simp only [bind, Except.bind, pure, Except.pure]
        cases store.findScoped related (linkage.scope item) args <;> rfl
  · have hcount : Projection.relationCount store model item field (some filter) =
        (store.select related (some filter) (store.related model field item)).length := by
      simp only [Projection.relationCount, Schema.model?_of_relatedModel hrelated]
    exact hcount ▸ Projection.countsAs_relation store item hfield rfl
  · intro hname hlist
    have hnodup : (Entries.keys [("where", Value.object filter)]).Nodup := List.nodup_singleton _
    have hfind : Arguments.find (.object [("where", .object filter)]) = .ok { filter } := rfl
    refine ⟨(store.select related (some filter) (store.related model field item)).map .object,
      ?_, List.length_map _⟩
    rw [Projection.shape_include hfield hname, Projection.resolve_list hlist hrelated hnodup, hfind]
    simp only [bind, Except.bind, query_of_unshaped]
    rfl
  · intro spec direction key henabled hspec hkey
    have htarget : key.target = .relationCount name := by
      obtain ⟨_, -, rfl⟩ := Option.map_eq_some_iff.mp hkey
      rfl
    have hcount := Projection.countsAs_relation store item hfield henabled
    rw [hspec] at hcount
    refine ⟨hcount, SortKey.ofValue_count hkey, ?_⟩
    simp only [SortKey.value, htarget, hfield]

end Store

namespace Gallery

def worksField : Field :=
  { name := "works", kind := .relation, typeName := "Work", isList := true,
    relationName := some "paints" }

def painterField : Field :=
  { name := "painter", kind := .relation, typeName := "Painter", relationName := some "paints",
    fromFields := ["painterId"], toFields := ["id"] }

def painter : Model where
  name := "Painter"
  fields := [{ name := "id", kind := .scalar, typeName := "Int", isId := true }, worksField]

def work : Model where
  name := "Work"
  fields := [{ name := "id", kind := .scalar, typeName := "Int", isId := true },
    { name := "year", kind := .scalar, typeName := "Int" },
    { name := "painterId", kind := .scalar, typeName := "Int" }, painterField]

def schema : Schema where
  options := {}
  models := [painter, work]
  nodup_names := by decide
  targets_known := by decide

def first : Record := [("id", .integer 1)]

/-- A work of a painter. -/
def painted (id year painterId : Int) : Record :=
  [("id", .integer id), ("year", .integer year), ("painterId", .integer painterId)]

/-- Two painters, of whom the first one has painted two works. -/
def collection : Store :=
  ((Store.ofSchema schema 0 ⟨0⟩).setItems "Painter" [first, [("id", .integer 2)]]).setItems "Work"
    [painted 10 1900 1, painted 11 1908 2, painted 12 1910 1]

/-- The works after a year. -/
def late : Record := [("year", .object [("gt", .integer 1905)])]

def byPainter : Linkage := ⟨["id"], ["painterId"], false⟩

theorem linkage_works : collection.schema.linkage? painter worksField = some byPainter := rfl

/-- Painters have their works through a column that is no relation. -/
theorem grounded_works : collection.Grounded painter worksField first := by
  refine Store.grounded_of_isLocal linkage_works fun related scope hrelated hscope => ?_
  cases hrelated
  cases hscope
  rfl

/-- One of the two works of the first painter is late. -/
theorem include_late :
    painter ∈ collection.schema.models ∧ painter.relation? "works" = some worksField ∧
      collection.schema.linkage? painter worksField = some byPainter ∧
      collection.Grounded painter worksField first ∧
      Projection.shape { inclusion := some [("works", .object [("where", .object late)])] }
        collection painter first =
          .ok [("id", .integer 1), ("works", .array [.object (painted 12 1910 1)])] ∧
      Projection.CountsAs collection painter first "works" (.object [("where", .object late)]) 1 ∧
      Projection.CountsAs collection painter first "works" (.bool true) 2 := by
  have hmodel : painter ∈ collection.schema.models := List.mem_cons_self
  have hfield : painter.relation? "works" = some worksField := rfl
  obtain ⟨related, hrelated, hinclude, hcounts, hall⟩ := Store.include_scopes hmodel hfield first
  obtain rfl : work = related := Except.ok.inj hrelated
  have hrows := hinclude (by decide) rfl byPainter linkage_works grounded_works
    [("where", .object late)] (List.nodup_singleton _)
  obtain ⟨number, hnumber, hlate, -⟩ := hcounts late
  obtain rfl : number = 1 := hnumber.trans (by cbv)
  have hkey : SortKey.ofTarget? (.relationCount "works") (.string "asc") =
      some ⟨.relationCount "works", false, false⟩ := by cbv
  have htwo : (collection.related painter worksField first).length = 2 := by cbv
  obtain ⟨hboth, -⟩ := hall (.bool true) (.string "asc") _ rfl rfl hkey
  exact ⟨hmodel, hfield, linkage_works, grounded_works, hrows.trans (by cbv), hlate, htwo ▸ hboth⟩

end Gallery

namespace Album

/-- A relation under the name that asks for counts. -/
def tracksField : Field :=
  { name := "_count", kind := .relation, typeName := "Track", isList := true,
    relationName := some "holds" }

def albumField : Field :=
  { name := "album", kind := .relation, typeName := "Album", relationName := some "holds",
    fromFields := ["albumId"], toFields := ["id"] }

def album : Model where
  name := "Album"
  fields := [{ name := "id", kind := .scalar, typeName := "Int", isId := true }, tracksField]

def track : Model where
  name := "Track"
  fields := [{ name := "id", kind := .scalar, typeName := "Int", isId := true },
    { name := "albumId", kind := .scalar, typeName := "Int" }, albumField]

def schema : Schema where
  options := {}
  models := [album, track]
  nodup_names := by decide
  targets_known := by decide

def debut : Record := [("id", .integer 1)]

def opener : Record := [("id", .integer 7), ("albumId", .integer 1)]

def shop : Store :=
  ((Store.ofSchema schema 0 ⟨0⟩).setItems "Album" [debut]).setItems "Track" [opener]

def byAlbum : Linkage := ⟨["id"], ["albumId"], false⟩

/-- A relation of the name `_count` cannot be included: the name asks for counts, and not for the
    rows of the query. -/
theorem include_ne_scoped :
    album ∈ shop.schema.models ∧ album.relation? "_count" = some tracksField ∧
      tracksField.isList = true ∧ shop.schema.linkage? album tracksField = some byAlbum ∧
      shop.Grounded album tracksField debut ∧
      Projection.shape { inclusion := some [("_count", .object [])] } shop album debut ≠ (do
        let args ← Arguments.find (.object [])
        let rows ← shop.findScoped track (byAlbum.scope debut) args
        return Entries.insert "_count" (.array (rows.map .object)) debut) := by
  have hgrounded : shop.Grounded album tracksField debut := by
    refine Store.grounded_of_isLocal rfl fun related scope hrelated hscope => ?_
    cases hrelated
    cases hscope
    rfl
  refine ⟨List.mem_cons_self, rfl, rfl, rfl, hgrounded, ?_⟩
  have hcounts : Projection.shape { inclusion := some [("_count", .object [])] } shop album debut =
      .ok [("id", .integer 1), ("_count", .object [("_count", .integer 1)])] := by cbv
  have hrows : (do
      let args ← Arguments.find (.object [])
      let rows ← shop.findScoped track (byAlbum.scope debut) args
      return Entries.insert "_count" (.array (rows.map .object)) debut) =
      (.ok [("id", .integer 1), ("_count", .array [.object opener])] : Except Error Record) := by
    cbv
  rw [hcounts, hrows]
  intro h
  cases h

end Album

end RecordStore
