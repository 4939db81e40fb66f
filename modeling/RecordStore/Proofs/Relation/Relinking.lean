import RecordStore.Proofs.Relation.Dependents
import RecordStore.Proofs.Relation.JoinLinks

/-!
# One semantics of links

Whether a relation is kept in columns of the dependents or in a join, the operations of a nested
write do the same to the set of the linked ids.  An update through the relation refreshes its record
first, which neither changes the ids nor what is linked.
-/

namespace RecordStore

namespace Write

variable {model : Model} {data : Record}

/-- Updating records one by one depends on what is done to each with the payload. -/
theorem updateEach_congr {update update' : Model → Record → Record → Write Record}
    (h : ∀ current, update model current data = update' model current data)
    (targets : List Record) :
    updateEach update model data targets = updateEach update' model data targets := by
  induction targets with
  | nil => rfl
  | cons target rest ih => simp only [updateEach, h, ih]

/-- A record settles in the light of the names that are written, not of the values. -/
theorem settle_congr {written written' current revised : Record}
    (h : ∀ name, Entries.contains name written = Entries.contains name written') :
    settle model written current revised = settle model written' current revised := by
  have hstep : Store.refreshFields model written model.scalarFields revised =
      Store.refreshFields model written' model.scalarFields revised :=
    funext fun store => Store.refreshFields_congr h model.scalarFields revised store
  unfold settle
  rw [hstep]

end Write

namespace Store

open Write NestedWrites

/-- The records of a model are known by a single id field that updates leave alone and that holds
    texts and 64-bit integers. -/
structure Numbered (store : Store) (model : Model) (idField : String) : Prop where
  idFields_eq : model.idFields = [idField]
  unstamped : model.Unstamped idField
  atoms : ∀ id ∈ store.ids model, id.isAtom = true

/-- How a record links others through a relation field whose links are kept elsewhere: by writing
    its values into their columns, or by a join. -/
inductive LinksBy (store : Store) (model : Model) (field : Field) (related : Model)
    (item : Record) : (Record → Write Unit) → Prop where
  | columns {linkage : Linkage} {scope : Record}
      (keyed : store.KeyedEnd model field related item linkage scope) :
      LinksBy store model field related item fun target =>
        discard (Write.updateRecord related target scope)
  | join {idField : String} {join : Join}
      (joined : store.JoinedEnd model field related item idField join) :
      LinksBy store model field related item (join.endAt model field related item idField).link

variable {store last mid : Store} {model related : Model} {field : Field}
variable {item next : Record} {link : Record → Write Unit} {modelId idField : String}

/-! ## The record itself -/

theorem Numbered.identified (h : store.Numbered model modelId) (hunique : store.HoldsUnique)
    (hmodel : model ∈ store.schema.models) : store.Identified model :=
  hunique.identified hmodel h.idFields_eq h.atoms

/-- A record that settles without being written keeps its id, and what it holds in columns that
    updates leave alone. -/
theorem Numbered.settle (h : store.Numbered model modelId) (hid : store.Identified model)
    (hitem : item ∈ store.items model.name) {written : Record}
    (hrun : (Write.settle model written item item).outcome store = (.ok next, mid)) :
    Rewrites store mid model item next ∧ model.recordId next = model.recordId item ∧
      ∀ name, model.Unstamped name →
        ((Record.valueAt name item).isNull = true → model.Undefaulted name) →
        Record.valueAt name next = Record.valueAt name item := by
  obtain ⟨hnext, -⟩ := settle_ok hrun
  have hvalue (name : String) (hstamp : model.Unstamped name)
      (hdefault : (Record.valueAt name item).isNull = true → model.Undefaulted name) :
      Record.valueAt name next = Record.valueAt name item :=
    hnext ▸ Model.valueAt_refreshFields hstamp hdefault store
  have hkeeps : model.recordId next = model.recordId item := by
    have hatom := hid.isAtom hitem
    rw [Model.recordId_of_idFields h.idFields_eq] at hatom
    rw [Model.recordId_of_idFields h.idFields_eq, Model.recordId_of_idFields h.idFields_eq]
    refine hvalue modelId h.unstamped fun hnull => ?_
    rw [Value.isNull_of_isAtom hatom] at hnull
    cases hnull
  exact ⟨rewrites_of_settle hid hitem hkeeps hrun, hkeeps, hvalue⟩

namespace Rewrites

variable (h : Rewrites store mid model item next) (hmodel : model ∈ store.schema.models)
  (hrelated : related ∈ store.schema.models)
include h hmodel hrelated

/-- Rewriting a record changes the ids of no model. -/
theorem ids_eq_of_mem : mid.ids related = store.ids related := by
  by_cases hname : related.name = model.name
  · obtain rfl := Schema.eq_of_name_eq hrelated hmodel hname
    exact h.ids_eq
  · rw [ids, ids, h.others _ hname]

/-- What holds of a record as soon as it holds of the rewritten one holds of records of the same
    ids, and of no new ones but that. -/
theorem ids_of_iff {P : Record → Prop} (hid : store.Identified model)
    (hitem : item ∈ store.items model.name)
    (hkeeps : model.recordId next = model.recordId item) (hP : related = model → (P next ↔ P item)) :
    (∀ id, (∃ other ∈ mid.items related.name, P other ∧ related.recordId other = id) ↔
      ∃ other ∈ store.items related.name, P other ∧ related.recordId other = id) ∧
    ∀ other ∈ mid.items related.name, P other → other = next ∨ other ∈ store.items related.name := by
  by_cases hname : related.name = model.name
  · obtain rfl := Schema.eq_of_name_eq hrelated hmodel hname
    have hnext : ∀ other ∈ mid.items related.name,
        other = next ∨ other ∈ store.items related.name := by
      intro other hother
      by_cases hsame : related.recordId other = related.recordId item
      · rcases h.written other hother hsame with heq | ⟨rfl, -⟩
        · exact Or.inl heq
        · exact Or.inr hitem
      · exact Or.inr ((h.kept other hsame).mp hother)
    refine ⟨fun id => ⟨?_, ?_⟩, fun other hother _ => hnext other hother⟩
    · rintro ⟨other, hother, hholds, rfl⟩
      rcases hnext other hother with rfl | hstored
      · exact ⟨item, hitem, (hP rfl).mp hholds, hkeeps.symm⟩
      · exact ⟨other, hstored, hholds, rfl⟩
    · rintro ⟨other, hother, hholds, rfl⟩
      have hthere : related.recordId other ∈ mid.ids related :=
        h.ids_eq ▸ List.mem_map_of_mem hother
      obtain ⟨found, hfound, hfoundId⟩ := List.mem_map.mp hthere
      by_cases hsame : related.recordId other = related.recordId item
      · obtain rfl := hid.eq_of_id_eq hother hitem hsame
        refine ⟨found, hfound, ?_, hfoundId⟩
        rcases h.written found hfound hfoundId with rfl | ⟨rfl, -⟩
        · exact (hP rfl).mpr hholds
        · exact hholds
      · exact ⟨other, (h.kept other hsame).mpr hother, hholds, rfl⟩
  · rw [h.others _ hname]
    exact ⟨fun _ => Iff.rfl, fun _ hother _ => Or.inr hother⟩

end Rewrites

/-! ## Either way of keeping links -/

/-- The end of a relation that is kept in columns is told by the schema. -/
theorem KeyedEnd.of_schema_eq {linkage : Linkage} {scope : Record}
    (h : store.KeyedEnd model field related item linkage scope)
    (hschema : mid.schema = store.schema) :
    mid.KeyedEnd model field related item linkage scope :=
  ⟨hschema ▸ h.linkage_eq, h.dependent, hschema ▸ h.related_eq, h.scope_eq, h.refers, h.referred,
    h.plain, h.open_, h.apart⟩

section refreshed

variable {linkage : Linkage} {scope : Record}
  (h : store.KeyedEnd model field related item linkage scope)
  (hvalue : ∀ name, model.Unstamped name →
    ((Record.valueAt name item).isNull = true → model.Undefaulted name) →
      Record.valueAt name next = Record.valueAt name item)
include h hvalue

/-- A refreshed record has the scope that it had. -/
theorem KeyedEnd.scope_refreshed : linkage.scope next = some scope := by
  rw [← h.scope_eq]
  refine Linkage.scope_congr fun pair hpair => ?_
  obtain ⟨hatom, hstamp⟩ := h.referred pair hpair
  refine hvalue pair.1 hstamp fun hnull => ?_
  rw [Value.isNull_of_isAtom hatom] at hnull
  cases hnull

/-- If a record may depend on itself, it does so when refreshed exactly if it did before. -/
theorem KeyedEnd.fits_refreshed (hsame : related = model) :
    Filter.fits related scope next = true ↔ Filter.fits related scope item = true := by
  obtain rfl := hsame
  have hatoms : ∀ entry ∈ scope, entry.2.isAtom = true :=
    fun entry hentry => (h.atoms entry hentry).1
  have hkeeps (entry : String × Value) (hentry : entry ∈ scope) :
      Record.valueAt entry.1 next = Record.valueAt entry.1 item :=
    hvalue entry.1 (h.open_ _ (h.atoms entry hentry).2).1
      fun _ => (h.open_ _ (h.atoms entry hentry).2).2
  exact ⟨Filter.fits_of_same_values hatoms fun entry hentry => Or.inl (hkeeps entry hentry),
    Filter.fits_of_same_values hatoms fun entry hentry => Or.inl (hkeeps entry hentry).symm⟩

end refreshed

/-- The end of a relation that is kept in a join is told by the schema and the joins. -/
theorem JoinedEnd.of_eq {join : Join} (h : store.JoinedEnd model field related item idField join)
    (hschema : mid.schema = store.schema) (hjoins : mid.joins = store.joins) :
    mid.JoinedEnd model field related item idField join :=
  ⟨hschema ▸ h.linkage_eq, hschema ▸ h.related_eq, h.relation_eq, hjoins ▸ h.join_eq, h.side,
    h.idFields_eq, h.plain, h.named, h.atom, h.atomic⟩

/-- The columns of dependents are parted in one way, however deep the nesting may go. -/
theorem dependentStep_set (linkage : Linkage) (scope : Record)
    (hdetached : related.ScalarPayload linkage.detached) (depth depth' : Nat) :
    (within (depth + 1)).dependentStep related scope linkage.detached "set" (.array []) =
      (within (depth' + 1)).dependentStep related scope linkage.detached "set" (.array []) := by
  have hupdate (current : Record) :
      (within (depth + 1)).update related current linkage.detached =
        (within (depth' + 1)).update related current linkage.detached :=
    (updateRecord_of_scalar hdetached depth current).trans
      (updateRecord_of_scalar hdetached depth' current).symm
  have hparted : (within (depth + 1)).updateMatching related scope linkage.detached =
      (within (depth' + 1)).updateMatching related scope linkage.detached := by
    unfold NestedWrites.updateMatching updateMatchingWith
    simp only [updateEach_congr hupdate]
  have hset (nested : NestedWrites) :
      nested.dependentStep related scope linkage.detached "set" (.array []) =
        (discard (nested.updateMatching related scope linkage.detached) >>= fun _ => pure ()) := rfl
  rw [hset, hset, hparted]

/-- A store whose record has settled: writes through the field act on its links as on a set, at any
    depth of nesting, and they start from the links that there were before. -/
structure Settled (store mid : Store) (model : Model) (field : Field) (related : Model)
    (item next : Record) (link : Record → Write Unit) : Prop where
  acts : ∀ depth, mid.ActsOnLinks model field related item link fun operation arg =>
    (within (depth + 1)).writeRelated model field [(operation, arg)] next
  connect_nil : ∀ depth, ((within (depth + 1)).writeRelated model field
    [("connect", .array [])] next).outcome mid = (.ok (), mid)
  set_nil : ∀ depth depth', ((within (depth + 1)).writeRelated model field
    [("set", .array [])] next).outcome mid = ((within (depth' + 1)).writeRelated model field
      [("set", .array [])] next).outcome mid
  relatedIds : ∀ id, id ∈ mid.relatedIds model field related item ↔
    id ∈ store.relatedIds model field related item
  related : ∀ other ∈ mid.related model field item,
    other = next ∨ other ∈ store.related model field item

section settled

variable (hmodel : model ∈ store.schema.models) (hunique : store.HoldsUnique)
  (hitem : item ∈ store.items model.name) (hnumbered : store.Numbered model modelId)
  (hothers : store.Numbered related idField) {written : Record}
  (hrun : (Write.settle model written item item).outcome store = (.ok next, mid))
include hmodel hunique hitem hnumbered hothers hrun

/-- Through columns of the dependents. -/
theorem KeyedEnd.settled {linkage : Linkage} {scope : Record}
    (h : store.KeyedEnd model field related item linkage scope) :
    Settled store mid model field related item next fun target =>
      discard (Write.updateRecord related target scope) := by
  have hrelated := Schema.mem_of_relatedModel h.related_eq
  have hid := hnumbered.identified hunique hmodel
  obtain ⟨hrewrites, hkeeps, hvalue⟩ := hnumbered.settle hid hitem hrun
  have hmid := h.of_schema_eq hrewrites.schema_eq
  have hmidId : mid.Identified related := (hothers.identified hunique hrelated).of_ids_eq
    (hrewrites.ids_eq_of_mem hmodel hrelated)
  have hscalar : related.ScalarPayload scope :=
    Model.scalarPayload_of_isPlain fun entry hentry => (h.plain_scope entry hentry).1
  have hdetached : related.ScalarPayload linkage.detached :=
    Model.scalarPayload_of_isPlain fun entry hentry =>
      (h.plain _ (Linkage.mem_detached entry hentry).1).1
  have hwrite (depth : Nat) (operation : String) (arg : Value) :=
    outcome_writeRelated_columns hmid.linkage_eq hmid.related_eq (h.scope_refreshed hvalue)
      (within (depth + 1)) operation arg
  have hlinks (depth : Nat) : (fun target => discard (Write.updateRecord related target scope)) =
      fun target => discard ((within (depth + 1)).update related target scope) := by
    funext target
    rw [updateRecord_of_scalar hscalar depth target]
  have hiff :=
    hrewrites.ids_of_iff (P := fun other => Filter.fits related scope other = true) hmodel hrelated
      hid hitem hkeeps (h.fits_refreshed hvalue)
  refine ⟨fun depth => ?_, fun depth => ?_, fun depth depth' => ?_, fun id => ?_,
    fun other hother => ?_⟩
  · rw [hlinks depth]
    exact (hmid.actsOnLinks hothers.idFields_eq hothers.unstamped rfl hmidId).congr (hwrite depth)
  · rw [hwrite]
    rfl
  · rw [hwrite, hwrite, dependentStep_set linkage scope hdetached depth depth']
  · rw [hmid.mem_relatedIds rfl, h.mem_relatedIds rfl]
    exact hiff.1 id
  · obtain ⟨hmem, hfits⟩ := (hmid.mem_related rfl other).mp hother
    exact (hiff.2 other hmem hfits).imp_right fun hstored =>
      (h.mem_related rfl other).mpr ⟨hstored, hfits⟩

/-- Through a join. -/
theorem JoinedEnd.settled {joinField : String} {join : Join}
    (h : store.JoinedEnd model field related item joinField join) :
    Settled store mid model field related item next
      (join.endAt model field related item joinField).link := by
  have hrelated := Schema.mem_of_relatedModel h.related_eq
  have hid := hnumbered.identified hunique hmodel
  obtain ⟨hrewrites, hkeeps, -⟩ := hnumbered.settle hid hitem hrun
  have hmid := h.of_eq hrewrites.schema_eq hrewrites.joins_eq
  have hothersId := hothers.identified hunique hrelated
  have hmidId : mid.Identified related :=
    hothersId.of_ids_eq (hrewrites.ids_eq_of_mem hmodel hrelated)
  have hend : joinEnd mid model field next =
      .ok (join.endAt model field related item joinField) := by
    have hsame : joinEnd mid model field next = joinEnd mid model field item := by
      unfold joinEnd
      rw [hkeeps]
    exact hsame.trans hmid.joinEnd_eq
  have hwrite (depth : Nat) (operation : String) (arg : Value) :=
    outcome_writeRelated_join hmid.linkage_eq hend (within (depth + 1)) operation arg
  have hsees : related = model →
      (related.recordId next ∈ join.seenFrom model.name (model.recordId item) ↔
        related.recordId item ∈ join.seenFrom model.name (model.recordId item)) := by
    rintro rfl
    rw [hkeeps]
  have hiff := hrewrites.ids_of_iff
    (P := fun other => related.recordId other ∈ join.seenFrom model.name (model.recordId item))
    hmodel hrelated hid hitem hkeeps hsees
  refine ⟨fun depth => (hmid.actsOnLinks rfl hmidId _).congr (hwrite depth), fun depth => ?_,
    fun depth depth' => ?_, fun id => ?_, fun other hother => ?_⟩
  · rw [hwrite]
    rfl
  · have hset (nested nested' : NestedWrites) (joinEnd : JoinEnd) :
        nested.joinStep joinEnd "set" (.array []) = nested'.joinStep joinEnd "set" (.array []) :=
      rfl
    rw [hwrite, hwrite, hset (within (depth + 1)) (within (depth' + 1))]
  · rw [hmid.mem_relatedIds hmidId, h.mem_relatedIds hothersId,
      hrewrites.ids_eq_of_mem hmodel hrelated]
  · obtain ⟨hmem, hseen⟩ := (hmid.mem_related hmidId other).mp hother
    exact (hiff.2 other hmem hseen).imp_right fun hstored =>
      (h.mem_related hothersId other).mpr ⟨hstored, hseen⟩

end settled

/-- The links of such a field are kept elsewhere. -/
theorem LinksBy.waits (h : store.LinksBy model field related item link)
    (hfield : model.field? field.name = some field) (hrelation : field.isRelation = true) :
    Waits store.schema model field := by
  refine ⟨hfield, hrelation, fun linkage hlinkage => ?_⟩
  cases h with
  | columns keyed =>
      rw [keyed.linkage_eq] at hlinkage
      exact Option.some.inj hlinkage ▸ keyed.dependent
  | join joined =>
      rw [joined.linkage_eq] at hlinkage
      cases hlinkage

/-- An update through the field settles its record, and then writes the links. -/
theorem outcome_relink_of_settle (hwaits : Waits store.schema model field) {operation : String}
    {arg : Value} (hsettle : (Write.settle model [(field.name, .object [(operation, arg)])] item
      item).outcome store = (.ok next, mid)) (other : String) (more : Value) :
    ∃ depth, ∀ after, ((within (depth + 1)).writeRelated model field [(other, more)] next).outcome
        mid = (.ok (), after) →
      (relink model field item other more).outcome store = (.ok next, after) := by
  obtain ⟨depth, hrelink⟩ := outcome_relink hwaits item other more
  refine ⟨depth, fun after hafter => ?_⟩
  -- the payloads name the same field, so the record settles in the same way
  have hsame : Write.settle model [(field.name, .object [(other, more)])] item item =
      Write.settle model [(field.name, .object [(operation, arg)])] item item :=
    settle_congr fun name => by
      simp only [Entries.contains, Entries.get?_cons, Entries.get?_nil]
      split <;> rfl
  rw [hrelink, outcome_bind, hsame, hsettle]
  dsimp only
  rw [outcome_bind, hafter]
  rfl

/-- An update through a relation field whose links are kept elsewhere acts on the set of the linked
    ids, in the same way whether columns of the dependents or a join keeps them.  To connect adds
    what the filters pick, one after the other; to set leaves what they pick when nothing is linked;
    to disconnect leaves nothing, or the linked records that satisfy none of some local filters.  An
    update that connects nothing shows the records as they are then picked and tested: the record
    itself refreshed, and the same ids linked as before. -/
theorem relink_acts (hmodel : model ∈ store.schema.models) (hunique : store.HoldsUnique)
    (hitem : item ∈ store.items model.name) (hnumbered : store.Numbered model modelId)
    (hothers : store.Numbered related idField) (hfield : model.field? field.name = some field)
    (hrelation : field.isRelation = true)
    (hlinks : store.LinksBy model field related item link) {operation : String} {arg : Value}
    (hrun : (relink model field item operation arg).outcome store = (.ok next, last)) :
    let linked (store : Store) (id : Value) := id ∈ store.relatedIds model field related item
    ∃ mid, (relink model field item "connect" (.array [])).outcome store = (.ok next, mid) ∧
      (∀ id, linked mid id ↔ linked store id) ∧
      (∀ other ∈ mid.related model field item,
        other = next ∨ other ∈ store.related model field item) ∧
      (operation = "connect" →
        ∀ id, linked last id ↔ linked store id ∨ id ∈ picks related link arg.objects mid) ∧
      (operation = "set" →
        ∃ cleared, (relink model field item "set" (.array [])).outcome store = (.ok next, cleared) ∧
          ∀ id, linked last id ↔ id ∈ picks related link arg.objects cleared) ∧
      (operation = "disconnect" → arg = .bool true → ∀ id, ¬ linked last id) ∧
      (operation = "disconnect" → arg ≠ .bool true →
        (∀ filter ∈ arg.objects, Filter.isLocal related filter = true) →
        ∀ id, linked last id ↔ ∃ other ∈ mid.related model field item,
          related.recordId other = id ∧
            ∀ filter ∈ arg.objects, mid.satisfies related other filter = false) := by
  intro linked
  have hwaits := hlinks.waits hfield hrelation
  obtain ⟨depth, hrelink⟩ := outcome_relink hwaits item operation arg
  rw [hrelink] at hrun
  obtain ⟨settled, mid, hsettle, hrun⟩ := outcome_bind_ok hrun
  obtain ⟨_, written, hwrite, hrun⟩ := outcome_bind_ok hrun
  obtain ⟨hnext, rfl⟩ := Prod.mk.inj hrun
  obtain rfl := Except.ok.inj hnext
  have hsettled : Settled store mid model field related item settled link := by
    cases hlinks with
    | columns keyed => exact keyed.settled hmodel hunique hitem hnumbered hothers hsettle
    | join joined => exact joined.settled hmodel hunique hitem hnumbered hothers hsettle
  obtain ⟨_, hconnect⟩ := outcome_relink_of_settle hwaits hsettle "connect" (.array [])
  obtain ⟨_, hset⟩ := outcome_relink_of_settle hwaits hsettle "set" (.array [])
  have hacts := hsettled.acts depth
  refine ⟨mid, hconnect mid (hsettled.connect_nil _), hsettled.relatedIds, hsettled.related,
    ?_, ?_, ?_, ?_⟩
  · rintro rfl id
    exact (hacts.connect arg written hwrite id).trans (or_congr_left (hsettled.relatedIds id))
  · rintro rfl
    obtain ⟨cleared, hcleared, hpicks⟩ := hacts.set arg written hwrite
    exact ⟨cleared, hset cleared ((hsettled.set_nil _ depth).trans hcleared), hpicks⟩
  · rintro rfl rfl
    exact hacts.clear written hwrite
  · rintro rfl harg hlocal
    exact hacts.disconnect arg written harg hlocal hwrite

end Store

namespace Library

open Store Write

/-- An author comes with two books, and the first of them is given two tags. -/
def stocking : List Request := [
  .write .create "Author" (.object [("data", .object [("id", .integer 1),
    ("books", .object [("create", .array [.object [("id", .integer 7)],
      .object [("id", .integer 8)]])])])]),
  .write .update "Book" (.object [("where", .object [("id", .integer 7)]),
    ("data", .object [("tags", .object [("create", .array [.object [("id", .string "t")],
      .object [("id", .string "u")]])])])])]

def stock : Store := (ofSchema schema 0 ⟨0⟩).run stocking

/-- The tags of the stock are on the first book. -/
def labels : Join :=
  ⟨"labels", ⟨"books", "Tag"⟩, ⟨"tags", "Book"⟩,
    [⟨.string "t", .integer 7⟩, ⟨.string "u", .integer 7⟩]⟩

theorem numbered_stock :
    stock.Numbered author "id" ∧ stock.Numbered book "id" ∧ stock.Numbered tag "id" :=
  ⟨⟨rfl, by decide, by decide⟩, ⟨rfl, by decide, by decide⟩, ⟨rfl, by decide, by decide⟩⟩

theorem keyedEnd_stock :
    stock.KeyedEnd author writtenField book firstAuthor ⟨["id"], ["authorId"], false⟩
      [("authorId", .integer 1)] where
  linkage_eq := rfl
  dependent := rfl
  related_eq := rfl
  scope_eq := rfl
  refers := by decide
  referred := by decide
  plain := List.forall_mem_singleton.mpr ⟨⟨rfl, _, rfl, rfl, rfl⟩, rfl⟩
  open_ := by decide
  apart := by decide

theorem joinedEnd_stock : stock.JoinedEnd book tagsField tag firstBook "id" labels where
  linkage_eq := rfl
  related_eq := rfl
  relation_eq := rfl
  join_eq := rfl
  side := by decide
  idFields_eq := rfl
  plain := ⟨⟨rfl, _, rfl, rfl, rfl⟩, rfl⟩
  named := by decide
  atom := rfl
  atomic := by decide

/-- To set the books of the author to the second one leaves that one alone, and to disconnect one of
    the tags of the first book leaves the other. -/
theorem relink_stock :
    (stock.relatedIds author writtenField book firstAuthor = [.integer 7, .integer 8] ∧
      ∃ last, (relink author writtenField firstAuthor "set" (.object [("id", .integer 8)])).outcome
          stock = (.ok firstAuthor, last) ∧
        ∀ id, id ∈ last.relatedIds author writtenField book firstAuthor ↔ id = .integer 8) ∧
    stock.relatedIds book tagsField tag firstBook = [.string "t", .string "u"] ∧
      ∃ last, (relink book tagsField firstBook "disconnect"
          (.object [("id", .string "u")])).outcome stock = (.ok firstBook, last) ∧
        ∀ id, id ∈ last.relatedIds book tagsField tag firstBook ↔ id = .string "t" := by
  have hunique : stock.HoldsUnique := (holdsUnique_run schema rfl 0 ⟨0⟩ stocking).2
  obtain ⟨hauthors, hbooks, htags⟩ := numbered_stock
  have hset : (relink author writtenField firstAuthor "set" (.object [("id", .integer 8)])).outcome
      stock = (.ok firstAuthor, _) := rfl
  have hpart : (relink book tagsField firstBook "disconnect" (.object [("id", .string "u")])).outcome
      stock = (.ok firstBook, _) := rfl
  refine ⟨⟨rfl, _, hset, fun id => ?_⟩, rfl, _, hpart, fun id => ?_⟩
  · obtain ⟨_, -, -, -, -, hclause, -⟩ := relink_acts (.head _) hunique (.head _) hauthors hbooks
      rfl rfl (.columns keyedEnd_stock) hset
    obtain ⟨cleared, hcleared, hlinked⟩ := hclause rfl
    obtain rfl : _ = cleared := congrArg Prod.snd hcleared
    exact (hlinked id).trans List.mem_singleton
  · obtain ⟨mid, hmid, -, -, -, -, -, hclause⟩ := relink_acts (.tail _ (.head _)) hunique (.head _)
      hbooks htags rfl rfl (.join joinedEnd_stock) hpart
    obtain rfl : _ = mid := congrArg Prod.snd hmid
    refine (hclause rfl (fun h => by cases h) (List.forall_mem_singleton.mpr rfl) id).trans ?_
    constructor
    · rintro ⟨other, hother, rfl, hapart⟩
      rcases List.mem_pair.mp hother with rfl | rfl
      · rfl
      · cases hapart _ (.head _)
    · rintro rfl
      exact ⟨firstTag, .head _, rfl, List.forall_mem_singleton.mpr rfl⟩

end Library

namespace Store

open Write

/-- A column that is declared for single texts or integers, and that holds nothing else but nulls. -/
def HoldsKeys (store : Store) (model : Model) (column : String) : Prop :=
  (∃ field, model.field? column = some field ∧ field.kind = .scalar ∧ field.isList = false ∧
    (field.typeName = "Int" ∨ field.typeName = "String")) ∧
  ∀ record ∈ store.items model.name,
    (Record.valueAt column record).isNull = true ∨ (Record.valueAt column record).isAtom = true

/-- The records of a model are known by a single id that is never null. -/
structure KnownBy (store : Store) (model : Model) (idField : String) : Prop where
  idFields_eq : model.idFields = [idField]
  holds : store.HoldsKeys model idField
  present : ∀ id ∈ store.ids model, id.isNull = false

/-- How a record links others through a relation field, whatever else the columns that this takes
    are for, and whatever their names. -/
inductive LinksSomehow (store : Store) (model : Model) (field : Field) (related : Model)
    (item : Record) : (Record → Write Unit) → Prop where
  | columns {linkage : Linkage} {scope : Record}
      (linkage_eq : store.schema.linkage? model field = some linkage)
      (dependent : linkage.owned = false) (scope_eq : linkage.scope item = some scope)
      (referred : ∀ column ∈ linkage.localColumns, store.HoldsKeys model column)
      (foreign : ∀ column ∈ linkage.foreign,
        store.HoldsKeys related column ∧ related.Undefaulted column) :
      LinksSomehow store model field related item fun target =>
        discard (Write.updateRecord related target scope)
  | join {idField : String} {join : Join}
      (linkage_eq : store.schema.linkage? model field = none)
      (relation_eq : field.relationName = some join.name)
      (join_eq : store.joins.get? join.name = some join)
      (side : (⟨field.name, model.name⟩ : Side) ∈ join.sides)
      (idFields_eq : related.idFields = [idField]) :
      LinksSomehow store model field related item (join.endAt model field related item idField).link

/-- The ids that a record in the store of a client is linked to before and after a write through a
    field, if the write succeeds. -/
def linkedIds? (schema : Schema) (requests : List Request) (model : Model) (field : Field)
    (related : Model) (item : Record) (operation : String) (arg : Value) :
    Option (List Value × List Value) :=
  let store := (ofSchema schema 0 ⟨0⟩).run requests
  match (relink model field item operation arg).outcome store with
  | (.error _, _) => none
  | (.ok _, last) =>
      some (store.relatedIds model field related item, last.relatedIds model field related item)

end Store

namespace Teams

def numbered : Field := { name := "id", kind := .scalar, typeName := "Int", isId := true }

/-- An id that every update takes for the time of the last one. -/
def stamped : Field :=
  { name := "id", kind := .scalar, typeName := "String", isId := true, isUpdatedAt := true }

def column (name typeName : String) : Field := { name, kind := .scalar, typeName }

def membersField : Field :=
  { name := "members", kind := .relation, typeName := "Person", isList := true,
    relationName := some "joins" }

def teamField (fromField : String) (toFields : List String) : Field :=
  { name := "team", kind := .relation, typeName := "Team", relationName := some "joins",
    fromFields := [fromField], toFields }

def team (key : Field) : Model where
  name := "Team"
  fields := [key, membersField]

/-- Persons refer to their team by a column. -/
def person (columns : List Field) (fromField : String) (toFields : List String) : Model where
  name := "Person"
  fields := columns ++ [teamField fromField toFields]

/-- Persons whose column is their id. -/
def sharing : Model := person [numbered] "id" ["id"]

/-- Persons whose column has the name of a connective. -/
def naming : Model := person [numbered, column "AND" "Int"] "AND" ["id"]

/-- Persons whose column refers to nothing. -/
def straying : Model := person [numbered, column "teamId" "Int"] "teamId" []

/-- Persons whose id is a time. -/
def aging : Model := person [stamped, column "teamId" "Int"] "teamId" ["id"]

/-- Persons of teams whose id is a time. -/
def following : Model := person [numbered, column "teamId" "String"] "teamId" ["id"]

def sharingSchema : Schema := ⟨{}, [team numbered, sharing], by decide, by decide⟩

def namingSchema : Schema := ⟨{}, [team numbered, naming], by decide, by decide⟩

def strayingSchema : Schema := ⟨{}, [team numbered, straying], by decide, by decide⟩

def agingSchema : Schema := ⟨{}, [team numbered, aging], by decide, by decide⟩

def followingSchema : Schema := ⟨{}, [team stamped, following], by decide, by decide⟩

/-- A team and some persons, none of them a member yet. -/
def gathering (team : Value) (persons : List Value) : List Request :=
  .write .create "Team" (.object [("data", .object [("id", team)])]) ::
    persons.map fun person =>
      .write .create "Person" (.object [("data", .object [("id", person)])])

/-- A team, and a person known by the column that refers to it. -/
def gathered : Store :=
  (Store.ofSchema sharingSchema 0 ⟨0⟩).run (gathering (.integer 1) [.integer 5])

end Teams

namespace Trees

def childrenField : Field :=
  { name := "children", kind := .relation, typeName := "Node", isList := true,
    relationName := some "under" }

def parentField : Field :=
  { name := "parent", kind := .relation, typeName := "Node", relationName := some "under",
    fromFields := ["parentId"], toFields := ["id"] }

/-- Nodes of a tree, in which the column for the parent or another one may keep the time of the last
    update. -/
def node (moved seen : Bool) : Model where
  name := "Node"
  fields := [{ name := "id", kind := .scalar, typeName := "String", isId := true },
    { name := "parentId", kind := .scalar, typeName := "String", isUpdatedAt := moved },
    { name := "seen", kind := .scalar, typeName := "String", isUpdatedAt := seen },
    childrenField, parentField]

def movingSchema : Schema := ⟨{}, [node true false], by decide, by decide⟩

def seeingSchema : Schema := ⟨{}, [node false true], by decide, by decide⟩

/-- A node that is its own child. -/
def loop : Record := [("id", .string "a"), ("parentId", .string "a"), ("seen", .string "never")]

def planting : List Request := [.write .create "Node" (.object [("data", .object loop)])]

end Trees

namespace Posts

def tagsField : Field :=
  { name := "tags", kind := .relation, typeName := "Tag", isList := true,
    relationName := some "labels" }

def postsField : Field :=
  { name := "posts", kind := .relation, typeName := "Post", isList := true,
    relationName := some "labels" }

def post (key : Field) : Model where
  name := "Post"
  fields := [key, tagsField]

def tag (idField : String) : Model where
  name := "Tag"
  fields := [{ name := idField, kind := .scalar, typeName := "Int", isId := true }, postsField]

def namingSchema : Schema := ⟨{}, [post Teams.numbered, tag "is"], by decide, by decide⟩

def agingSchema : Schema := ⟨{}, [post Teams.stamped, tag "id"], by decide, by decide⟩

/-- A post with a tag. -/
def labelling (post : Value) (idField : String) : List Request :=
  [.write .create "Post" (.object [("data", .object [("id", post),
    ("tags", .object [("create", .object [(idField, .integer 5)])])])])]

end Posts

namespace Store

open Write Teams Trees Posts

/-- Not every relation field acts on its links as on a set: a member whose column is its id has
    another id once it has been connected.  Each of the others parts from it in one more way: its
    column is named as a connective, or refers to nothing; the id of the members, the id of the team
    or the column itself keeps the time of the last update; a filter asks for what the update changes
    in the record itself; the id of the records in a join is named `is`, or keeps such a time. -/
theorem relink_not_acts :
    (¬∀ (schema : Schema) (clock : Int) (entropy : Entropy) (requests : List Request)
        (model related : Model) (field : Field) (item : Record) (link : Record → Write Unit)
        (modelId relatedId : String),
      let store := (ofSchema schema clock entropy).run requests
      schema.options.enforceUnique = true → model ∈ schema.models →
      model.field? field.name = some field → field.isRelation = true →
      schema.relatedModel field = .ok related → store.KnownBy model modelId →
      store.KnownBy related relatedId → item ∈ store.items model.name →
      store.LinksSomehow model field related item link →
      store.ActsOnLinks model field related item link fun operation arg =>
        discard (relink model field item operation arg)) ∧
    linkedIds? Teams.namingSchema (gathering (.integer 1) [.integer 5, .integer 6]) (team numbered)
        membersField naming [("id", .integer 1)] "set" (.object [("id", .integer 5)]) =
      some ([.integer 5, .integer 6], [.integer 5, .integer 6]) ∧
    linkedIds? strayingSchema (gathering (.integer 1) [.integer 5, .integer 6]) (team numbered)
        membersField straying [("id", .integer 1)] "set" (.object [("id", .integer 5)]) =
      some ([.integer 5, .integer 6], [.integer 5, .integer 6]) ∧
    linkedIds? Teams.agingSchema (gathering (.integer 1) [.string "a"]) (team numbered) membersField
        aging [("id", .integer 1)] "connect" (.object [("id", .string "a")]) =
      some ([], [.string "1970-01-01T00:00:00.000Z"]) ∧
    linkedIds? followingSchema (gathering (.string "t") [.integer 5]) (team stamped) membersField
        following [("id", .string "t")] "connect" (.object [("id", .integer 5)]) = some ([], []) ∧
    linkedIds? movingSchema planting (node true false) childrenField (node true false) loop
        "connect" (.array []) = some ([.string "a"], []) ∧
    linkedIds? seeingSchema planting (node false true) childrenField (node false true) loop
        "disconnect" (.object [("seen", .string "never")]) = some ([.string "a"], [.string "a"]) ∧
    linkedIds? Posts.namingSchema (labelling (.integer 1) "is") (post numbered) tagsField (tag "is")
        [("id", .integer 1)] "disconnect" (.bool true) = some ([.integer 5], [.integer 5]) ∧
    linkedIds? Posts.agingSchema (labelling (.string "p") "id") (post stamped) tagsField (tag "id")
        [("id", .string "p")] "disconnect" (.bool true) = some ([.integer 5], [.integer 5]) := by
  refine ⟨fun h => ?_, rfl, rfl, rfl, rfl, rfl, rfl, rfl, rfl⟩
  have hteam : gathered.HoldsKeys (team numbered) "id" :=
    ⟨⟨_, rfl, rfl, rfl, Or.inl rfl⟩, by decide⟩
  have hperson : gathered.HoldsKeys sharing "id" := ⟨⟨_, rfl, rfl, rfl, Or.inl rfl⟩, by decide⟩
  have hopen : sharing.Undefaulted "id" := by
    unfold Model.Undefaulted
    decide
  have hlinks : gathered.LinksSomehow (team numbered) membersField sharing [("id", .integer 1)] _ :=
    .columns rfl rfl rfl (List.forall_mem_singleton.mpr hteam)
      (List.forall_mem_singleton.mpr ⟨hperson, hopen⟩)
  have hacts := h sharingSchema 0 ⟨0⟩ (gathering (.integer 1) [.integer 5]) (team numbered) sharing
    membersField [("id", .integer 1)] _ "id" "id" rfl (.head _) rfl rfl rfl
    ⟨rfl, hteam, by decide⟩ ⟨rfl, hperson, by decide⟩ (.head _) hlinks
  -- the member that was picked is linked as another one
  have hlinked := (hacts.connect (.object [("id", .integer 5)]) _ rfl (.integer 5)).mpr
    (Or.inr (.head _))
  cases List.mem_singleton.mp hlinked

end Store

end RecordStore
