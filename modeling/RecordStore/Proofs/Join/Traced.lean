import RecordStore.Proofs.Join.Ends
import RecordStore.Proofs.Run

/-!
# Where links come from

No write links anything but records that it has come across: those that were stored when it began,
and those that it has stored since, of which there are notices.  Whatever else happens to these
records meanwhile, the ends of all links stay among their ids, and among what the ends were before.
-/

namespace RecordStore

namespace Schema

/-- A join has a side that belongs to the model of a name. -/
def IsJoined (schema : Schema) (name : String) : Prop :=
  ∃ join ∈ Joins.ofModels schema.models, ∃ side ∈ join.sides, side.model = name

/-- Each field of a join has another one at the other end that refers back to it. -/
def PairsJoins (schema : Schema) : Prop :=
  ∀ join ∈ Joins.ofModels schema.models, ∀ model ∈ schema.models,
    ∀ field ∈ model.relationFields, field.relationName = some join.name →
      (schema.reciprocal? model field).isSome = true

end Schema

namespace Store

variable {origin store next : Store} {model : Model} {record : Record} {name : String} {id : Value}

/-! ## Notices -/

/-- Every stored record has been told of. -/
def Announced (store : Store) : Prop :=
  ∀ name, ∀ record ∈ store.items name,
    ∃ notice ∈ store.notices, notice.model = name ∧ record ∈ notice.records

/-- Every record of a joined model that has been told of had a key for its id. -/
def Keyed (store : Store) : Prop :=
  ∀ notice ∈ store.notices, store.schema.IsJoined notice.model →
    ∀ model ∈ store.schema.models, model.name = notice.model →
      ∀ record ∈ notice.records, (model.recordId record).isKey = true

/-- The records of a model of an earlier store, and those that have been told of since. -/
def recordsSince (store origin : Store) (name : String) : List Record :=
  origin.items name ++
    ((store.notices.take (store.notices.length - origin.notices.length)).filter
      (·.model = name)).flatMap (·.records)

theorem mem_recordsSince {recent : List Notice} (h : store.notices = recent ++ origin.notices) :
    record ∈ store.recordsSince origin name ↔ record ∈ origin.items name ∨
      ∃ notice ∈ recent, notice.model = name ∧ record ∈ notice.records := by
  have htake : store.notices.take (store.notices.length - origin.notices.length) = recent := by
    rw [h, List.length_append, Nat.add_sub_cancel, List.take_left]
  unfold recordsSince
  rw [htake]
  simp only [List.mem_append, List.mem_flatMap, List.mem_filter, decide_eq_true_eq, and_assoc]

/-- A collection that is written is told of whole, and nothing else changes. -/
theorem Announced.replaceCollection (h : store.Announced) (name : String) (records : List Record) :
    (store.replaceCollection name records).Announced := by
  intro other record hrecord
  by_cases hname : other = name
  · subst hname
    rw [items_replaceCollection_self] at hrecord
    exact ⟨_, List.mem_cons_self, rfl, hrecord⟩
  · rw [items_replaceCollection_of_ne hname] at hrecord
    obtain ⟨notice, hnotice, htold⟩ := h other record hrecord
    exact ⟨notice, List.mem_cons_of_mem _ hnotice, htold⟩

theorem Announced.change (h : store.Announced) (hstep : Change store next) : next.Announced := by
  cases hstep with
  | supply counters entropy => exact h
  | relink joins => exact h
  | insert model record _ _ => exact h.replaceCollection _ _
  | replace _ model current record _ _ swapped =>
      obtain ⟨records, -, rfl⟩ := Option.map_eq_some_iff.mp swapped
      exact h.replaceCollection _ _
  | remove name kept _ => exact h.replaceCollection _ _
  | detach model scope columns =>
      unfold Store.detach
      split
      · exact h.replaceCollection _ _
      · exact h

/-- Earlier notices of keys are among the later ones. -/
theorem Keyed.of_replaceCollection {records : List Record}
    (h : (store.replaceCollection name records).Keyed) : store.Keyed :=
  fun notice hnotice => h notice (List.mem_cons_of_mem _ hnotice)

/-! ## What a write leaves of the links -/

/-- The joins are those of the schema, and if ids are keys, each end of a link is one, and that of
    a stored record or as a property allows. -/
structure Tidy (schema : Schema) (P : String → Value → Prop) (store : Store) : Prop where
  schema_eq : store.schema = schema
  declared : store.JoinsDeclared
  ends : store.Keyed → store.joins.EachEnd fun name id =>
    id.isKey = true ∧ (store.HoldsId name id ∨ P name id)

/-- A store that writes have led to from an earlier one.  They have stored nothing that they have
    not told of, and the ends of links are ids of records come across since, or have a property. -/
structure Since (origin : Store) (P : String → Value → Prop) (store : Store) : Prop where
  schema_eq : store.schema = origin.schema
  declared : store.JoinsDeclared
  told : ∃ recent, store.notices = recent ++ origin.notices
  items : ∀ name, ∀ record ∈ store.items name, record ∈ store.recordsSince origin name
  ends : store.Keyed → store.joins.EachEnd fun name id => id.isKey = true ∧
    (store.schema.IdAmong name (store.recordsSince origin name) id ∨ P name id)

/-- What is known are the records with the ids of those come across. -/
def traced (origin : Store) (P : String → Value → Prop) : Upkeep where
  Holds := origin.Since P
  Knows store model record := ∃ other ∈ store.recordsSince origin model.name,
    Value.Alike (model.recordId record) (model.recordId other)
  Admits _ _ := True

variable {P : String → Value → Prop}

/-- A store that a write starts from. -/
theorem Tidy.since {schema : Schema} (h : store.Tidy schema P) : store.Since P store := by
  have hmem {name : String} {record : Record} (h : record ∈ store.items name) :
      record ∈ store.recordsSince store name := List.mem_append_left _ h
  refine ⟨rfl, h.declared, ⟨[], rfl⟩, fun _ _ => hmem, fun hkeyed => ?_⟩
  refine (h.ends hkeyed).imp fun name id ⟨hkey, hend⟩ => ⟨hkey, hend.imp_left ?_⟩
  rintro ⟨model, hmodel, hname, record, hrecord, hsame⟩
  exact ⟨model, hmodel, hname, record, hmem hrecord, hsame⟩

/-- A collection may be written with any records, since they are told of. -/
theorem Since.replaceCollection (h : origin.Since P store) (name : String)
    (records : List Record) :
    (traced origin P).Leads store (store.replaceCollection name records) ∧
      ∀ record ∈ records,
        record ∈ (store.replaceCollection name records).recordsSince origin name := by
  obtain ⟨recent, hrecent⟩ := h.told
  have htold : (store.replaceCollection name records).notices =
      (⟨name, records⟩ :: recent) ++ origin.notices := congrArg _ hrecent
  have hgrows {other : String} {record : Record}
      (hsince : record ∈ store.recordsSince origin other) :
      record ∈ (store.replaceCollection name records).recordsSince origin other := by
    refine (mem_recordsSince htold).mpr (((mem_recordsSince hrecent).mp hsince).imp_right ?_)
    exact fun ⟨notice, hnotice, hlists⟩ => ⟨notice, List.mem_cons_of_mem _ hnotice, hlists⟩
  have hnew : ∀ record ∈ records,
      record ∈ (store.replaceCollection name records).recordsSince origin name :=
    fun record hrecord =>
      (mem_recordsSince htold).mpr (Or.inr ⟨_, List.mem_cons_self, rfl, hrecord⟩)
  refine ⟨⟨⟨h.schema_eq, h.declared, ⟨_, htold⟩, fun other record hrecord => ?_,
    fun hkeyed => ?_⟩, ?_⟩, hnew⟩
  · by_cases hname : other = name
    · subst hname
      rw [items_replaceCollection_self] at hrecord
      exact hnew record hrecord
    · rw [items_replaceCollection_of_ne hname] at hrecord
      exact hgrows (h.items other record hrecord)
  · refine (h.ends hkeyed.of_replaceCollection).imp fun _ _ ⟨hkey, hend⟩ => ⟨hkey, hend.imp_left ?_⟩
    rintro ⟨model, hmodel, hname, record, hrecord, hsame⟩
    exact ⟨model, hmodel, hname, record, hgrows hrecord, hsame⟩
  · exact fun model record ⟨other, hother, halike⟩ => ⟨other, hgrows hother, halike⟩

/-- The links may be changed as long as the ends stay what they are. -/
theorem Since.rejoin (h : origin.Since P store) {joins : Joins}
    (hreset : joins.reset = store.joins.reset)
    (hends : ∀ {Q : String → Value → Prop}, store.joins.EachEnd Q → joins.EachEnd Q) :
    (traced origin P).Leads store { store with joins } :=
  ⟨⟨h.schema_eq, hreset.trans h.declared, h.told, h.items, fun hkeyed => hends (h.ends hkeyed)⟩,
    fun _ _ hknown => hknown⟩

/-- The id of a record of a joined model that is known is a key, and that of a record come
    across. -/
theorem Since.key_of_knows (h : origin.Since P store) (horigin : origin.Announced)
    (hkeyed : store.Keyed) (hmodel : model ∈ store.schema.models)
    (hjoined : store.schema.IsJoined model.name)
    (hknown : (traced origin P).Knows store model record) :
    (model.recordId record).isKey = true ∧
      store.schema.IdAmong model.name (store.recordsSince origin model.name)
        (model.recordId record) := by
  obtain ⟨other, hother, halike⟩ := hknown
  obtain ⟨recent, hrecent⟩ := h.told
  have hkey : (model.recordId other).isKey = true := by
    -- records of the earlier store have been told of before
    have htold : ∃ notice ∈ store.notices, notice.model = model.name ∧ other ∈ notice.records := by
      rw [hrecent]
      rcases (mem_recordsSince hrecent).mp hother with hold | ⟨notice, hnotice, hlists⟩
      · obtain ⟨notice, hnotice, hlists⟩ := horigin _ _ hold
        exact ⟨notice, List.mem_append_right _ hnotice, hlists⟩
      · exact ⟨notice, List.mem_append_left _ hnotice, hlists⟩
    obtain ⟨notice, hnotice, hname, hlists⟩ := htold
    exact hkeyed notice hnotice (hname ▸ hjoined) model hmodel hname.symm other hlists
  have hsame := Value.same_of_alike hkey halike
  exact ⟨Value.isKey_of_same hkey hsame, model, hmodel, rfl, other, hother, hsame⟩

/-- Known records are linked by ids that are keys, each on the side of its model. -/
theorem Since.link (h : origin.Since P store) (horigin : origin.Announced)
    (hpairs : store.schema.PairsJoins) {related : Model} {field : Field} {target : Record}
    (hmodel : model ∈ store.schema.models) (hfield : field ∈ model.relationFields)
    (hrelated : store.schema.relatedModel field = .ok related)
    (hrelation : field.relationName = some name)
    (hrecord : (traced origin P).Knows store model record)
    (htarget : (traced origin P).Knows store related target) :
    (traced origin P).Leads store { store with
      joins := store.joins.connect name ⟨field.name, model.name⟩ (model.recordId record)
        (related.recordId target) } := by
  refine ⟨⟨h.schema_eq, ?_, h.told, h.items, fun hkeyed => ?_⟩, fun _ _ hknown => hknown⟩
  · exact (Joins.reset_connect _ _ _ _ _).trans h.declared
  · refine (h.ends hkeyed).connect fun join hjoin hname => ?_
    subst hname
    have hdeclared := h.declared.mem hjoin
    obtain ⟨other, hother⟩ := Option.isSome_iff_exists.mp
      (hpairs _ hdeclared model hmodel field hfield hrelation)
    have hsides := Schema.sides_of_reciprocal hmodel hfield hother hrelated hdeclared hrelation
    dsimp only at hsides
    have hself : store.schema.IsJoined model.name :=
      ⟨_, hdeclared, _, (Joins.side_of_field hdeclared hmodel hfield hrelation).1, rfl⟩
    have hopposite : store.schema.IsJoined related.name := by
      refine ⟨_, hdeclared, ⟨other.name, related.name⟩, ?_, rfl⟩
      rcases hsides with ⟨-, hsb⟩ | ⟨hsa, -⟩
      · exact List.mem_pair.mpr (Or.inr hsb.symm)
      · exact List.mem_pair.mpr (Or.inl hsa.symm)
    obtain ⟨hkey, hsince⟩ := h.key_of_knows horigin hkeyed hmodel hself hrecord
    obtain ⟨hkey', hsince'⟩ := h.key_of_knows horigin hkeyed
      (Schema.mem_of_relatedModel hrelated) hopposite htarget
    refine ⟨hkey', ?_⟩
    unfold Join.oriented
    split
    · rename_i hside
      have hmodels : join.b.model = related.name := by
        rcases hsides with ⟨-, hsb⟩ | ⟨hsa, hsb⟩
        · exact congrArg Side.model hsb
        · -- both sides belong to one model
          rw [hsb]
          exact congrArg Side.model (hside.symm.trans hsa)
      rw [hmodels, hside]
      exact ⟨⟨hkey, Or.inl hsince⟩, hkey', Or.inl hsince'⟩
    · rename_i hside
      obtain ⟨hsa, hsb⟩ := hsides.resolve_left fun hfirst => hside hfirst.1
      rw [hsa, hsb]
      exact ⟨⟨hkey', Or.inl hsince'⟩, hkey, Or.inl hsince⟩

theorem lawful_traced (hpairs : origin.schema.PairsJoins) (horigin : origin.Announced)
    (P : String → Value → Prop) : (traced origin P).Lawful origin.schema := by
  constructor
  case schema_eq => exact fun hstore => hstore.schema_eq
  case stored =>
    exact fun hstore _ hrecord => ⟨_, hstore.items _ _ hrecord, Or.inl rfl⟩
  case supply =>
    exact fun _ _ hstore _ => ⟨⟨hstore.schema_eq, hstore.declared, hstore.told, hstore.items,
      hstore.ends⟩, fun _ _ hknown => hknown⟩
  case insert =>
    intro store model record hstore _ _ _
    obtain ⟨hleads, hnew⟩ :=
      hstore.replaceCollection model.name (store.items model.name ++ [record])
    refine ⟨hleads, record, hnew record ?_, Or.inl rfl⟩
    exact List.mem_append_right _ (List.mem_singleton_self _)
  case same =>
    rintro store model current next _ _ ⟨other, hother, halike⟩ _ hsame
    refine ⟨other, hother, Or.inr ?_⟩
    have hid := model.recordId_of_same hsame
    rcases halike with heq | hcurrent
    · exact heq ▸ hid
    · exact Value.same_trans _ _ _ hid hcurrent
  case replace =>
    intro store changed model current next hstore _ _ _ hswap
    obtain ⟨replaced, hreplaced, rfl⟩ := Option.map_eq_some_iff.mp hswap
    obtain ⟨hleads, hnew⟩ := hstore.replaceCollection model.name replaced
    obtain ⟨before, _, later, -, -, -, rfl⟩ := split_of_replaceFirst hreplaced
    refine ⟨hleads, next, hnew next ?_, Or.inl rfl⟩
    exact List.mem_append_right _ List.mem_cons_self
  case remove => exact fun hstore _ => (hstore.replaceCollection _ _).1
  case detach =>
    intro store model field scope hstore _ _
    unfold Store.detach
    split
    · exact (hstore.replaceCollection _ _).1
    · exact .refl hstore
  case link =>
    intro store model related field record target name hstore hmodel hfield hrelated hrelation
      hrecord htarget
    rw [← hstore.schema_eq] at hpairs hmodel hrelated
    exact hstore.link horigin hpairs hmodel hfield hrelated hrelation hrecord htarget
  case unlink =>
    exact fun name side id targets hstore => hstore.rejoin (Joins.reset_disconnect _ _ _ _ _)
      fun hends => hends.disconnect name side id targets
  case cleanup =>
    exact fun model id hstore => hstore.rejoin (Joins.reset_cleanup _ _ _)
      fun hends => Joins.EachEnd.cleanup (hends.imp fun _ _ hend => Or.inl hend)
  all_goals intros; trivial

end Store

end RecordStore
