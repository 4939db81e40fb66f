import RecordStore.Proofs.Identity
import RecordStore.Proofs.Write.Settling

/-!
# Updates of many records

An update of all records that satisfy a filter looks each of them up again when it is its turn, by
its id, or by equality if the id is null.  As long as this finds the record itself, every record is
updated exactly once.  With unique groups enforced an id without a null always does, whatever has
been updated before.  Without an id, a record that has just been updated may have come to equal one
that is still to be updated; it is then updated twice, and the other one never.
-/

namespace RecordStore

open Record

namespace Store

variable {origin store next : Store} {model : Model}

/-! ## One update after the other -/

/-- What a record holds after it has been updated once, in a store that has gone on from an earlier
    one: for every key of the payload that names a field, the value settles that the update makes of
    the old one, or what is equal to it. -/
def UpdatedOnce (origin : Store) (model : Model) (data old new : Record) : Prop :=
  ∀ entry ∈ data, ∀ field, model.field? entry.1 = some field → ∃ result settled,
    field.updated (valueAt entry.1 old) entry.2 = .ok result ∧
      origin.Settles model entry.1 result settled ∧
      (valueAt entry.1 new = settled ∨ Value.same settled (valueAt entry.1 new) = true)

/-- A store on the way through the updates. -/
structure Underway (origin store : Store) : Prop where
  schema_eq : store.schema = origin.schema
  clock_eq : store.clock = origin.clock
  advances : origin.Advances store

variable {before later replaced : List Record} {current data record : Record} {last : Store}

/-- Where no earlier record is taken for it, a record is found where it stands. -/
theorem reload?_of_recognized (hitems : store.items model.name = before ++ current :: later)
    (hbefore : ∀ other ∈ before, model.recognizes current other = false)
    (hself : model.recognizes current current = true) :
    store.reload? model current = some current := by
  show (store.items model.name).find? (model.recognizes current) = some current
  rw [hitems, List.find?_eq_some_iff_append]
  exact ⟨hself, before, later, rfl, fun other hother => by rw [hbefore other hother]; rfl⟩

/-- A record that no earlier one is equal to is replaced where it stands. -/
theorem replaceFirst_of_apart (hbefore : ∀ other ∈ before, Record.same other current = false)
    (h : replaceFirst current record (before ++ current :: later) = some replaced) :
    replaced = before ++ record :: later := by
  induction before generalizing replaced with
  | nil =>
      rw [List.nil_append, replaceFirst] at h
      split at h
      · exact (Option.some.inj h).symm
      · -- a later one that is equal to it would make it equal to itself
        rename_i hdiffers
        obtain ⟨others, hothers, -⟩ := Option.map_eq_some_iff.mp h
        obtain ⟨_, old, _, -, -, hsame, -⟩ := split_of_replaceFirst hothers
        exact absurd (same_trans (same_symm hsame) hsame) hdiffers
  | cons first rest ih =>
      obtain ⟨hfirst, hrest⟩ := List.forall_mem_cons.mp hbefore
      rw [List.cons_append, replaceFirst, hfirst, if_neg Bool.false_ne_true] at h
      obtain ⟨others, hothers, rfl⟩ := Option.map_eq_some_iff.mp h
      rw [ih hrest hothers]
      rfl

/-- An update by plain fields of a record that no earlier one is taken for changes it where it
    stands, once, and nothing else in its collection. -/
theorem updated_in_place (hscalar : model.ScalarPayload data)
    (hnodup : (Entries.keys data).Nodup) (h : Underway origin store)
    (hitems : store.items model.name = before ++ current :: later)
    (hbefore : ∀ other ∈ before, model.recognizes current other = false)
    (hrun : (Write.updateRecord model current data).outcome store = (.ok record, last)) :
    Underway origin last ∧ ∃ new, last.items model.name = before ++ new :: later ∧
      UpdatedOnce origin model data current new ∧ (new = record ∨ same record new = true) := by
  obtain ⟨nested, hnested⟩ := NestedWrites.updateRecord_eq model current data
  rw [hnested, NestedWrites.updateStep_of_scalar nested hscalar] at hrun
  obtain ⟨revised, hrevised, hsettled⟩ := Write.outcome_bind_require_ok hrun
  obtain ⟨rfl, hstored⟩ := Write.settle_ok hsettled
  have hvalues := Model.updated_of_revised hnodup hrevised
  have hupdated {new : Record} (hnew : ∀ name, valueAt name new =
        valueAt name (refreshFields model data model.scalarFields revised store).1 ∨
      Value.same (valueAt name (refreshFields model data model.scalarFields revised store).1)
        (valueAt name new) = true) : UpdatedOnce origin model data current new := by
    intro entry hentry field hfield
    have hwritten : Entries.contains entry.1 data = true :=
      (Entries.mem_keys_iff entry.1 data).mp (List.mem_map_of_mem hentry)
    exact ⟨_, _, hvalues entry hentry field hfield,
      settles_refreshFields hwritten revised h.clock_eq h.advances, hnew entry.1⟩
  have hmoved := moved_refreshFields model data model.scalarFields revised store
  obtain ⟨counters, entropy, hsupplied⟩ := hmoved.supplied
  have hadvances := h.advances.trans hmoved.advances
  rw [hsupplied] at hstored hadvances
  rcases Write.replaceStored_ok hstored with ⟨hsame, rfl⟩ | ⟨-, -, hswap⟩
  · -- the record stays, as it is equal to what it was to become
    exact ⟨⟨h.schema_eq, h.clock_eq, hadvances⟩, current, hitems,
      hupdated fun name => Or.inr (valueAt_of_same hsame name), Or.inr hsame⟩
  · have hapart : ∀ other ∈ before, same other current = false := by
      intro other hother
      refine Bool.eq_false_iff.mpr fun hsame => ?_
      have hfalse := hbefore other hother
      rw [model.recognizes_of_same hsame] at hfalse
      cases hfalse
    obtain ⟨replaced, hreplaced, rfl⟩ := Option.map_eq_some_iff.mp hswap
    have hplace : replaced = before ++ _ :: later :=
      replaceFirst_of_apart hapart (hitems ▸ hreplaced)
    refine ⟨⟨h.schema_eq, h.clock_eq, hadvances⟩, _, ?_, hupdated fun name => Or.inl rfl, Or.inl rfl⟩
    rw [items_replaceCollection_self, hplace]

/-- A record that no earlier one is taken for is found where it stands, and updated there, before
    the records after it. -/
theorem updateEach_cons_ok {rest targets returned : List Record}
    (hscalar : model.ScalarPayload data) (hnodup : (Entries.keys data).Nodup)
    (h : Underway origin store) (hitems : store.items model.name = before ++ current :: rest)
    (hbefore : ∀ other ∈ before, model.recognizes current other = false)
    (hself : model.recognizes current current = true)
    (hrun : (Write.updateEach (NestedWrites.ofPayload data).update model data
      (current :: targets)).outcome store = (.ok returned, last)) :
    ∃ updated others next new, returned = updated :: others ∧ Underway origin next ∧
      (Write.updateRecord model current data).outcome store = (.ok updated, next) ∧
      next.items model.name = (before ++ [new]) ++ rest ∧
      UpdatedOnce origin model data current new ∧ (new = updated ∨ same updated new = true) ∧
      (Write.updateEach (NestedWrites.ofPayload data).update model data targets).outcome next =
        (.ok others, last) := by
  rw [Write.updateEach, Write.outcome_bind_get,
    reload?_of_recognized hitems hbefore hself] at hrun
  obtain ⟨updated, next, hupdate, hrest⟩ := Write.outcome_bind_ok hrun
  obtain ⟨others, _, hothers, hend⟩ := Write.outcome_bind_ok hrest
  obtain ⟨hreturned, rfl⟩ := Prod.mk.inj hend
  obtain ⟨hnext, new, hplace, hupdated, hnew⟩ :=
    updated_in_place hscalar hnodup h hitems hbefore hupdate
  exact ⟨updated, others, next, new, (Except.ok.inj hreturned).symm, hnext, hupdate,
    hplace.trans (List.append_cons _ _ _), hupdated, hnew, hothers⟩

/-! ## All of them in turn -/

/-- None of some records that are selected, and looked up again in turn, is mistaken for another
    one: each is taken for itself, and nothing before it is taken for it by then.  What comes before
    are records as they have been returned by their updates, or as they were if they are not
    selected. -/
def NoneMistaken (model : Model) (selected : Record → Bool) :
    List Record → List Record → List Record → Prop
  | _, [], _ => True
  | before, record :: rest, returned =>
      if selected record then
        model.recognizes record record = true ∧
          (∀ other ∈ before, model.recognizes record other = false) ∧
            NoneMistaken model selected (before ++ returned.head?.toList) rest returned.tail
      else NoneMistaken model selected (before ++ [record]) rest returned

/-- Records as they have been returned, next to those that are stored: an equal one need not have
    been written. -/
def Answered (stored returned : List Record) : Prop :=
  List.Forall₂ (fun new answered => new = answered ∨ same answered new = true) stored returned

/-- What has been returned is taken for the same records as what is stored. -/
theorem Answered.recognizes_iff {stored returned : List Record} (h : Answered stored returned) :
    (∀ other ∈ returned, model.recognizes record other = false) ↔
      ∀ other ∈ stored, model.recognizes record other = false := by
  induction h with
  | nil => exact Iff.rfl
  | @cons new answered _ _ hnew _ ih =>
      have hfirst : model.recognizes record answered = model.recognizes record new := by
        rcases hnew with rfl | hsame
        · rfl
        · exact Bool.eq_iff_iff.mpr (Model.recognizes_congr hsame)
      rw [List.forall_mem_cons, List.forall_mem_cons, hfirst, ih]

variable {selected : Record → Bool} {returned done : List Record}

/-- What is left to update is what is selected of the records that are left.  As long as none is
    mistaken for another one, each of these is updated once, and the others are left alone. -/
theorem updateEach_once (hscalar : model.ScalarPayload data) (hnodup : (Entries.keys data).Nodup)
    (rest : List Record) :
    ∀ (before done : List Record) (store : Store) (returned : List Record), Underway origin store →
      store.items model.name = done ++ rest → Answered done before →
      NoneMistaken model selected before rest returned →
      (Write.updateEach (NestedWrites.ofPayload data).update model data
        (rest.filter selected)).outcome store = (.ok returned, last) →
      returned.length = (rest.filter selected).length ∧
        ∃ finished, last.items model.name = done ++ finished ∧
          List.Forall₂ (fun old new => if selected old then UpdatedOnce origin model data old new
            else new = old) rest finished := by
  induction rest with
  | nil =>
      intro before done store returned _ hitems _ _ hrun
      obtain ⟨hreturned, rfl⟩ := Prod.mk.inj hrun
      obtain rfl := Except.ok.inj hreturned
      exact ⟨rfl, [], hitems, .nil⟩
  | cons record rest ih =>
      intro before done store returned hunderway hitems hanswered hnone hrun
      rw [NoneMistaken] at hnone
      -- the record moves from what is left to what is done, updated or as it is
      cases hselected : selected record with
      | false =>
          rw [List.filter_cons_of_neg (by rw [hselected]; exact Bool.false_ne_true)] at hrun ⊢
          rw [hselected, if_neg Bool.false_ne_true] at hnone
          obtain ⟨hcount, finished, hlast, hfinished⟩ := ih _ _ store returned hunderway
            (hitems.trans (List.append_cons _ _ _))
            (List.rel_append hanswered (.cons (Or.inl rfl) .nil)) hnone hrun
          refine ⟨hcount, record :: finished, hlast.trans (List.append_cons _ _ _).symm, .cons ?_
            hfinished⟩
          rw [hselected]
          rfl
      | true =>
          rw [List.filter_cons_of_pos hselected] at hrun ⊢
          rw [if_pos hselected] at hnone
          obtain ⟨hself, hbefore, hnone⟩ := hnone
          have hdone := hanswered.recognizes_iff.mp hbefore
          obtain ⟨updated, others, next, new, rfl, hnext, -, hplace, hupdated, hnew, hothers⟩ :=
            updateEach_cons_ok hscalar hnodup hunderway hitems hdone hself hrun
          obtain ⟨hcount, finished, hlast, hfinished⟩ := ih _ _ next others hnext hplace
            (List.rel_append hanswered (.cons hnew .nil)) hnone hothers
          refine ⟨congrArg (· + 1) hcount, new :: finished,
            hlast.trans (List.append_cons _ _ _).symm, .cons ?_ hfinished⟩
          rw [hselected]
          exact hupdated

/-- No update brings two records together. -/
theorem HoldsUnique.update (hunique : store.HoldsUnique)
    (henforced : store.schema.options.enforceUnique = true) (hmodel : model ∈ store.schema.models)
    (hrun : (Write.updateRecord model current data).outcome store = (.ok record, last)) :
    last.HoldsUnique := by
  let upkeep := keptByChange store.schema fun next =>
    next.schema = store.schema ∧ next.HoldsUnique
  have hlaws : upkeep.Lawful store.schema :=
    lawful_keptByChange store.schema fun before after hstep ⟨hschema, h⟩ =>
      ⟨hstep.schema_eq.trans hschema, h.change hstep (hschema ▸ henforced)⟩
  have hknown : upkeep.Knows store model current := trivial
  have hkeeps := Upkeep.gives_updateRecord hlaws hmodel hknown data
  exact (Write.Triple.ok (hkeeps ⟨rfl, rfl, hunique⟩) rfl hrun).1.holds.2.2

/-- With unique groups enforced, none of the records that have ids is mistaken for another one. -/
theorem noneMistaken_of_hasId (henforced : origin.schema.options.enforceUnique = true)
    (hmodel : model ∈ origin.schema.models) (hscalar : model.ScalarPayload data)
    (hnodup : (Entries.keys data).Nodup) (rest : List Record) :
    ∀ (before done : List Record) (store : Store) (returned : List Record), Underway origin store →
      store.HoldsUnique → store.items model.name = done ++ rest → Answered done before →
      (∀ record ∈ rest, selected record = true → model.HasId record) →
      (Write.updateEach (NestedWrites.ofPayload data).update model data
        (rest.filter selected)).outcome store = (.ok returned, last) →
      NoneMistaken model selected before rest returned := by
  induction rest with
  | nil => exact fun _ _ _ _ _ _ _ _ _ _ => trivial
  | cons record rest ih =>
      intro before done store returned hunderway hunique hitems hanswered hids hrun
      obtain ⟨hid, hrest⟩ := List.forall_mem_cons.mp hids
      rw [NoneMistaken]
      cases hselected : selected record with
      | false =>
          rw [List.filter_cons_of_neg (by rw [hselected]; exact Bool.false_ne_true)] at hrun
          rw [if_neg Bool.false_ne_true]
          exact ih _ _ store returned hunderway hunique (hitems.trans (List.append_cons _ _ _))
            (List.rel_append hanswered (.cons (Or.inl rfl) .nil)) hrest hrun
      | true =>
          rw [List.filter_cons_of_pos hselected] at hrun
          rw [if_pos rfl]
          have hmember : model ∈ store.schema.models := hunderway.schema_eq ▸ hmodel
          have hid := hid hselected
          have hself : model.recognizes record record = true :=
            (hid.recognizes_eq record).trans hid.same_self
          have hdone : ∀ other ∈ done, model.recognizes record other = false := by
            intro other hother
            refine Bool.eq_false_iff.mpr fun hsame => ?_
            obtain ⟨group, hgroup, hcollide⟩ := hid.collide (hid.recognizes_eq other ▸ hsame)
            have hpairs := hunique.pairwise hmember hgroup
            rw [hitems, List.pairwise_append] at hpairs
            exact hpairs.2.2 other hother record List.mem_cons_self hcollide
          obtain ⟨updated, others, next, new, rfl, hnext, hupdate, hplace, -, hnew, hothers⟩ :=
            updateEach_cons_ok hscalar hnodup hunderway hitems hdone hself hrun
          refine ⟨hself, hanswered.recognizes_iff.mpr hdone, ?_⟩
          exact ih _ _ next others hnext
            (hunique.update (hunderway.schema_eq ▸ henforced) hmember hupdate) hplace
            (List.rel_append hanswered (.cons hnew .nil)) hrest hothers

/-! ## Updates of what a filter selects -/

/-- Whether a filter, if there is one, selects a record. -/
def selects (store : Store) (model : Model) (filter : Option Record) (record : Record) : Bool :=
  filter.all fun filter => store.satisfies model record filter

theorem select_eq_filter (filter : Option Record) (records : List Record) :
    store.select model filter records = records.filter (store.selects model filter) := by
  cases filter with
  | none => exact (List.filter_eq_self.mpr fun _ _ => rfl).symm
  | some filter => rfl

/-- An update that touches every record that a filter selects exactly once: a record is returned for
    each of them, each has been updated once where it stands, and all others are as they were. -/
structure UpdatesOnce (store last : Store) (model : Model) (filter : Option Record) (data : Record)
    (returned : List Record) : Prop where
  length_eq : (last.items model.name).length = (store.items model.name).length
  count : returned.length = (store.select model filter (store.items model.name)).length
  records : List.Forall₂ (fun old new => if store.selects model filter old then
      UpdatedOnce store model data old new else new = old)
    (store.items model.name) (last.items model.name)

/-- After any run with unique groups enforced, an update of plain fields touches every record that
    its filter selects exactly once, as long as it mistakes none of them for another one; and it
    never does if they have ids, whatever the payload makes of these. -/
theorem updateMatching_once (schema : Schema) (henforced : schema.options.enforceUnique = true)
    (clock : Int) (entropy : Entropy) (requests : List Request) (hmodel : model ∈ schema.models)
    {filter : Option Record} (hscalar : model.ScalarPayload data)
    (hnodup : (Entries.keys data).Nodup)
    (hstore : store = (ofSchema schema clock entropy).run requests)
    (hrun : (Write.updateMatching model filter data).outcome store = (.ok returned, last)) :
    (NoneMistaken model (store.selects model filter) [] (store.items model.name) returned →
        UpdatesOnce store last model filter data returned) ∧
      ((∀ record ∈ store.select model filter (store.items model.name), model.HasId record) →
        NoneMistaken model (store.selects model filter) [] (store.items model.name) returned) := by
  obtain ⟨hschema, hunique⟩ := holdsUnique_run schema henforced clock entropy requests
  rw [← hstore] at hschema hunique
  rw [Write.updateMatching, Write.updateMatchingWith, Write.outcome_bind_get,
    select_eq_filter] at hrun
  have hstart : Underway store store := ⟨rfl, rfl, .refl⟩
  constructor
  · intro hnone
    obtain ⟨hcount, finished, hlast, hfinished⟩ :=
      updateEach_once hscalar hnodup _ [] [] store returned hstart rfl .nil hnone hrun
    rw [List.nil_append] at hlast
    rw [← hlast] at hfinished
    exact ⟨hfinished.length_eq.symm, select_eq_filter filter _ ▸ hcount, hfinished⟩
  · intro hids
    rw [select_eq_filter] at hids
    exact noneMistaken_of_hasId (hschema ▸ henforced) (hschema ▸ hmodel) hscalar hnodup _ [] [] store
      returned hstart hunique rfl .nil
      (fun record hrecord hselected => hids record (List.mem_filter.mpr ⟨hrecord, hselected⟩)) hrun

end Store

namespace Scores

open Store

/-- Scores, which are known by nothing but their value. -/
def tally : Model where
  name := "Tally"
  fields := [{ name := "points", kind := .scalar, typeName := "Int" }]

/-- Scores of players. -/
def player : Model where
  name := "Player"
  fields := [{ name := "id", kind := .scalar, typeName := "Int", isId := true },
    { name := "points", kind := .scalar, typeName := "Int" }]

def schema : Schema where
  options := {}
  models := [tally, player]
  nodup_names := by decide
  targets_known := by decide

/-- One point and two points, of nobody and of two players. -/
def entries : List Request := [
  .write .createMany "Tally" (.object [("data", .array [.object [("points", .integer 1)],
    .object [("points", .integer 2)]])]),
  .write .createMany "Player" (.object [("data", .array [
    .object [("id", .integer 1), ("points", .integer 1)],
    .object [("id", .integer 2), ("points", .integer 2)]])])]

def store : Store := (ofSchema schema 0 ⟨0⟩).run entries

/-- One point more. -/
def bonus : Record := [("points", .object [("increment", .integer 1)])]

/-- Without ids the first score gets both points and the second none: once the first has two points
    as well, it is taken for the second. -/
theorem bonus_given_twice :
    ¬∀ (schema : Schema) (clock : Int) (entropy : Entropy) (requests : List Request) (model : Model)
      (filter : Option Record) (data : Record) (returned : List Record) (store last : Store),
      schema.options.enforceUnique = true → model ∈ schema.models → model.ScalarPayload data →
        (Entries.keys data).Nodup → (∀ name ∈ Entries.keys data, name ∉ model.idFields) →
          store = (ofSchema schema clock entropy).run requests →
            (Write.updateMatching model filter data).outcome store = (.ok returned, last) →
              UpdatesOnce store last model filter data returned := by
  intro h
  have hrun : (Write.updateMatching tally none bonus).outcome store =
      (.ok [[("points", .integer 2)], [("points", .integer 3)]],
        ((Write.updateMatching tally none bonus).outcome store).2) := rfl
  have honce := h schema 0 ⟨0⟩ entries tally none bonus _ store _ rfl List.mem_cons_self (by decide)
    (by decide) (by decide) rfl hrun
  have hrecords : List.Forall₂ (fun old new => if store.selects tally none old then
      UpdatedOnce store tally bonus old new else new = old)
      [[("points", .integer 1)], [("points", .integer 2)]]
      [[("points", .integer 3)], [("points", .integer 2)]] := honce.records
  cases hrecords with
  | cons hfirst _ =>
      -- one point and one more are two, but the first score now has three
      obtain ⟨result, settled, hresult, hsettles, hstored⟩ :=
        (show UpdatedOnce store tally bonus _ _ from hfirst) _ List.mem_cons_self _ rfl
      obtain rfl : Value.integer 2 = result := Except.ok.inj hresult
      cases hsettles with
      | kept => rcases hstored with h | h <;> cases h
      | filled hnull => cases hnull
      | unfilled hnull => cases hnull

/-- Each player gets one point, although the first then has as many as the second had. -/
theorem bonus_given_once :
    schema.options.enforceUnique = true ∧ player ∈ schema.models ∧ player.ScalarPayload bonus ∧
      (Entries.keys bonus).Nodup ∧ store = (ofSchema schema 0 ⟨0⟩).run entries ∧
      (∀ record ∈ store.select player none (store.items player.name), player.HasId record) ∧
      ∃ last, (Write.updateMatching player none bonus).outcome store =
          (.ok [[("id", .integer 1), ("points", .integer 2)],
            [("id", .integer 2), ("points", .integer 3)]], last) ∧
        UpdatesOnce store last player none bonus [[("id", .integer 1), ("points", .integer 2)],
          [("id", .integer 2), ("points", .integer 3)]] := by
  have hmodel : player ∈ schema.models := List.mem_cons_of_mem _ List.mem_cons_self
  have hids : ∀ record ∈ store.select player none (store.items player.name),
      player.HasId record := by decide
  have hrun : (Write.updateMatching player none bonus).outcome store =
      (.ok [[("id", .integer 1), ("points", .integer 2)],
        [("id", .integer 2), ("points", .integer 3)]],
        ((Write.updateMatching player none bonus).outcome store).2) := rfl
  have hscalar : player.ScalarPayload bonus := by decide
  have hnodup : (Entries.keys bonus).Nodup := by decide
  obtain ⟨honce, hnone⟩ :=
    updateMatching_once schema rfl 0 ⟨0⟩ entries hmodel hscalar hnodup rfl hrun
  exact ⟨rfl, hmodel, hscalar, hnodup, rfl, hids, _, hrun, honce (hnone hids)⟩

end Scores

end RecordStore
