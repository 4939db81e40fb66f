import RecordStore.Proofs.Comparison
import Mathlib

/-!
# Sorted records

Under keys whose values are of one kind each, records are sorted in the order of the keys: the
result is a permutation that stands in lexicographic order, leaves records that tie as they came,
and has the nulls of every key where the key wants them.  It is also what comes out of sorts by a
single key each, from the last key to the first.
-/

namespace RecordStore

open Std StableSort

/-! ## The order of one key -/

namespace SortKey

variable {store : Store} {model : Model} {key : SortKey} {keys : List SortKey}

/-- Order of what may be missing, as a key asks: what is missing comes last or first, and the
    direction is for the others only. -/
def comparePlaced (key : SortKey) {β : Type} (cmp : β → β → Ordering) :
    Option β → Option β → Ordering
  | none, none => .eq
  | none, some _ => if key.nullsFirst then .lt else .gt
  | some _, none => if key.nullsFirst then .gt else .lt
  | some x, some y => if key.descending then (cmp x y).swap else cmp x y

/-- Neither the direction nor the place of what is missing makes the order less of one. -/
instance transCmp_comparePlaced {β : Type} (cmp : β → β → Ordering) [TransCmp cmp] :
    TransCmp (key.comparePlaced cmp) where
  eq_swap {a b} := by
    cases a with
    | none => cases b <;> simp only [comparePlaced] <;> cases key.nullsFirst <;> rfl
    | some x =>
        cases b with
        | none => simp only [comparePlaced]; cases key.nullsFirst <;> rfl
        | some y =>
            have hswap : cmp x y = (cmp y x).swap := OrientedCmp.eq_swap
            simp only [comparePlaced, hswap]
            cases key.descending <;> rfl
  isLE_trans {a b c} hab hbc := by
    match a, b, c with
    | some x, some y, some z =>
        simp only [comparePlaced] at hab hbc ⊢
        cases hdirection : key.descending with
        | false =>
            rw [hdirection, if_neg Bool.false_ne_true] at hab hbc
            rw [if_neg Bool.false_ne_true]
            exact TransCmp.isLE_trans hab hbc
        | true =>
            rw [hdirection, if_pos rfl, ← OrientedCmp.eq_swap] at hab hbc
            rw [if_pos rfl, ← OrientedCmp.eq_swap]
            exact TransCmp.isLE_trans hbc hab
    | none, _, none => rfl
    | none, none, some _ => exact hbc
    | none, some _, some _ => exact hab
    | some _, none, none => exact hab
    | some _, some _, none => exact hbc
    | some _, none, some _ =>
        -- what is missing would come both first and last
        simp only [comparePlaced] at hab hbc
        cases hplace : key.nullsFirst with
        | true => rw [hplace] at hab; cases hab
        | false => rw [hplace] at hbc; cases hbc

/-- Values that a reading compares by what is read of them are ordered like that under a key. -/
theorem compareValues_eq {reading : Reading} {β : Type} {read : Value → Option β}
    {cmp : β → β → Ordering} (h : reading.ComparesBy read cmp) {a b : Value}
    (ha : a.isNull = false → (read a).isSome = true)
    (hb : b.isNull = false → (read b).isSome = true) :
    key.compareValues reading a b = key.comparePlaced cmp (read a) (read b) := by
  have hnull : ∀ v : Value, v.isNull = true → read v = none := by
    intro v hv
    cases v with
    | null => exact h.null
    | _ => cases hv
  cases hna : a.isNull with
  | true =>
      cases hnb : b.isNull with
      | true =>
          rw [hnull a hna, hnull b hnb]
          simp only [compareValues, hna, hnb, comparePlaced]
      | false =>
          obtain ⟨y, hy⟩ := Option.isSome_iff_exists.mp (hb hnb)
          rw [hnull a hna, hy]
          simp only [compareValues, hna, hnb, comparePlaced]
  | false =>
      obtain ⟨x, hx⟩ := Option.isSome_iff_exists.mp (ha hna)
      cases hnb : b.isNull with
      | true =>
          rw [hnull b hnb, hx]
          simp only [compareValues, hna, hnb, comparePlaced]
      | false =>
          obtain ⟨y, hy⟩ := Option.isSome_iff_exists.mp (hb hnb)
          rw [hx, hy]
          simp only [compareValues, hna, hnb, comparePlaced, h.compare hx hy, Option.getD_some]

/-- A key orders all that shows values of one kind. -/
theorem transCmp_compareValues {reading : Reading} {values : List Value} {α : Type}
    {view : α → Value} (hkind : reading.OfOneKind values) (hmem : ∀ a, view a ∈ values) :
    TransCmp fun a b => key.compareValues reading (view a) (view b) := by
  obtain ⟨β, _, read, cmp, _, _, hcompares, -, hread⟩ := hkind.exists_read
  have heq : (fun a b => key.compareValues reading (view a) (view b)) =
      fun a b => key.comparePlaced cmp (read (view a)) (read (view b)) :=
    funext fun a => funext fun b =>
      compareValues_eq hcompares (hread _ (hmem a)) (hread _ (hmem b))
  exact heq ▸ transCmp_comap (key.comparePlaced cmp) fun a => read (view a)

/-- Order of two records of a model under a key. -/
def compareRecords (store : Store) (model : Model) (key : SortKey) (a b : Record) : Ordering :=
  key.compareValues (key.reading store model) (key.value store model a) (key.value store model b)

/-- Order of two records under keys in order of priority. -/
def compareUnder (store : Store) (model : Model) (keys : List SortKey) (a b : Record) : Ordering :=
  lexicographic (keys.map (compareRecords store model)) a b

/-- Of two values that follow each other, a null stands where the key wants it: after what is not
    null, or before it. -/
def PlacesNulls (key : SortKey) (first second : Value) : Prop :=
  if key.nullsFirst then second.isNull = true → first.isNull = true
  else first.isNull = true → second.isNull = true

/-- Values in order have their nulls where the key wants them, whatever its direction. -/
theorem placesNulls_of_isLE {reading : Reading} {a b : Value}
    (h : (key.compareValues reading a b).isLE = true) : key.PlacesNulls a b := by
  rw [PlacesNulls]
  rw [compareValues] at h
  cases hplace : key.nullsFirst <;> cases ha : a.isNull <;> cases hb : b.isNull <;>
    rw [hplace, ha, hb] at h <;> first | exact absurd h Bool.false_ne_true | simp

/-- The first key that does not tie decides. -/
theorem compareUnder_append (earlier later : List SortKey) (a b : Record) :
    compareUnder store model (earlier ++ later) a b =
      (compareUnder store model earlier a b).then (compareUnder store model later a b) := by
  induction earlier with
  | nil => rfl
  | cons key rest ih =>
      refine (congrArg (compareRecords store model key a b).then ih).trans ?_
      exact (Ordering.then_assoc _ _ _).symm

/-- Records are compared by what the keys read of them. -/
theorem compareAll_eq (keys : List SortKey) (a b : Record) :
    compareAll (keys.map fun key => (key, key.reading store model))
        (keys.map fun key => key.value store model a)
        (keys.map fun key => key.value store model b) = compareUnder store model keys a b := by
  induction keys with
  | nil => rfl
  | cons key rest ih => exact congrArg (compareRecords store model key a b).then ih

/-! ## An order by one key -/

/-- The direction of a key and its place of nulls, as they are written in an `orderBy`. -/
def direction (key : SortKey) : Value :=
  .object [("sort", .string (if key.descending then "desc" else "asc")),
    ("nulls", .string (if key.nullsFirst then "first" else "last"))]

/-- An `orderBy` that has one key only.  Next to a nested field stands another one without a
    direction, since `_count` on its own would ask for the number of linked records. -/
def toOrderBy (key : SortKey) : Value :=
  match key.target with
  | .field name => .object [(name, key.direction)]
  | .relationCount relation => .object [(relation, .object [("_count", key.direction)])]
  | .nested parent field =>
      .object [(parent, .object [(field, key.direction), (field ++ "_", .null)])]

theorem direction?_direction (key : SortKey) :
    direction? key.direction = some (key.descending, key.nullsFirst) := by
  have hdesc : isDescending "desc" = true := by cbv
  have hasc : isDescending "asc" = false := by cbv
  obtain ⟨target, descending, nullsFirst⟩ := key
  cases descending <;> cases nullsFirst <;>
    simp [direction, direction?, Entries.get?, hdesc, hasc]

theorem ofTarget?_direction (key : SortKey) : ofTarget? key.target key.direction = some key := by
  rw [ofTarget?, direction?_direction]
  rfl

/-- An object without the name of a direction is no direction. -/
theorem ofTarget?_eq_none {target : SortTarget} {fields : Record}
    (h : ∀ text, Entries.get? "sort" fields ≠ some (.string text)) :
    ofTarget? target (.object fields) = none := by
  have hdirection : direction? (.object fields) = none := by
    rw [direction?]
    split
    · exact absurd ‹_› (h _)
    · rfl
  rw [ofTarget?, hdirection]
  rfl

/-- An order of one entry has the keys of this entry. -/
theorem ofValue_singleton (name : String) (spec : Value) :
    ofValue (.object [(name, spec)]) = ofEntry name spec := by
  simp only [ofValue, Value.objects, List.flatMap_singleton]

/-- An order by the number of linked records has one key. -/
theorem ofValue_count {relation : String} {spec : Value}
    (h : ofTarget? (.relationCount relation) spec = some key) :
    ofValue (.object [(relation, .object [("_count", spec)])]) = [key] := by
  have hnone : ofTarget? (.field relation) (.object [("_count", spec)]) = none :=
    ofTarget?_eq_none fun text => by
      rw [Entries.get?_cons, if_neg (by decide)]
      exact nofun
  simp only [ofValue_singleton, ofEntry, hnone, h]

/-- An order by one key has this key only. -/
theorem ofValue_toOrderBy (key : SortKey) : ofValue key.toOrderBy = [key] := by
  have hkey := ofTarget?_direction key
  rw [toOrderBy]
  cases htarget : key.target with
  | field name =>
      rw [htarget] at hkey
      simp only [ofValue_singleton, ofEntry, hkey]
  | relationCount relation => exact ofValue_count (htarget ▸ hkey)
  | nested parent field =>
      rw [htarget] at hkey
      have hnone : ofTarget? (.field parent)
          (.object [(field, key.direction), (field ++ "_", .null)]) = none :=
        ofTarget?_eq_none fun text => by
          rw [Entries.get?_cons, Entries.get?_cons]
          split_ifs <;> exact nofun
      have hpad : ofTarget? (.nested parent (field ++ "_")) .null = none := rfl
      simp only [ofValue_singleton, ofEntry, hnone, List.filterMap_cons, List.filterMap_nil, hkey,
        hpad]

theorem compareUnder_singleton (store : Store) (model : Model) (key : SortKey) :
    compareUnder store model [key] = compareRecords store model key :=
  funext fun _ => funext fun _ => Ordering.then_eq

end SortKey

namespace Store

variable {store : Store} {model : Model} {orderBy : Value} {records : List Record}

/-- Sorting records is sorting them by all keys. -/
theorem sort_eq (store : Store) (model : Model) (orderBy : Value) (records : List Record) :
    store.sort model orderBy records =
      ordered (SortKey.compareUnder store model (SortKey.ofValue orderBy)) records := by
  rw [sort, sortBy, sort_map, List.map_map]
  simp only [id_eq, SortKey.compareAll_eq]
  exact List.map_id _

/-- Records are others sorted by an `orderBy`: they are a permutation in the order of the keys,
    those that tie stand as they came, and among records that tie on the earlier keys each key has
    the nulls where it wants them.  Sorting by an order of a single key at a time, from the last key
    to the first, makes the same of them. -/
structure Sorted (store : Store) (model : Model) (orderBy : Value) (records sorted : List Record) :
    Prop where
  perm : sorted.Perm records
  ascends : sorted.Pairwise fun a b =>
    (SortKey.compareUnder store model (SortKey.ofValue orderBy) a b).isLE = true
  stable : ∀ record ∈ records,
    ties (SortKey.compareUnder store model (SortKey.ofValue orderBy)) record sorted =
      ties (SortKey.compareUnder store model (SortKey.ofValue orderBy)) record records
  nulls : ∀ earlier key later, SortKey.ofValue orderBy = earlier ++ key :: later →
    sorted.Pairwise fun a b => SortKey.compareUnder store model earlier a b = .eq →
      key.PlacesNulls (key.value store model a) (key.value store model b)
  successive : sorted = (SortKey.ofValue orderBy).foldr
    (fun key sorted => store.sort model key.toOrderBy sorted) records

/-- **Sorting is a stable lexicographic sort with fixed places for nulls.** -/
theorem sort_sorts
    (hkinds : ∀ key ∈ SortKey.ofValue orderBy,
      (key.reading store model).OfOneKind (records.map (key.value store model))) :
    Sorted store model orderBy records (store.sort model orderBy records) := by
  have hsorts : Sorts ((SortKey.ofValue orderBy).map (SortKey.compareRecords store model)) records
      (store.sort model orderBy records) := by
    rw [sort_eq]
    refine sorts_ordered fun cmp hcmp => ?_
    obtain ⟨key, hkey, rfl⟩ := List.mem_map.mp hcmp
    exact SortKey.transCmp_compareValues (hkinds key hkey) fun a => List.mem_map_of_mem a.2
  constructor
  case perm => exact hsorts.perm
  case ascends => exact hsorts.ascends
  case stable => exact hsorts.stable
  case nulls =>
    intro earlier key later hsplit
    refine List.Pairwise.imp (fun {a b} (hle : (SortKey.compareUnder store model
      (SortKey.ofValue orderBy) a b).isLE = true) htie => ?_) hsorts.ascends
    rw [hsplit, SortKey.compareUnder_append, htie] at hle
    exact SortKey.placesNulls_of_isLE (Ordering.isLE_left_of_isLE_then hle)
  case successive =>
    refine hsorts.successive.trans ?_
    rw [List.foldr_map]
    have hsingle (key : SortKey) (sorted : List Record) :
        ordered (SortKey.compareRecords store model key) sorted =
          store.sort model key.toOrderBy sorted := by
      rw [sort_eq, SortKey.ofValue_toOrderBy, SortKey.compareUnder_singleton]
    simp only [hsingle]

end Store

namespace Ladder

/-- Players with a rank that may be open. -/
def player : Model where
  name := "Player"
  fields := [{ name := "rank", kind := .scalar, typeName := "Int" },
    { name := "name", kind := .scalar, typeName := "String" }]

def schema : Schema where
  options := {}
  models := [player]
  nodup_names := by decide
  targets_known := by decide

def season : Store := Store.ofSchema schema 0 ⟨0⟩

def ann : Record := [("rank", .integer 1), ("name", .string "Ann")]
def bob : Record := [("rank", .null), ("name", .string "Bob")]
def cid : Record := [("rank", .integer 2), ("name", .string "cid")]
def dan : Record := [("rank", .integer 1), ("name", .string "dan")]

/-- Greatest rank first, open ranks before all, then by name from the end of the alphabet. -/
def orderBy : Value :=
  .array [.object [("rank", .object [("sort", .string "desc"), ("nulls", .string "first")])],
    .object [("name", .string "desc")]]

theorem sort_ladder :
    SortKey.ofValue orderBy = [⟨.field "rank", true, true⟩, ⟨.field "name", true, false⟩] ∧
    (∀ key ∈ SortKey.ofValue orderBy, (key.reading season player).OfOneKind
      ([ann, bob, cid, dan].map (key.value season player))) ∧
    season.sort player orderBy [ann, bob, cid, dan] = [bob, cid, dan, ann] ∧
    Store.Sorted season player orderBy [ann, bob, cid, dan] [bob, cid, dan, ann] := by
  have hkeys : SortKey.ofValue orderBy =
      [⟨.field "rank", true, true⟩, ⟨.field "name", true, false⟩] := by cbv
  have hkinds : ∀ key ∈ SortKey.ofValue orderBy, (key.reading season player).OfOneKind
      ([ann, bob, cid, dan].map (key.value season player)) := by
    rw [hkeys, List.forall_mem_cons, List.forall_mem_singleton]
    refine ⟨.inl ?_, .inr (.inl ?_)⟩ <;> unfold Value.AllRead <;> decide
  have hsort : season.sort player orderBy [ann, bob, cid, dan] = [bob, cid, dan, ann] := by cbv
  exact ⟨hkeys, hkinds, hsort, hsort ▸ Store.sort_sorts hkinds⟩

end Ladder

end RecordStore
