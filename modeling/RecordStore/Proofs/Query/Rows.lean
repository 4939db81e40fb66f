import RecordStore.Operation
import RecordStore.Proofs.Query.Pages

/-!
# The rows that reads share

All reads of a client go through one query.  A count leaves the projection out, which neither adds
nor drops a row; a read of the first record takes one row unless it is told how many, which neither
moves the cursor nor changes the row that comes first.  So they agree with the list of all rows.
-/

namespace RecordStore

/-- A list is shaped when each of its elements is, and then it is shaped element by element. -/
theorem mapM_eq_ok_iff {α β ε : Type} {f : α → Except ε β} {xs : List α} {ys : List β} :
    xs.mapM f = .ok ys ↔ List.Forall₂ (fun x y => f x = .ok y) xs ys := by
  induction xs generalizing ys with
  | nil =>
      rw [List.forall₂_nil_left_iff]
      exact ⟨fun h => (Except.ok.inj h).symm, fun h => h ▸ rfl⟩
  | cons x rest ih =>
      rw [List.mapM_cons, List.forall₂_cons_left_iff]
      cases hfirst : f x with
      | error e =>
          refine ⟨nofun, ?_⟩
          rintro ⟨_, _, h, -⟩
          cases h
      | ok y =>
          simp only [Except.ok.injEq, ← ih]
          cases hrest : rest.mapM f with
          | error e =>
              refine ⟨nofun, ?_⟩
              rintro ⟨_, _, -, h, -⟩
              cases h
          | ok others =>
              refine ⟨fun h => ⟨y, others, rfl, rfl, (Except.ok.inj h).symm⟩, ?_⟩
              rintro ⟨_, _, rfl, h, rfl⟩
              cases h
              rfl

/-! ## Taking one row -/

namespace Window

variable {α : Type}

/-- A cursor is where it is, whether one row is taken from there on or all of them. -/
theorem fromCursor_one (isCursor : α → Bool) (xs : List α) :
    fromCursor isCursor (some 1) xs = fromCursor isCursor none xs := by
  unfold fromCursor
  cases xs.findIdx? isCursor <;> rfl

theorem paginate_one (skip : Nat) (xs : List α) :
    paginate skip (some 1) xs = (paginate skip none xs).take 1 := rfl

/-- The first row comes first among those that differ from the rows before them. -/
theorem distinct_take_one (fields : List String) (records : List Record) :
    distinct fields (records.take 1) = (distinct fields records).take 1 := by
  unfold distinct
  split
  · rfl
  · cases records with
    | nil => rfl
    | cons record rest => rfl

end Window

namespace Store

variable {store : Store} {model : Model} {args : FindArguments} {rows : List Record}

/-- A query that is not told how many rows to take has the same first row when it takes one. -/
theorem window_take_one (htake : args.take = none) (records : List Record) :
    store.window model { args with take := some 1 } records =
      (store.window model args records).take 1 := by
  unfold window
  simp only [htake, Window.fromCursor_one, Window.paginate_one]
  cases args.distinct with
  | none => rfl
  | some distinct => exact Window.distinct_take_one _ _

/-- A query answers when its projection is no conflict and shapes every row of its window. -/
theorem find_eq_ok_iff : store.find model args = .ok rows ↔
    args.projection.check = .ok () ∧
      List.Forall₂ (fun record row => args.projection.shape store model record = .ok row)
        (store.window model args (store.items model.name)) rows := by
  rw [find, query, ← mapM_eq_ok_iff]
  cases args.projection.check with
  | error e =>
      constructor
      · intro h
        cases h
      · rintro ⟨hcheck, -⟩
        cases hcheck
  | ok _ => exact ⟨fun h => ⟨rfl, h⟩, And.right⟩

/-- Taking one row where nothing else is said shapes the first row and no other. -/
theorem find_default_take (h : store.find model args = .ok rows) :
    ∃ first, store.find model { args with take := some (args.take.getD 1) } = .ok first ∧
      first.head? = rows.head? := by
  cases htake : args.take with
  | some take =>
      refine ⟨rows, ?_, rfl⟩
      rw [Option.getD_some, ← htake]
      exact h
  | none =>
      obtain ⟨hcheck, hshaped⟩ := find_eq_ok_iff.mp h
      refine ⟨rows.take 1, find_eq_ok_iff.mpr ⟨hcheck, ?_⟩, List.head?_take⟩
      rw [Option.getD_none, window_take_one htake]
      exact List.forall₂_take 1 hshaped

/-- Without a projection as many rows are answered as with one. -/
theorem find_unshaped (h : store.find model args = .ok rows) :
    ∃ all, store.find model { args with projection := {} } = .ok all ∧
      all.length = rows.length :=
  ⟨_, query_of_unshaped rfl _, (find_eq_ok_iff.mp h).2.length_eq⟩

/-- Rows are those of the arguments that are read. -/
theorem arguments_of_findMany {args : Value} (h : store.findMany model args = .ok rows) :
    ∃ parsed, Arguments.find args = .ok parsed ∧ store.find model parsed = .ok rows := by
  unfold findMany at h
  cases hargs : Arguments.find args with
  | error e =>
      rw [hargs] at h
      cases h
  | ok parsed =>
      rw [hargs] at h
      exact ⟨parsed, rfl, h⟩

/-- A read of the first record sees the first row of the list. -/
theorem findFirst_of_findMany {args : Value} (h : store.findMany model args = .ok rows) :
    store.findFirst model args = .ok rows.head? := by
  obtain ⟨parsed, hargs, hfind⟩ := arguments_of_findMany h
  obtain ⟨first, hfirst, hhead⟩ := find_default_take hfind
  rw [← hhead]
  simp only [findFirst, hargs, hfirst, bind, Except.bind]
  rfl

/-- A count sees the length of the list. -/
theorem count_of_findMany {args : Value} (h : store.findMany model args = .ok rows) :
    store.count model args = .ok rows.length := by
  obtain ⟨parsed, hargs, hfind⟩ := arguments_of_findMany h
  obtain ⟨all, hall, hlength⟩ := find_unshaped hfind
  rw [← hlength]
  simp only [count, hargs, hall, bind, Except.bind]
  rfl

/-- What a read that insists on a record makes of the one that is found, or not. -/
theorem findFirstOrThrow_of_findFirst {args : Value} {found : Option Record}
    (h : store.findFirst model args = .ok found) :
    store.findFirstOrThrow model args =
      found.elim (.error (.notFound model.name .toFind)) .ok := by
  unfold findFirstOrThrow
  rw [h]
  cases found <;> rfl

/-- **Reads agree**: whatever its arguments ask for, where a query answers rows, a count is their
    number; a read of the first record finds the first row, and none exactly when there are no rows;
    and one that insists on a record answers the first row, or fails exactly when there are none. -/
theorem reads_agree {args : Value} (h : store.findMany model args = .ok rows) :
    store.count model args = .ok rows.length ∧
      (store.findFirst model args = .ok rows.head? ∧
        store.findUnique model args = .ok rows.head? ∧
        (store.findFirst model args = .ok none ↔ rows = [])) ∧
      (store.findFirstOrThrow model args =
          rows.head?.elim (.error (.notFound model.name .toFind)) .ok ∧
        store.findUniqueOrThrow model args =
          rows.head?.elim (.error (.notFound model.name .toFind)) .ok ∧
        (store.findFirstOrThrow model args = .error (.notFound model.name .toFind) ↔
          rows = [])) := by
  have hfirst := findFirst_of_findMany h
  have hinsists := findFirstOrThrow_of_findFirst hfirst
  refine ⟨count_of_findMany h, ⟨hfirst, hfirst, ?_⟩, hinsists, hinsists, ?_⟩
  · rw [hfirst, Except.ok.injEq, List.head?_eq_none_iff]
  · rw [hinsists]
    cases rows with
    | nil => exact iff_of_true rfl rfl
    | cons row rest => exact iff_of_false nofun nofun

end Store

namespace Playlist

/-- Songs in the order in which they are played. -/
def song : Model where
  name := "Song"
  fields := [{ name := "id", kind := .scalar, typeName := "Int", isId := true },
    { name := "artist", kind := .scalar, typeName := "String" }]

def schema : Schema where
  options := {}
  models := [song]
  nodup_names := by decide
  targets_known := by decide

def played (id : Int) (artist : String) : Record :=
  [("id", .integer id), ("artist", .string artist)]

def evening : Store :=
  (Store.ofSchema schema 0 ⟨0⟩).setItems "Song"
    [played 1 "Ada", played 2 "Bob", played 3 "Cleo", played 4 "Cleo", played 5 "Dan"]

/-- The artists that come after the second song. -/
def upcoming : Value :=
  .object [("cursor", .object [("id", .integer 2)]), ("skip", .integer 1),
    ("distinct", .array [.string "artist"]), ("select", .object [("artist", .bool true)])]

/-- Two artists are left, and the next one is the first of them. -/
theorem reads_of_evening :
    evening.findMany song upcoming =
        .ok [[("artist", .string "Cleo")], [("artist", .string "Dan")]] ∧
      evening.count song upcoming = .ok 2 ∧
      evening.findFirst song upcoming = .ok (some [("artist", .string "Cleo")]) ∧
      evening.findUniqueOrThrow song upcoming = .ok [("artist", .string "Cleo")] := by
  have hrows : evening.findMany song upcoming =
      .ok [[("artist", .string "Cleo")], [("artist", .string "Dan")]] := by cbv
  obtain ⟨hcount, ⟨hfirst, -, -⟩, -, hinsists, -⟩ := Store.reads_agree hrows
  exact ⟨hrows, hcount, hfirst, hinsists⟩

end Playlist

end RecordStore
