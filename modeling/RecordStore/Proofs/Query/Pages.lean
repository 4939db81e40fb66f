import RecordStore.Query.Project
import Mathlib

/-!
# Pages of a query

A long answer can be read page by page: each page starts behind the last record of the one before,
which a cursor points at.  As long as every cursor matches its own record and no other, the pages
put together are the whole answer, whether it is read forward from its start or backward from its
end.  The two directions mirror each other, and the proof for both is one.
-/

namespace RecordStore

/-! ## Queries that shape nothing -/

namespace Store

variable {store : Store} {model : Model}

/-- Without a projection a query answers the records of its window as they are. -/
theorem query_of_unshaped {args : FindArguments} (h : args.projection = {})
    (records : List Record) :
    store.query model args records = .ok (store.window model args records) := by
  have hshape (records : List Record) :
      records.mapM (fun record => Projection.shape {} store model record) =
        Except.ok (ε := Error) records := by
    induction records with
    | nil => rfl
    | cons record rest ih =>
        rw [List.mapM_cons, ih]
        rfl
  rw [query, h]
  exact hshape _

/-- What a filter and an order make of a collection. -/
def ranked (store : Store) (model : Model) (filter : Option Record) (orderBy : Option Value) :
    List Record :=
  store.window model { filter, orderBy } (store.items model.name)

theorem find_ranked (filter : Option Record) (orderBy : Option Value) :
    store.find model { filter, orderBy } = .ok (store.ranked model filter orderBy) :=
  query_of_unshaped rfl _

end Store

/-! ## Directions -/

/-- Whether an answer is read from its start or from its end. -/
inductive Direction where
  | forward
  | backward

namespace Direction

variable {α : Type} (direction : Direction)

/-- A list as it is met in a direction. -/
def view (xs : List α) : List α :=
  match direction with
  | .forward => xs
  | .backward => xs.reverse

/-- The number that asks for some records: a negative one takes them from the end. -/
def take (n : Nat) : Int :=
  match direction with
  | .forward => n
  | .backward => -n

/-- Where the next page goes on: the last record of a page that is read forward, the first one of
    a page that is read backward. -/
def edge (page : List α) : Option α :=
  match direction with
  | .forward => page.getLast?
  | .backward => page.head?

/-- Pages put together in the order of the records. -/
def join (pages : List (List α)) : List α :=
  match direction with
  | .forward => pages.flatten
  | .backward => pages.reverse.flatten

@[simp] theorem view_nil : direction.view ([] : List α) = [] := by cases direction <;> rfl

@[simp] theorem view_view (xs : List α) : direction.view (direction.view xs) = xs := by
  cases direction with
  | forward => rfl
  | backward => exact List.reverse_reverse xs

theorem edge_view (page : List α) : direction.edge (direction.view page) = page.getLast? := by
  cases direction with
  | forward => rfl
  | backward => exact List.head?_reverse

theorem view_join (pages : List (List α)) :
    direction.view (direction.join pages) = (pages.map direction.view).flatten := by
  cases direction with
  | forward => exact (congrArg _ (List.map_id' pages)).symm
  | backward => rw [join, view, List.reverse_flatten, List.map_reverse, List.reverse_reverse]; rfl

end Direction

/-! ## Windows -/

namespace Window

variable {α : Type} {xs first rest : List α} {x : α} {isCursor : α → Bool} {n : Nat}

/-- **A page from the end mirrors a page from the start.** -/
theorem paginate_neg (skip : Nat) (n : Int) (xs : List α) :
    paginate skip (some (-n)) xs = (paginate skip (some n) xs.reverse).reverse := by
  -- a positive number is enough, since reversing twice changes nothing
  have hpositive (k : Nat) (xs : List α) :
      paginate skip (some (-(k + 1 : Nat))) xs =
        (paginate skip (some (k + 1 : Nat)) xs.reverse).reverse := by
    have hneg : -((k + 1 : Nat) : Int) < 0 := by omega
    have hpos : ¬ ((k + 1 : Nat) : Int) < 0 := by omega
    have hmin : min (xs.length - skip) xs.length = xs.length - skip := by omega
    rw [paginate, paginate]
    simp only [if_pos hneg, if_neg hpos, Int.natAbs_neg, Int.natAbs_natCast, Int.toNat_natCast]
    rw [List.drop_reverse, List.take_reverse, List.reverse_reverse, List.length_take, hmin,
      List.drop_take]
  rcases n with (_ | k) | k
  · simp [paginate]
  · exact hpositive k xs
  · rw [show -Int.negSucc k = ((k + 1 : Nat) : Int) from rfl,
      show Int.negSucc k = -((k + 1 : Nat) : Int) from rfl, hpositive, List.reverse_reverse,
      List.reverse_reverse]

/-- In either direction as many records are left out as were asked for, and then taken. -/
theorem paginate_take (direction : Direction) (skip n : Nat) (xs : List α) :
    paginate skip (some (direction.take n)) xs =
      direction.view (((direction.view xs).drop skip).take n) := by
  have hforward (xs : List α) :
      paginate skip (some (n : Int)) xs = (xs.drop skip).take n := by
    rw [paginate]
    exact if_neg (by omega)
  cases direction with
  | forward => exact hforward xs
  | backward => exact (paginate_neg skip n xs).trans (congrArg List.reverse (hforward xs.reverse))

/-- A cursor that matches one element only leaves this element and what is met behind it. -/
theorem fromCursor_take (direction : Direction) (hn : 1 ≤ n)
    (hsplit : direction.view xs = first ++ x :: rest) (hx : isCursor x = true)
    (hfirst : ∀ y ∈ first, isCursor y = false) (hrest : ∀ y ∈ rest, isCursor y = false) :
    fromCursor isCursor (some (direction.take n)) xs = direction.view (x :: rest) := by
  have hfind {before after : List α} (hbefore : ∀ y ∈ before, isCursor y = false) :
      (before ++ x :: after).findIdx? isCursor = some before.length := by
    rw [List.findIdx?_append, List.findIdx?_eq_none_iff.mpr hbefore, List.findIdx?_cons, hx]
    simp
  cases direction with
  | forward =>
      obtain rfl : xs = first ++ x :: rest := hsplit
      have hpos : ¬ (n : Int) < 0 := by omega
      simp only [fromCursor, Direction.take, hfind hfirst, if_neg hpos, List.drop_left,
        Direction.view]
  | backward =>
      obtain rfl : xs = rest.reverse ++ x :: first.reverse := by
        rw [← List.reverse_inj]
        simpa [Direction.view] using hsplit
      have hneg : -(n : Int) < 0 := by omega
      have hbefore : ∀ y ∈ rest.reverse, isCursor y = false := fun y hy =>
        hrest y (List.mem_reverse.mp hy)
      simp only [fromCursor, Direction.take, hfind hbefore, if_pos hneg, Direction.view]
      have hlength : (rest.reverse ++ [x]).length = rest.reverse.length + 1 := List.length_append
      rw [List.append_cons, ← hlength, List.take_left, List.reverse_cons]

end Window

/-! ## Reading on -/

namespace Store

variable {store : Store} {model : Model} {filter : Option Record} {orderBy : Option Value}
  {cursorOf : Record → Record} {n : Nat} {rows first rest : List Record} {row : Record}

/-- Every record of a list has a cursor that matches it, and no other one of the list. -/
structure Addresses (store : Store) (model : Model) (cursorOf : Record → Record)
    (rows : List Record) : Prop where
  itself : ∀ row ∈ rows, store.satisfies model row (cursorOf row) = true
  others : rows.Pairwise fun a b =>
    store.satisfies model a (cursorOf b) = false ∧ store.satisfies model b (cursorOf a) = false

/-- The arguments of a page: of the first one, or of the one behind a cursor. -/
def pageArguments (filter : Option Record) (orderBy : Option Value) (take : Int) :
    Option Record → FindArguments
  | none => { filter, orderBy, take := some take }
  | some cursor => { filter, orderBy, take := some take, cursor := some cursor, skip := some 1 }

/-- Pages read one after another, each behind the edge of the one before, until one is empty. -/
inductive Reads (store : Store) (model : Model) (cursorOf : Record → Record)
    (edge : List Record → Option Record) (page : Option Record → FindArguments) :
    Option Record → List (List Record) → Prop
  | stop {cursor} : store.find model (page cursor) = .ok [] →
      Reads store model cursorOf edge page cursor []
  | next {cursor records row pages} : store.find model (page cursor) = .ok records →
      edge records = some row →
      Reads store model cursorOf edge page (some (cursorOf row)) pages →
      Reads store model cursorOf edge page cursor (records :: pages)

/-- What has been read once is read again. -/
theorem Reads.unique {edge : List Record → Option Record} {page : Option Record → FindArguments}
    {cursor : Option Record} {pages others : List (List Record)} (hedge : edge [] = none)
    (h : Reads store model cursorOf edge page cursor pages)
    (hothers : Reads store model cursorOf edge page cursor others) : others = pages := by
  induction h generalizing others with
  | stop hempty =>
      cases hothers with
      | stop => rfl
      | next hfind hrow =>
          rw [hempty] at hfind
          cases hfind
          rw [hedge] at hrow
          cases hrow
  | next hfind hrow _ ih =>
      cases hothers with
      | stop hempty =>
          rw [hempty] at hfind
          cases hfind
          rw [hedge] at hrow
          cases hrow
      | next hfind' hrow' hrest =>
          rw [hfind] at hfind'
          cases hfind'
          rw [hrow] at hrow'
          cases hrow'
          rw [ih hrest]

/-- The first page has the records that are met first. -/
theorem find_first_page (direction : Direction) (n : Nat) :
    store.find model (pageArguments filter orderBy (direction.take n) none) =
      .ok (direction.view ((direction.view (store.ranked model filter orderBy)).take n)) := by
  refine (query_of_unshaped rfl _).trans (congrArg Except.ok ?_)
  exact Window.paginate_take direction 0 n _

/-- A later page has the records that are met behind the one that its cursor points at. -/
theorem find_next_page (direction : Direction) (hn : 1 ≤ n)
    (hcursor : Addresses store model cursorOf (store.ranked model filter orderBy))
    (hsplit : direction.view (store.ranked model filter orderBy) = first ++ row :: rest) :
    store.find model (pageArguments filter orderBy (direction.take n) (some (cursorOf row))) =
      .ok (direction.view (rest.take n)) := by
  have hothers : (first ++ row :: rest).Pairwise fun a b =>
      store.satisfies model a (cursorOf b) = false ∧
        store.satisfies model b (cursorOf a) = false := by
    rw [← hsplit]
    cases direction with
    | forward => exact hcursor.others
    | backward => exact List.pairwise_reverse.mpr (hcursor.others.imp And.symm)
  obtain ⟨hfirst, hrow, happart⟩ := List.pairwise_append.mp hothers
  have hmem : row ∈ store.ranked model filter orderBy := by
    have : row ∈ direction.view (store.ranked model filter orderBy) := hsplit ▸ by simp
    cases direction with
    | forward => exact this
    | backward => exact List.mem_reverse.mp this
  have hwindow := Window.fromCursor_take direction hn hsplit (hcursor.itself row hmem)
    (fun other hother => (happart other hother row List.mem_cons_self).1)
    (fun other hother => ((List.pairwise_cons.mp hrow).1 other hother).2)
  refine (query_of_unshaped rfl _).trans (congrArg Except.ok ?_)
  refine (congrArg (Window.paginate 1 (some (direction.take n))) hwindow).trans ?_
  rw [Window.paginate_take, Direction.view_view]
  rfl

/-- From any place on, what is left is read page by page. -/
theorem exists_reads (direction : Direction) (hn : 1 ≤ n)
    (hcursor : Addresses store model cursorOf (store.ranked model filter orderBy)) :
    ∀ (first rest : List Record) (cursor : Option Record),
      direction.view (store.ranked model filter orderBy) = first ++ rest →
      store.find model (pageArguments filter orderBy (direction.take n) cursor) =
        .ok (direction.view (rest.take n)) →
      ∃ pages, Reads store model cursorOf direction.edge
          (pageArguments filter orderBy (direction.take n)) cursor pages ∧
        (pages.map direction.view).flatten = rest
  | first, rest, cursor, hsplit, hfind => by
      rcases List.eq_nil_or_concat (rest.take n) with hnone | ⟨before, row, hpage⟩
      · rw [hnone, Direction.view_nil] at hfind
        have hrest : rest = [] := by
          rcases List.take_eq_nil_iff.mp hnone with rfl | hrest
          · exact absurd hn (by decide)
          · exact hrest
        exact ⟨[], .stop hfind, hrest.symm⟩
      · have hrest : rest = before ++ row :: rest.drop n :=
          calc rest = rest.take n ++ rest.drop n := (List.take_append_drop n rest).symm
            _ = before ++ row :: rest.drop n := by
              rw [hpage, List.concat_eq_append, List.append_assoc, List.singleton_append]
        have hsplit' : direction.view (store.ranked model filter orderBy) =
            (first ++ before) ++ row :: rest.drop n := by
          rw [hsplit, List.append_assoc, ← hrest]
        have hshorter : (rest.drop n).length < rest.length := by
          have := congrArg List.length hrest
          rw [List.length_append, List.length_cons] at this
          omega
        obtain ⟨pages, hreads, hpages⟩ := exists_reads direction hn hcursor
          (first ++ before ++ [row]) (rest.drop n) _ (by rw [hsplit', List.append_cons])
          (find_next_page direction hn hcursor hsplit')
        have hedge : direction.edge (direction.view (rest.take n)) = some row := by
          rw [Direction.edge_view, hpage, List.concat_eq_append, List.getLast?_concat]
        refine ⟨_, .next hfind hedge hreads, ?_⟩
        rw [List.map_cons, List.flatten_cons, Direction.view_view, hpages, List.take_append_drop]
termination_by _ rest => rest.length

/-- **Paging loses and repeats nothing**: in either direction the pages are read to an end, there
    is one way to read them, and put together they are the whole answer.  A page from the end
    mirrors a page from the start. -/
theorem pages_complete (store : Store) (model : Model) (filter : Option Record)
    (orderBy : Option Value) (hn : 1 ≤ n) :
    (∃ rows, store.find model { filter, orderBy } = .ok rows ∧
      ∀ cursorOf, Addresses store model cursorOf rows → ∀ direction : Direction,
        ∃ pages, (∀ others, Reads store model cursorOf direction.edge
            (pageArguments filter orderBy (direction.take n)) none others ↔ others = pages) ∧
          direction.join pages = rows) ∧
    ∀ (skip : Nat) (count : Int) (records : List Record),
      Window.paginate skip (some (-count)) records =
        (Window.paginate skip (some count) records.reverse).reverse := by
  refine ⟨⟨_, find_ranked filter orderBy, fun cursorOf hcursor direction => ?_⟩,
    Window.paginate_neg⟩
  obtain ⟨pages, hreads, hpages⟩ := exists_reads direction hn hcursor []
    (direction.view (store.ranked model filter orderBy)) none rfl (find_first_page direction n)
  have hedge : direction.edge ([] : List Record) = none := by cases direction <;> rfl
  refine ⟨pages, fun others => ⟨hreads.unique hedge, fun h => h ▸ hreads⟩, ?_⟩
  rw [← Direction.view_join] at hpages
  rw [← Direction.view_view direction (direction.join pages), hpages, Direction.view_view]

end Store

namespace Feed

/-- News in the order of their numbers. -/
def news : Model where
  name := "News"
  fields := [{ name := "number", kind := .scalar, typeName := "Int", isId := true }]

def schema : Schema where
  options := {}
  models := [news]
  nodup_names := by decide
  targets_known := by decide

def item (number : Int) : Record := [("number", .integer number)]

/-- Three news, of which the last two are to be read. -/
def feed : Store := (Store.ofSchema schema 0 ⟨0⟩).setItems "News" [item 1, item 2, item 3]

def recent : Record := [("number", .object [("gt", .integer 1)])]

/-- A record is addressed by its number. -/
theorem addresses_number : feed.Addresses news id [item 2, item 3] where
  itself := by decide
  others := by decide

/-- One at a time, the later one is read first on the way back. -/
theorem pages_feed :
    1 ≤ 1 ∧ feed.find news { filter := some recent } = .ok [item 2, item 3] ∧
      feed.Addresses news id [item 2, item 3] ∧
      ∃ pages, (∀ others, feed.Reads news id Direction.backward.edge
          (Store.pageArguments (some recent) none (Direction.backward.take 1)) none others ↔
            others = pages) ∧
        Direction.backward.join pages = [item 2, item 3] := by
  have hfind : feed.find news { filter := some recent } = .ok [item 2, item 3] := by cbv
  obtain ⟨⟨rows, hrows, hread⟩, -⟩ :=
    Store.pages_complete feed news (some recent) none (Nat.le_refl 1)
  obtain rfl : rows = [item 2, item 3] := Except.ok.inj (hrows.symm.trans hfind)
  exact ⟨Nat.le_refl 1, hfind, addresses_number, hread id addresses_number .backward⟩

end Feed

end RecordStore
