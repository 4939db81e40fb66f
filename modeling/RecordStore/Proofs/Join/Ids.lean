import RecordStore.Join
import RecordStore.Proofs.Equality

/-!
# Lists of ids

Ids are texts and 64-bit integers, or lists of them where several fields identify a record.  On
ids the equality that joins use is equality, so gathering ids one by one keeps the first of each.
-/

namespace RecordStore

namespace Value

/-- A text, or an integer that a 64-bit signed word holds. -/
def isAtom : Value → Bool
  | .string _ => true
  | .integer i => fitsInt64 i
  | _ => false

/-- The id of a record: one atom, or one for each field of a compound key. -/
def isId : Value → Bool
  | .array parts => parts.all isAtom
  | v => v.isAtom

/-- An atom is an id by itself. -/
theorem isId_of_isAtom {v : Value} (h : v.isAtom = true) : v.isId = true := by
  cases v with
  | array _ => cases h
  | _ => exact h

/-- An atom is not null. -/
theorem isNull_of_isAtom {v : Value} (h : v.isAtom = true) : v.isNull = false := by
  cases v with
  | null => cases h
  | _ => rfl

/-- An atom is a single value. -/
theorem isScalar_of_isAtom {v : Value} (h : v.isAtom = true) : v.isScalar = true := by
  cases v with
  | array _ => cases h
  | object _ => cases h
  | _ => rfl

/-- Atoms are equal as data only if they are one. -/
theorem eq_of_same_of_isAtom {a b : Value} (ha : a.isAtom = true) (h : same a b = true) :
    a = b := by
  cases a with
  | string s =>
      cases b with
      | string t => exact congrArg Value.string (beq_iff_eq.mp h)
      | _ => cases h
  | integer i =>
      cases b with
      | integer j => exact congrArg Value.integer (beq_iff_eq.mp h)
      | _ => cases h
  | _ => cases ha

/-- Ids are equal as data only if they are one. -/
theorem eq_of_same_of_isId {a b : Value} (ha : a.isId = true) (h : same a b = true) : a = b := by
  cases a with
  | array xs =>
      cases b with
      | array ys =>
          have hparts := (sameItems_iff xs ys).mp h
          have hatoms := List.all_eq_true.mp ha
          have heq : List.Forall₂ Eq xs ys :=
            List.forall₂_iff_zip.mpr ⟨hparts.length_eq, fun {x y} hmem =>
              eq_of_same_of_isAtom (hatoms x (List.of_mem_zip hmem).1)
                (List.forall₂_zip hparts hmem)⟩
          rw [List.forall₂_eq_eq_eq] at heq
          rw [heq]
      | _ => cases h
  | string s => exact eq_of_same_of_isAtom ha h
  | integer i => exact eq_of_same_of_isAtom ha h
  | _ => cases ha

/-- Every id equals itself as data. -/
theorem same_self_of_isId {a : Value} (ha : a.isId = true) : same a a = true := by
  have hatom {v : Value} (hv : v.isAtom = true) : same v v = true := by
    cases v with
    | string s => exact beq_self_eq_true s
    | integer i => exact beq_self_eq_true i
    | _ => cases hv
  cases a with
  | array parts =>
      rw [same, sameItems_iff, List.forall₂_same]
      exact fun v hv => hatom (List.all_eq_true.mp ha v hv)
  | string s => exact hatom ha
  | integer i => exact hatom ha
  | _ => cases ha

/-- A number that is an id is a 64-bit integer. -/
theorem int64?_isSome_of_number {a : Value} (ha : a.isId = true) {x : Float}
    (hx : a.number? = some x) : a.int64? ≠ none := by
  cases a with
  | integer i =>
      rw [int64?, if_pos (show fitsInt64 i = true from ha)]
      exact Option.some_ne_none i
  | double x => cases ha
  | _ => cases hx

end Value

/-- On ids, the equality that joins use is equality. -/
theorem sameId_iff {a b : Value} (ha : a.isId = true) (hb : b.isId = true) :
    sameId a b = true ↔ a = b := by
  unfold sameId Value.equals
  rw [Value.equalsPlain_iff]
  constructor
  · -- an id that is a number fits 64 bits, so no two ids are ever compared as doubles
    rintro (⟨i, hi, hj⟩ | ⟨hint, ⟨x, y, hx, hy, -⟩ | ⟨-, hsame⟩⟩)
    · have hinteger {v : Value} (hv : v.int64? = some i) : v = .integer i := by
        cases v with
        | integer j =>
            rw [Value.int64?] at hv
            split at hv
            · rw [Option.some.inj hv]
            · cases hv
        | _ => cases hv
      rw [hinteger hi, hinteger hj]
    · rcases hint with h | h
      · exact absurd h (Value.int64?_isSome_of_number ha hx)
      · exact absurd h (Value.int64?_isSome_of_number hb hy)
    · exact Value.eq_of_same_of_isId ha hsame
  · rintro rfl
    cases hint : a.int64? with
    | some i => exact Or.inl ⟨i, rfl, rfl⟩
    | none =>
        refine Or.inr ⟨Or.inl rfl, Or.inr ⟨Or.inl ?_, Value.same_self_of_isId ha⟩⟩
        cases hnumber : a.number? with
        | none => rfl
        | some x => exact absurd hint (Value.int64?_isSome_of_number ha hnumber)

/-! ## The first of each -/

/-- A list without repetitions of the items of another one, in the order in which they first come
    there. -/
structure FirstOf (items firsts : List Value) : Prop where
  nodup : firsts.Nodup
  mem_iff : ∀ x, x ∈ firsts ↔ x ∈ items
  ordered : firsts.Pairwise fun x y => ∃ before after, items = before ++ x :: after ∧ y ∉ before

/-- An id is known when it is in the list. -/
theorem any_sameId_iff {ids : List Value} {id : Value} (hids : ∀ x ∈ ids, x.isId = true)
    (hid : id.isId = true) : (ids.any fun known => sameId known id) = true ↔ id ∈ ids := by
  rw [List.any_eq_true]
  constructor
  · rintro ⟨known, hknown, hsame⟩
    rw [← (sameId_iff (hids known hknown) hid).mp hsame]
    exact hknown
  · exact fun hmem => ⟨id, hmem, (sameId_iff hid hid).mpr rfl⟩

theorem addId_of_mem {ids : List Value} {id : Value} (hids : ∀ x ∈ ids, x.isId = true)
    (hid : id.isId = true) (hmem : id ∈ ids) : addId ids id = ids :=
  if_pos ((any_sameId_iff hids hid).mpr hmem)

theorem addId_of_notMem {ids : List Value} {id : Value} (hids : ∀ x ∈ ids, x.isId = true)
    (hid : id.isId = true) (hmem : id ∉ ids) : addId ids id = ids ++ [id] :=
  if_neg fun h => hmem ((any_sameId_iff hids hid).mp h)

/-- One more item comes last among the first ones, if it is new. -/
theorem FirstOf.add {items firsts : List Value} (h : FirstOf items firsts)
    (hids : ∀ x ∈ items, x.isId = true) {id : Value} (hid : id.isId = true) :
    FirstOf (items ++ [id]) (addId firsts id) := by
  have hfirsts : ∀ x ∈ firsts, x.isId = true := fun x hx => hids x ((h.mem_iff x).mp hx)
  have hextend {x y : Value} (hbefore : ∃ before after, items = before ++ x :: after ∧ y ∉ before) :
      ∃ before after, items ++ [id] = before ++ x :: after ∧ y ∉ before := by
    obtain ⟨before, after, rfl, hy⟩ := hbefore
    exact ⟨before, after ++ [id], by simp, hy⟩
  by_cases hmem : id ∈ firsts
  · rw [addId_of_mem hfirsts hid hmem]
    refine ⟨h.nodup, fun x => ?_, h.ordered.imp hextend⟩
    rw [List.mem_append, List.mem_singleton, h.mem_iff]
    refine (or_iff_left_of_imp ?_).symm
    rintro rfl
    exact (h.mem_iff x).mp hmem
  · rw [addId_of_notMem hfirsts hid hmem]
    have hnew : id ∉ items := fun hin => hmem ((h.mem_iff id).mpr hin)
    refine ⟨?_, fun x => ?_, ?_⟩
    · exact List.nodup_append.mpr ⟨h.nodup, List.nodup_singleton id, fun x hx y hy heq =>
        hmem (List.mem_singleton.mp hy ▸ heq ▸ hx)⟩
    · rw [List.mem_append, List.mem_append, h.mem_iff]
    · -- the new id comes after the first occurrence of any other
      rw [List.pairwise_append]
      refine ⟨h.ordered.imp hextend, List.pairwise_singleton _ _, fun x hx y hy => ?_⟩
      rw [List.mem_singleton.mp hy]
      obtain ⟨before, after, hsplit⟩ := List.append_of_mem ((h.mem_iff x).mp hx)
      refine ⟨before, after ++ [id], by rw [hsplit]; simp, fun hbefore => hnew ?_⟩
      rw [hsplit]
      exact List.mem_append_left _ hbefore

/-- Gathering ids one by one gives the first of each. -/
theorem FirstOf.foldl {before known : List Value} (h : FirstOf before known)
    (hbefore : ∀ x ∈ before, x.isId = true) {items : List Value}
    (hitems : ∀ x ∈ items, x.isId = true) :
    FirstOf (before ++ items) (items.foldl addId known) := by
  induction items generalizing before known with
  | nil => rwa [List.append_nil]
  | cons id rest ih =>
      obtain ⟨hid, hrest⟩ := List.forall_mem_cons.mp hitems
      rw [List.append_cons]
      refine ih (h.add hbefore hid) (fun x hx => ?_) hrest
      rcases List.mem_append.mp hx with hold | hnew
      · exact hbefore x hold
      · exact List.mem_singleton.mp hnew ▸ hid

theorem FirstOf.nil : FirstOf [] [] := ⟨List.nodup_nil, fun _ => Iff.rfl, .nil⟩

/-- Gathering ids that have been gathered already is the same as gathering them at once. -/
theorem FirstOf.foldl_foldl {before known : List Value} (h : FirstOf before known)
    (hbefore : ∀ x ∈ before, x.isId = true) {items : List Value}
    (hitems : ∀ x ∈ items, x.isId = true) :
    (items.foldl addId []).foldl addId known = items.foldl addId known := by
  -- from the end: the last id is known on both sides or on neither
  induction items using List.reverseRecOn with
  | nil => rfl
  | append_singleton items id ih =>
      have hinit : ∀ x ∈ items, x.isId = true := fun x hx => hitems x (List.mem_append_left _ hx)
      have hid : id.isId = true :=
        hitems id (List.mem_append_right _ (List.mem_singleton_self id))
      have hgathered := FirstOf.nil.foldl (List.forall_mem_nil _) hinit
      have hall := h.foldl hbefore hinit
      rw [List.foldl_append, List.foldl_append]
      show (addId (items.foldl addId []) id).foldl addId known = addId (items.foldl addId known) id
      by_cases hmem : id ∈ items
      · rw [addId_of_mem (fun x hx => hinit x ((hgathered.mem_iff x).mp hx)) hid
          ((hgathered.mem_iff id).mpr hmem), ih hinit]
        refine (addId_of_mem (fun x hx => ?_) hid ((hall.mem_iff id).mpr ?_)).symm
        · rcases List.mem_append.mp ((hall.mem_iff x).mp hx) with hold | hnew
          · exact hbefore x hold
          · exact hinit x hnew
        · exact List.mem_append_right _ hmem
      · rw [addId_of_notMem (fun x hx => hinit x ((hgathered.mem_iff x).mp hx)) hid
          fun hin => hmem ((hgathered.mem_iff id).mp hin), List.foldl_append, ih hinit]
        rfl

/-- Gathering several lists in turn is the same as gathering what is gathered from each. -/
theorem FirstOf.foldl_flatMap {lists : List (List Value)}
    (hlists : ∀ items ∈ lists, ∀ x ∈ items, x.isId = true) {before known : List Value}
    (h : FirstOf before known) (hbefore : ∀ x ∈ before, x.isId = true) :
    (lists.flatMap fun items => items.foldl addId []).foldl addId known =
      lists.foldl (fun known items => items.foldl addId known) known := by
  induction lists generalizing before known with
  | nil => rfl
  | cons items rest ih =>
      obtain ⟨hitems, hrest⟩ := List.forall_mem_cons.mp hlists
      have hnext := h.foldl hbefore hitems
      rw [List.flatMap_cons, List.foldl_append, h.foldl_foldl hbefore hitems, List.foldl_cons]
      refine ih hrest hnext fun x hx => ?_
      rcases List.mem_append.mp hx with hold | hnew
      · exact hbefore x hold
      · exact hitems x hnew

end RecordStore
