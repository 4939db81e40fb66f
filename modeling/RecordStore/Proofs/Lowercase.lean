import Mathlib
import RecordStore.Value.Comparison

/-!
# Lower case of numerals and dates

Numerals and dates are written with marks: digits, white space, signs, and the letters of a time.
Readers of numerals and dates take nothing but marks off a text, and read marks alike in either
case.  A text that stands for an integer or for an instant therefore stands for the same one in
lower case.
-/

namespace RecordStore

namespace Text

variable {c d : Char} {cs : List Char} {s : String}

/-! ## Marks -/

/-- The code points of the characters that numerals and dates are written with. -/
def markCodes : List Nat :=
  List.range' 0x9 5 ++ List.range' 0x30 11 ++ List.range' 0x2000 11 ++
    [0x20, 0x2B, 0x2D, 0x2E, 0x54, 0x5A, 0x74, 0x7A, 0x85, 0xA0, 0x1680, 0x2028, 0x2029, 0x202F,
      0x205F, 0x2212, 0x3000]

/-- Whether numerals or dates are written with a character. -/
def isMark (c : Char) : Bool := markCodes.contains c.toNat

/-- Every character of a text is a mark. -/
def Marked (cs : List Char) : Prop := ∀ c ∈ cs, isMark c = true

/-- A mark in lower case.  Of all marks only the `T` and the `Z` of a time are capital letters. -/
def small (c : Char) : Char := if c = 'T' then 't' else if c = 'Z' then 'z' else c

theorem marked_nil : Marked [] := List.forall_mem_nil _

theorem marked_cons : Marked (c :: cs) ↔ isMark c = true ∧ Marked cs := List.forall_mem_cons

/-- Digits are marks. -/
theorem isMark_of_isDigit (h : Numeral.isDigit c = true) : isMark c = true := by
  have hrange : 48 ≤ c.toNat ∧ c.toNat ≤ 57 := by
    rw [Numeral.isDigit, Numeral.digit?] at h
    split at h
    case isTrue hrange => exact hrange
    case isFalse => cases h
  rw [isMark, List.contains_iff_mem]
  simp only [markCodes, List.mem_append, List.mem_range'_1]
  omega

/-- So is white space, in all its forms. -/
theorem isMark_of_isBlank (h : isBlank c = true) : isMark c = true := by
  rw [isMark, List.contains_iff_mem]
  simp only [isBlank, Bool.or_eq_true, Bool.and_eq_true, decide_eq_true_eq, beq_iff_eq] at h
  simp only [markCodes, List.mem_append, List.mem_range'_1, List.mem_cons]
  omega

/-- Lower case takes each mark to its small form.  None of them is the sigma, which has two. -/
theorem lowercaseChar_of_isMark (h : isMark c = true) :
    lowercaseChar c = [small c] ∧ c.toNat ≠ 0x3A3 := by
  have hall : ∀ n ∈ markCodes, lowercaseChar (Char.ofNat n) = [small (Char.ofNat n)] ∧
      (Char.ofNat n).toNat ≠ 0x3A3 := by decide +kernel
  have hc := hall c.toNat (List.contains_iff_mem.mp h)
  rwa [Char.ofNat_toNat] at hc

/-- Lower case takes a text of marks to their small forms, one by one. -/
theorem lowercaseFrom_of_marked (h : Marked cs) (before : List Char) :
    lowercaseFrom before cs = cs.map small := by
  induction cs generalizing before with
  | nil => rfl
  | cons c rest ih =>
      obtain ⟨hc, hrest⟩ := marked_cons.mp h
      obtain ⟨hsmall, hsigma⟩ := lowercaseChar_of_isMark hc
      simp only [lowercaseFrom, if_neg hsigma, hsmall, ih hrest, List.map_cons,
        List.singleton_append]

theorem toList_lowercase (h : Marked s.toList) : (lowercase s).toList = s.toList.map small := by
  rw [lowercase, String.toList_ofList, lowercaseFrom_of_marked h]

/-! ## What small forms are -/

/-- A property that the small letters of a time share with the capital ones does not tell small
    forms apart. -/
theorem small_congr {β : Type} {f : Char → β} (hT : f 't' = f 'T') (hZ : f 'z' = f 'Z') (c : Char) :
    f (small c) = f c := by
  unfold small
  split_ifs with h h'
  · rw [h, hT]
  · rw [h', hZ]
  · rfl

/-- Digits and white space have no case. -/
theorem digit?_small (c : Char) : Numeral.digit? (small c) = Numeral.digit? c :=
  small_congr rfl rfl c

theorem isDigit_small (c : Char) : Numeral.isDigit (small c) = Numeral.isDigit c :=
  small_congr rfl rfl c

theorem isBlank_small (c : Char) : isBlank (small c) = isBlank c := small_congr rfl rfl c

/-- What is no letter of a time is the small form of itself only. -/
theorem small_eq_iff (h : d ∉ ['T', 't', 'Z', 'z']) : small c = d ↔ c = d := by
  simp only [List.mem_cons, List.not_mem_nil, or_false, not_or] at h
  obtain ⟨hT, ht, hZ, hz⟩ := h
  refine iff_of_eq (small_congr (f := fun c => c = d) ?_ ?_ c)
  · exact propext (iff_of_false (Ne.symm ht) (Ne.symm hT))
  · exact propext (iff_of_false (Ne.symm hz) (Ne.symm hZ))

/-- A test that has no case takes the same characters off a text in lower case. -/
theorem takeWhile_small {p : Char → Bool} (hp : ∀ c, p (small c) = p c) (cs : List Char) :
    (cs.map small).takeWhile p = (cs.takeWhile p).map small := by
  rw [List.takeWhile_map, show p ∘ small = p from funext hp]

theorem dropWhile_small {p : Char → Bool} (hp : ∀ c, p (small c) = p c) (cs : List Char) :
    (cs.map small).dropWhile p = (cs.dropWhile p).map small := by
  rw [List.dropWhile_map, show p ∘ small = p from funext hp]

/-- What stands before the rest of a text are marks, if a test of marks has skipped it. -/
theorem marked_of_dropWhile {p : Char → Bool} (hp : ∀ c, p c = true → isMark c = true)
    (h : Marked (cs.dropWhile p)) : Marked cs := by
  intro c hc
  rw [← List.takeWhile_append_dropWhile (p := p) (l := cs), List.mem_append] at hc
  exact hc.elim (fun hc => hp c (List.mem_takeWhile_imp hc)) (h c)

theorem trimStart_small (cs : List Char) : trimStart (cs.map small) = (trimStart cs).map small :=
  dropWhile_small isBlank_small cs

/-- What is skipped in front of a text is white space, so it is made of marks. -/
theorem marked_of_trimStart (h : Marked (trimStart cs)) : Marked cs :=
  marked_of_dropWhile (fun _ => isMark_of_isBlank) h

/-- White space around a text is skipped alike in either case. -/
theorem trim_small (cs : List Char) : trim (cs.map small) = (trim cs).map small := by
  simp only [trim, trimStart_small, ← List.map_reverse]

theorem marked_of_trim (h : Marked (trim cs)) : Marked cs := by
  have hreverse {cs : List Char} (h : Marked cs.reverse) : Marked cs :=
    fun c hc => h c (List.mem_reverse.mpr hc)
  exact marked_of_trimStart (hreverse (marked_of_trimStart (hreverse h)))

/-! ## Readers of marks -/

/-- A reader that takes only marks off a text, and finds the same in small forms.  What it finds may
    have in it the rest of the text, `left`, and `inSmall` is the same with the rest in small
    forms. -/
structure TakesMarks {σ : Type} (left : σ → List Char) (inSmall : σ → σ)
    (read : List Char → Option σ) : Prop where
  small (cs : List Char) : read (cs.map small) = (read cs).map inSmall
  marked {cs : List Char} {found : σ} : read cs = some found → Marked (left found) → Marked cs

/-- What has been read from the front of a text, and the rest of it in small forms. -/
def restSmall {α : Type} (found : α × List Char) : α × List Char :=
  (found.1, found.2.map small)

/-- A reader of the front of a text. -/
abbrev TakesFront {α : Type} (read : List Char → Option (α × List Char)) : Prop :=
  TakesMarks Prod.snd restSmall read

/-- A reader that skips the front of a text. -/
abbrev SkipsFront (read : List Char → Option (List Char)) : Prop :=
  TakesMarks id (List.map small) read

/-- A reader of the whole text. -/
abbrev TakesAll {α : Type} (read : List Char → Option α) : Prop :=
  TakesMarks (fun _ => []) id read

namespace TakesMarks

variable {σ α β : Type} {left : σ → List Char} {inSmall : σ → σ}

/-- Something is read from the front of a text before the rest is read. -/
theorem after {read : List Char → Option (α × List Char)} {next : α × List Char → Option σ}
    (hread : TakesFront read)
    (hnext : ∀ value, TakesMarks left inSmall fun cs => next (value, cs)) :
    TakesMarks left inSmall fun cs => (read cs).bind next where
  small cs := by
    rw [hread.small]
    cases read cs with
    | none => rfl
    | some found => exact (hnext found.1).small found.2
  marked {cs found} h hleft := by
    obtain ⟨front, hfront, hfound⟩ := Option.bind_eq_some_iff.mp h
    exact hread.marked hfront ((hnext front.1).marked hfound hleft)

/-- Something is skipped at the front of a text before the rest is read. -/
theorem behind {skip : List Char → Option (List Char)} {next : List Char → Option σ}
    (hskip : SkipsFront skip) (hnext : TakesMarks left inSmall next) :
    TakesMarks left inSmall fun cs => (skip cs).bind next where
  small cs := by
    rw [hskip.small]
    cases skip cs with
    | none => rfl
    | some rest => exact hnext.small rest
  marked h hleft := by
    obtain ⟨rest, hrest, hfound⟩ := Option.bind_eq_some_iff.mp h
    exact hskip.marked hrest (hnext.marked hfound hleft)

/-- What has been read from a whole text may be refused or taken for something else. -/
theorem bind {read : List Char → Option α} (hread : TakesAll read) (next : α → Option σ) :
    TakesAll fun cs => (read cs).bind next where
  small cs := by rw [hread.small, Option.map_id, id, Option.map_id, id]
  marked h _ := by
    obtain ⟨found, hfound, -⟩ := Option.bind_eq_some_iff.mp h
    exact hread.marked hfound marked_nil

/-- What has been read from the front of a text may be taken for something else. -/
theorem map {read : List Char → Option (α × List Char)} (hread : TakesFront read) (f : α → β) :
    TakesFront fun cs => (read cs).map fun (value, rest) => (f value, rest) where
  small cs := by
    rw [hread.small]
    cases read cs <;> rfl
  marked h hleft := by
    obtain ⟨front, hfront, rfl⟩ := Option.map_eq_some_iff.mp h
    exact hread.marked hfront hleft

/-- A text may be read in one way or else in another. -/
theorem or {first second : List Char → Option α} (hfirst : TakesAll first)
    (hsecond : TakesAll second) : TakesAll fun cs => (first cs).or (second cs) where
  small cs := by simp only [hfirst.small, hsecond.small, Option.map_id, id]
  marked h _ := by
    rcases Option.or_eq_some_iff.mp h with h | ⟨-, h⟩
    · exact hfirst.marked h marked_nil
    · exact hsecond.marked h marked_nil

/-- White space in front of a text is skipped before it is read. -/
theorem trimmed {read : List Char → Option σ} (hread : TakesMarks left inSmall read) :
    TakesMarks left inSmall fun cs => read (trimStart cs) where
  small cs := by rw [trimStart_small, hread.small]
  marked h hleft := marked_of_trimStart (hread.marked h hleft)

/-- Nothing is left but what decides whether there is something to be found. -/
theorem ofEnd {p : Prop} [Decidable p] (found : σ) :
    TakesAll fun cs => if cs = [] ∧ p then some found else none where
  small cs := by simp only [List.map_eq_nil_iff, Option.map_id, id]
  marked {cs _} h _ := by
    split at h
    case isTrue hend => exact hend.1 ▸ marked_nil
    case isFalse => cases h

/-- **Case does not matter** to what is read from a whole text. -/
theorem lowercase {read : List Char → Option α} (hread : TakesAll read) {found : α}
    (h : read s.toList = some found) : read (lowercase s).toList = some found := by
  rw [toList_lowercase (hread.marked h marked_nil), hread.small, h]
  rfl

end TakesMarks

end Text

open Text

namespace Numeral

variable {c : Char} {cs : List Char} {acc n : Nat}

/-- Digits are read alike in either case. -/
theorem digitsFrom_small (acc : Nat) (cs : List Char) :
    digitsFrom acc (cs.map small) = digitsFrom acc cs := by
  induction cs generalizing acc with
  | nil => rfl
  | cons c rest ih => simp only [List.map_cons, digitsFrom, digit?_small, ih]

/-- Only digits are read as digits. -/
theorem isDigit_of_digitsFrom (h : digitsFrom acc cs = some n) : ∀ c ∈ cs, isDigit c = true := by
  induction cs generalizing acc with
  | nil => exact List.forall_mem_nil _
  | cons c rest ih =>
      rw [digitsFrom] at h
      cases hc : digit? c with
      | none => rw [hc] at h; cases h
      | some d =>
          rw [hc] at h
          exact List.forall_mem_cons.mpr ⟨by rw [isDigit, hc]; rfl, ih h⟩

/-- A natural number is written with digits only. -/
theorem takesAll_natural? : TakesAll natural? where
  small cs := by
    rw [Option.map_id, id]
    cases cs with
    | nil => rfl
    | cons c rest => exact digitsFrom_small 0 (c :: rest)
  marked {cs n} h _ := by
    cases cs with
    | nil => cases h
    | cons c rest => exact fun d hd => isMark_of_isDigit (isDigit_of_digitsFrom h d hd)

theorem natural?_small (cs : List Char) : natural? (cs.map small) = natural? cs := by
  rw [takesAll_natural?.small, Option.map_id, id]

theorem signed_cons (c : Char) (rest : List Char) :
    signed (c :: rest) =
      if c = '-' then (true, rest) else if c = '+' then (false, rest) else (false, c :: rest) := by
  unfold signed
  split <;> simp_all

/-- A sign, if there is one, is taken off the front. -/
theorem takesFront_signed : TakesFront fun cs => some (signed cs) where
  small cs := by
    refine congrArg some ?_
    cases cs with
    | nil => rfl
    | cons c rest =>
        simp only [List.map_cons, signed_cons, small_eq_iff (d := '-') (by decide),
          small_eq_iff (d := '+') (by decide)]
        split_ifs <;> rfl
  marked {cs found} h hleft := by
    obtain rfl := Option.some.inj h
    cases cs with
    | nil => exact marked_nil
    | cons c rest =>
        rw [signed_cons] at hleft
        split_ifs at hleft with hminus hplus
        · exact marked_cons.mpr ⟨by rw [hminus]; decide, hleft⟩
        · exact marked_cons.mpr ⟨by rw [hplus]; decide, hleft⟩
        · exact hleft

/-- An integer numeral is a sign and digits. -/
theorem integer?_eq_bind (cs : List Char) :
    integer? cs = (some (signed cs)).bind fun (negative, digits) => (natural? digits).bind fun n =>
      let i : Int := if negative then -(n : Int) else n
      if fitsInt128 i then some i else none := by
  rw [integer?, Option.bind_some]
  dsimp only
  cases natural? (signed cs).2 <;> rfl

/-- An integer numeral is made of marks, and has no case. -/
theorem takesAll_integer? : TakesAll integer? := by
  rw [funext integer?_eq_bind]
  exact takesFront_signed.after fun _ => takesAll_natural?.bind _

/-- Case does not matter to an integer numeral, which may have white space around it. -/
theorem integer?_trim_lowercase {s : String} {i : Int} (h : integer? (trim s.toList) = some i) :
    integer? (trim (lowercase s).toList) = some i := by
  have hread : TakesAll fun cs => integer? (trim cs) :=
    ⟨fun cs => by rw [trim_small, takesAll_integer?.small],
      fun h _ => marked_of_trim (takesAll_integer?.marked h marked_nil)⟩
  exact hread.lowercase h

end Numeral

namespace Calendar.Instant

open Numeral

variable {cs : List Char}

/-! ## Readers of dates -/

/-- A number of a fixed length is taken off the front. -/
theorem takesFront_fixedDigits (n : Nat) : TakesFront (fixedDigits n) where
  small cs := by
    simp only [fixedDigits, ← List.map_take, ← List.map_drop, List.length_map, natural?_small]
    split_ifs
    · cases natural? (cs.take n) <;> rfl
    · rfl
  marked {cs found} h hleft := by
    rw [fixedDigits] at h
    split at h
    case isTrue =>
      obtain ⟨number, hnumber, rfl⟩ := Option.map_eq_some_iff.mp h
      intro c hc
      rw [← List.take_append_drop n cs, List.mem_append] at hc
      exact hc.elim (takesAll_natural?.marked hnumber marked_nil c) (hleft c)
    case isFalse => cases h

/-- So is a symbol that is no letter of a time. -/
theorem skipsFront_symbol {c : Char} (hc : c ∉ ['T', 't', 'Z', 'z']) (hmark : isMark c = true) :
    SkipsFront (symbol c) where
  small cs := by
    cases cs with
    | nil => rfl
    | cons d rest =>
        simp only [List.map_cons, symbol, small_eq_iff hc]
        split_ifs <;> rfl
  marked {cs found} h hleft := by
    cases cs with
    | nil => cases h
    | cons d rest =>
        rw [symbol] at h
        split at h
        case isTrue heq =>
          obtain rfl := Option.some.inj h
          exact marked_cons.mpr ⟨heq ▸ hmark, hleft⟩
        case isFalse => cases h

theorem skipsFront_hyphen : SkipsFront (symbol '-') := skipsFront_symbol (by decide) (by decide)

theorem skipsFront_colon : SkipsFront (symbol ':') := skipsFront_symbol (by decide) (by decide)

/-- Between a date and a time stands a `T` in either case, or a space. -/
theorem skipsFront_separator :
    SkipsFront fun cs => (symbol 'T' cs).or ((symbol 't' cs).or (symbol ' ' cs)) where
  small cs := by
    cases cs with
    | nil => rfl
    | cons c rest =>
        simp only [List.map_cons, symbol]
        unfold small
        split_ifs <;> simp_all
  marked {cs found} h hleft := by
    cases cs with
    | nil => cases h
    | cons c rest =>
        simp only [symbol] at h
        have hmark : (c = 'T' ∨ c = 't' ∨ c = ' ') ∧ rest = found := by grind
        obtain ⟨hmark, rfl⟩ := hmark
        refine marked_cons.mpr ⟨?_, hleft⟩
        rcases hmark with rfl | rfl | rfl <;> decide

/-- All digits in front of a text are read as one value. -/
theorem takesFront_digits {α : Type} (value : List Char → Option α)
    (hvalue : ∀ digits, value (digits.map small) = value digits) :
    TakesFront fun cs => (value (cs.takeWhile isDigit)).map (·, cs.dropWhile isDigit) where
  small cs := by
    simp only [takeWhile_small isDigit_small, dropWhile_small isDigit_small, hvalue,
      Option.map_map]
    rfl
  marked {cs found} h hleft := by
    obtain ⟨_, -, rfl⟩ := Option.map_eq_some_iff.mp h
    exact marked_of_dropWhile (fun _ => isMark_of_isDigit) hleft

/-- Digits behind the point of a second have no case. -/
theorem nanosecondsOf_small (digits : List Char) :
    nanosecondsOf (digits.map small) = nanosecondsOf digits := by
  simp only [nanosecondsOf, ← List.map_take, List.length_map, natural?_small]

theorem fraction_cons (c : Char) (rest : List Char) :
    fraction (c :: rest) =
      if c = '.' then
        (nanosecondsOf (rest.takeWhile isDigit)).map (·, rest.dropWhile isDigit)
      else some (0, c :: rest) := by
  unfold fraction
  split <;> simp_all

/-- A fraction of a second, if there is one, is taken off the front. -/
theorem takesFront_fraction : TakesFront fraction where
  small cs := by
    cases cs with
    | nil => rfl
    | cons c rest =>
        rw [List.map_cons, fraction_cons, fraction_cons,
          (takesFront_digits nanosecondsOf nanosecondsOf_small).small]
        simp only [small_eq_iff (d := '.') (by decide)]
        split_ifs <;> rfl
  marked {cs found} h hleft := by
    cases cs with
    | nil => exact marked_nil
    | cons c rest =>
        rw [fraction_cons] at h
        split at h
        case isTrue hpoint =>
          exact marked_cons.mpr ⟨by rw [hpoint]; decide,
            (takesFront_digits nanosecondsOf nanosecondsOf_small).marked h hleft⟩
        case isFalse =>
          obtain rfl := Option.some.inj h
          exact hleft

/-- Behind its sign an offset is hours and minutes. -/
theorem takesAll_offsetMagnitude : TakesAll offsetMagnitude :=
  (takesFront_fixedDigits 2).after fun _ => skipsFront_colon.behind <|
    (takesFront_fixedDigits 2).after fun _ => .ofEnd _

theorem offset_cons (c : Char) (rest : List Char) :
    offset (c :: rest) =
      if c = 'Z' ∨ c = 'z' then (if rest = [] then some 0 else none)
      else if c = '+' then offsetMagnitude rest
      else if c = '-' ∨ c = '\u2212' then (offsetMagnitude rest).map (- ·)
      else none := by
  unfold offset
  split <;> simp_all
  grind

/-- An offset is a `Z` in either case, or a sign with hours and minutes. -/
theorem takesAll_offset : TakesAll offset where
  small cs := by
    have hmagnitude (cs : List Char) : offsetMagnitude (cs.map small) = offsetMagnitude cs := by
      rw [takesAll_offsetMagnitude.small, Option.map_id, id]
    rw [Option.map_id, id]
    cases cs with
    | nil => rfl
    | cons c rest =>
        have hzulu : small c = 'Z' ∨ small c = 'z' ↔ c = 'Z' ∨ c = 'z' :=
          iff_of_eq (small_congr (f := fun c => c = 'Z' ∨ c = 'z') (by decide) (by decide) c)
        simp only [List.map_cons, offset_cons, hzulu, small_eq_iff (d := '+') (by decide),
          small_eq_iff (d := '-') (by decide), small_eq_iff (d := '\u2212') (by decide),
          hmagnitude, List.map_eq_nil_iff]
  marked {cs found} h _ := by
    cases cs with
    | nil => cases h
    | cons c rest =>
        rw [offset_cons] at h
        split_ifs at h with hzulu hend hplus hminus
        · rw [hend]
          refine marked_cons.mpr ⟨?_, marked_nil⟩
          rcases hzulu with rfl | rfl <;> decide
        · exact marked_cons.mpr ⟨by rw [hplus]; decide,
            takesAll_offsetMagnitude.marked h marked_nil⟩
        · obtain ⟨_, hmagnitude, -⟩ := Option.map_eq_some_iff.mp h
          refine marked_cons.mpr ⟨?_, takesAll_offsetMagnitude.marked hmagnitude marked_nil⟩
          rcases hminus with rfl | rfl <;> decide

/-- A date with a time is made of marks, and read alike in either case. -/
theorem takesAll_ofRfc3339? : TakesAll ofRfc3339? :=
  (takesFront_fixedDigits 4).after fun _ => skipsFront_hyphen.behind <|
    (takesFront_fixedDigits 2).after fun _ => skipsFront_hyphen.behind <|
    (takesFront_fixedDigits 2).after fun _ => skipsFront_separator.behind <|
    (takesFront_fixedDigits 2).after fun _ => skipsFront_colon.behind <|
    (takesFront_fixedDigits 2).after fun _ => skipsFront_colon.behind <|
    (takesFront_fixedDigits 2).after fun _ => takesFront_fraction.after fun _ =>
    takesAll_offset.bind _

/-- A number of a greatest length is taken off the front. -/
theorem takesFront_someDigits (most : Nat) : TakesFront (someDigits most) := by
  have hread : TakesFront fun cs => (natural? ((cs.takeWhile isDigit).take most)).map
      (·, cs.drop ((cs.takeWhile isDigit).take most).length) := by
    constructor
    case small =>
      intro cs
      simp only [takeWhile_small isDigit_small, ← List.map_take, ← List.map_drop, List.length_map,
        natural?_small, Option.map_map]
      rfl
    case marked =>
      intro cs found h hleft
      obtain ⟨number, hnumber, rfl⟩ := Option.map_eq_some_iff.mp h
      -- the digits that are taken are the front of the text
      have hfront := List.prefix_iff_eq_take.mp
        ((List.take_prefix most (cs.takeWhile isDigit)).trans (List.takeWhile_prefix isDigit))
      intro c hc
      rw [← List.take_append_drop ((cs.takeWhile isDigit).take most).length cs, List.mem_append,
        ← hfront] at hc
      exact hc.elim (takesAll_natural?.marked hnumber marked_nil c) (hleft c)
  exact hread.trimmed

/-- A year is read from all digits behind a sign, or from up to four digits. -/
theorem yearNumber_eq (cs : List Char) :
    yearNumber cs = match trimStart cs with
      | [] => none
      | c :: rest =>
          if c = '-' then
            ((natural? (rest.takeWhile isDigit)).map fun n : Nat => -(n : Int)).map
              (·, rest.dropWhile isDigit)
          else if c = '+' then
            ((natural? (rest.takeWhile isDigit)).map fun n : Nat => (n : Int)).map
              (·, rest.dropWhile isDigit)
          else (someDigits 4 (c :: rest)).map fun (n, rest) => ((n : Int), rest) := by
  unfold yearNumber
  split
  case h_1 rest htrim =>
    rw [htrim]
    dsimp only
    cases natural? (rest.takeWhile isDigit) <;> rfl
  case h_2 rest htrim =>
    rw [htrim]
    dsimp only
    cases natural? (rest.takeWhile isDigit) <;> rfl
  case h_3 hminus hplus =>
    cases htrim : trimStart cs with
    | nil => rfl
    | cons c rest =>
        have hc : c ≠ '-' := fun h => hminus rest (by rw [htrim, h])
        have hc' : c ≠ '+' := fun h => hplus rest (by rw [htrim, h])
        simp only [if_neg hc, if_neg hc']

/-- A year is taken off the front, with a sign or without one. -/
theorem takesFront_yearNumber : TakesFront yearNumber := by
  have hsigned (sign : Nat → Int) :=
    takesFront_digits (fun digits => (natural? digits).map sign) fun digits => by
      rw [natural?_small]
  have hplain := (takesFront_someDigits 4).map fun n : Nat => (n : Int)
  refine ⟨fun cs => ?_, fun {cs found} h hleft => ?_⟩
  · rw [yearNumber_eq, yearNumber_eq, trimStart_small]
    cases trimStart cs with
    | nil => rfl
    | cons c rest =>
        simp only [List.map_cons, small_eq_iff (d := '-') (by decide),
          small_eq_iff (d := '+') (by decide)]
        split_ifs
        · exact (hsigned _).small rest
        · exact (hsigned _).small rest
        · exact hplain.small (c :: rest)
  · rw [yearNumber_eq] at h
    refine marked_of_trimStart ?_
    cases htrim : trimStart cs with
    | nil => exact marked_nil
    | cons c rest =>
        simp only [htrim] at h
        split_ifs at h with hminus hplus
        · exact marked_cons.mpr ⟨by rw [hminus]; decide, (hsigned _).marked h hleft⟩
        · exact marked_cons.mpr ⟨by rw [hplus]; decide, (hsigned _).marked h hleft⟩
        · exact hplain.marked h hleft

/-- A date alone is made of marks, too, and read alike in either case. -/
theorem takesAll_ofDateText? : TakesAll ofDateText? :=
  takesFront_yearNumber.after fun _ => skipsFront_hyphen.behind <|
    (takesFront_someDigits 2).after fun _ => skipsFront_hyphen.behind <|
    (takesFront_someDigits 2).after fun _ => .ofEnd _

/-- Case does not matter to the text of an instant. -/
theorem ofText?_lowercase {s : String} {t : Instant} (h : ofText? s = some t) :
    ofText? (lowercase s) = some t :=
  (takesAll_ofRfc3339?.or takesAll_ofDateText?).lowercase h

end Calendar.Instant

namespace Value

variable {v : Value} {i : Int}

/-- A value that stands for an integer does so with case folded away. -/
theorem bigInteger?_fold (insensitive : Bool) (h : v.bigInteger? = some i) :
    (v.fold insensitive).bigInteger? = some i := by
  cases v with
  | string s =>
      cases insensitive with
      | false => exact h
      | true =>
          simp only [fold, Text.fold, bigInteger?, if_true] at h ⊢
          exact Numeral.integer?_trim_lowercase h
  | _ => exact h

/-- A value that stands for an instant does so with case folded away. -/
theorem timestamp?_fold (insensitive : Bool) (h : v.timestamp? = some i) :
    (v.fold insensitive).timestamp? = some i := by
  cases v with
  | string s =>
      cases insensitive with
      | false => exact h
      | true =>
          simp only [fold, Text.fold, timestamp?, if_true, Option.map_eq_some_iff] at h ⊢
          obtain ⟨t, ht, hi⟩ := h
          exact ⟨t, Calendar.Instant.ofText?_lowercase ht, hi⟩
  | _ => exact h

end Value

end RecordStore
