import RecordStore.Text.CaseTable

/-!
# Lower case

The full lower-case mapping of Unicode.  Every character is mapped on its own, except the capital
sigma, which becomes a final sigma at the end of a word: when a cased character comes before it
and none comes after it, characters that case contexts ignore being skipped on both sides.
-/

namespace RecordStore.Text

/-- Whether the first character that case contexts do not ignore is a cased one. -/
def casedNext (cs : List Char) : Bool :=
  match cs.dropWhile (fun c => inRanges caseIgnorableRanges c.toNat) with
  | [] => false
  | c :: _ => inRanges casedRanges c.toNat

/-- The lower-case counterpart of a character outside any context. -/
def lowercaseChar (c : Char) : List Char :=
  if c.toNat < 0x80 then [c.toLower]
  else if c.toNat = 0x130 then ['i', '\u0307']
  else
    match lowercaseRuns.find? (fun run => run.holds c.toNat) with
    | some run => [Char.ofNat (c.toNat + run.shift).toNat]
    | none => [c]

/-- Lower case of what is left of a text, given the reverse of what came before it. -/
def lowercaseFrom (before : List Char) : List Char → List Char
  | [] => []
  | c :: rest =>
      let mapped :=
        if c.toNat = 0x3A3 then
          if casedNext before && !casedNext rest then ['\u03C2'] else ['\u03C3']
        else lowercaseChar c
      mapped ++ lowercaseFrom (c :: before) rest

/-- A text in lower case. -/
def lowercase (s : String) : String := String.ofList (lowercaseFrom [] s.toList)

/-- A text in lower case where case is to be ignored, and as it is otherwise. -/
def fold (insensitive : Bool) (s : String) : String :=
  if insensitive then lowercase s else s

end RecordStore.Text
