/-!
# The characters of a document

A document is a sequence of printable characters.  Each is kept with the line and the column it
stands at, since two rules look at places: a colon belongs to a key only on the line where the key
began, and a line that begins with three dashes or three dots is a mark between documents.
-/

namespace RecordStore.Yaml

/-- Whether a document may hold a character: control characters, byte order marks and the two
    code points before U+10000 are refused. -/
def isPrintable (c : Char) : Bool :=
  let n := c.toNat
  n = 0x9 || n = 0xA || n = 0xD || (0x20 ≤ n && n ≤ 0x7E) || n = 0x85
    || (0xA0 ≤ n && n ≤ 0xFFFD && n ≠ 0xFEFF) || 0x10000 ≤ n

/-- Whether a character ends a line, once line breaks have one spelling. -/
def isBreak (c : Char) : Bool := c = '\n' || c = '\u2028' || c = '\u2029'

/-- Whether a character separates words within a line. -/
def isBlank (c : Char) : Bool := c = ' ' || c = '\t'

/-- A text in which every line break but the separators of lines and paragraphs is a line
    feed. -/
def normalizeBreaks : List Char → List Char
  | [] => []
  | '\r' :: '\n' :: rest => '\n' :: normalizeBreaks rest
  | c :: rest => (if c = '\r' || c = '\u0085' then '\n' else c) :: normalizeBreaks rest

/-- A character at its place; lines and columns count from 0. -/
structure Glyph where
  char : Char
  line : Nat
  column : Nat

/-- A text with the place of every character, given the place of the first one. -/
def place (line column : Nat) : List Char → List Glyph
  | [] => []
  | c :: rest =>
      ⟨c, line, column⟩ ::
        if isBreak c then place (line + 1) 0 rest else place line (column + 1) rest

/-- The glyphs of a text; none when the text holds a character that no document may hold. -/
def glyphs (text : String) : Option (List Glyph) :=
  let cs := text.toList
  if cs.all isPrintable then some (place 0 0 (normalizeBreaks cs)) else none

/-- Whether a word has ended: at the end of the text, at a blank and at a line break. -/
def isWordEnd : List Glyph → Bool
  | [] => true
  | g :: _ => isBlank g.char || isBreak g.char

/-- What follows a mark between documents, when the text begins with one: three times the sign
    of the mark at the start of a line, and nothing that would make a longer word of them. -/
def afterMark? (sign : Char) : List Glyph → Option (List Glyph)
  | a :: b :: c :: rest =>
      if a.column = 0 && a.char = sign && b.char = sign && c.char = sign && isWordEnd rest then
        some rest
      else none
  | _ => none

/-- Whether a text begins with a mark between documents. -/
def atMark (gs : List Glyph) : Bool := (afterMark? '-' gs).isSome || (afterMark? '.' gs).isSome

/-- A text up to the first mark between documents, and the rest from that mark on. -/
def splitAtMark : List Glyph → List Glyph × List Glyph
  | [] => ([], [])
  | g :: rest =>
      if atMark (g :: rest) then ([], g :: rest)
      else
        let (content, tail) := splitAtMark rest
        (g :: content, tail)

/-! ## Layout -/

/-- A text without the blanks, line breaks and comments in front of it.  Tabs are blanks on the
    first line if `tabs` says so, and on the others if `later` does. -/
def skipLayout (later tabs comment : Bool) : List Glyph → List Glyph
  | [] => []
  | g :: rest =>
      if isBreak g.char then skipLayout later later false rest
      else if comment || g.char = ' ' || (tabs && g.char = '\t') then
        skipLayout later tabs comment rest
      else if g.char = '#' then skipLayout later tabs true rest
      else g :: rest

/-- A text without the layout in front of it, inside a collection. -/
def skipInside (gs : List Glyph) : List Glyph := skipLayout true true false gs

/-- A text without the layout in front of it, at the start of a line outside every collection:
    no tab may stand before the first word of a line. -/
def skipLines (gs : List Glyph) : List Glyph := skipLayout false false false gs

/-- A text without the layout in front of it, after a word outside every collection. -/
def skipAfterWord (gs : List Glyph) : List Glyph := skipLayout false true false gs

end RecordStore.Yaml
