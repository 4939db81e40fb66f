import RecordStore.Decimal.Numeral
import RecordStore.Yaml.Source

/-!
# Scalars over several lines

A scalar may run over lines.  The text that it stands for has its lines folded: blanks around a
line break are dropped, a single break becomes a space, and of several the first is dropped.  The
separators of lines and paragraphs are kept where another break would be dropped.

A scalar is read into pieces first, since an escaped space or line feed is not folded.
-/

namespace RecordStore.Yaml

/-- A piece of a scalar as it is written. -/
inductive Piece where
  /-- A character that stands in the text as it is. -/
  | char (c : Char)
  | blank (c : Char)
  | lineBreak (c : Char)
  /-- An escaped line break, which joins two lines without a space. -/
  | joint

/-- The piece that an unescaped character makes. -/
def Piece.ofChar (c : Char) : Piece :=
  if isBlank c then .blank c else if isBreak c then .lineBreak c else .char c

/-- Whether a piece is a word's, and not layout between words. -/
def Piece.isChar : Piece → Bool
  | .char _ => true
  | _ => false

/-- What stands between two words: blanks on one line, or a first line break and more of them.
    Both lists are reversed; a joint is a break that leaves nothing behind. -/
inductive Gap where
  | blanks (written : List Char)
  | breaks (first : Option Char) (more : List Char)

namespace Gap

/-- Nothing between two words. -/
def empty : Gap := .blanks []

/-- A gap with one more blank, which counts only where no line break came before. -/
def addBlank (c : Char) : Gap → Gap
  | .blanks written => .blanks (c :: written)
  | gap => gap

/-- A gap with one more line break. -/
def addBreak (c : Char) : Gap → Gap
  | .blanks _ => .breaks (some c) []
  | .breaks first more => .breaks first (c :: more)

/-- What a gap leaves of itself in the folded text. -/
def folded : Gap → List Char
  | .blanks written => written.reverse
  | .breaks (some '\n') [] => [' ']
  | .breaks (some '\n') more => more.reverse
  | .breaks first more => first.toList ++ more.reverse

end Gap

/-- The folded text of pieces, after a gap. -/
def fold : Gap → List Piece → List Char
  | gap, [] => gap.folded
  | gap, .char c :: rest => gap.folded ++ c :: fold .empty rest
  | gap, .joint :: rest => gap.folded ++ fold (.breaks none []) rest
  | gap, .blank c :: rest => fold (gap.addBlank c) rest
  | gap, .lineBreak c :: rest => fold (gap.addBreak c) rest

/-- The text that pieces stand for. -/
def foldedText (pieces : List Piece) : String := String.ofList (fold .empty pieces)

/-! ## Double quotes -/

/-- The character that an escape of one letter stands for. -/
def letterEscape? (c : Char) : Option Char :=
  match c with
  | '0' => some '\x00'
  | 'a' => some '\x07'
  | 'b' => some '\x08'
  | 't' => some '\t'
  | '\t' => some '\t'
  | 'n' => some '\n'
  | 'v' => some '\x0b'
  | 'f' => some '\x0c'
  | 'r' => some '\r'
  | 'e' => some '\x1b'
  | ' ' => some ' '
  | '"' => some '"'
  | '/' => some '/'
  | '\\' => some '\\'
  | 'N' => some '\u0085'
  | '_' => some '\u00a0'
  | 'L' => some '\u2028'
  | 'P' => some '\u2029'
  | _ => none

/-- How many hexadecimal digits follow a letter that announces a code point. -/
def codeLength? (c : Char) : Option Nat :=
  match c with
  | 'x' => some 2
  | 'u' => some 4
  | 'U' => some 8
  | _ => none

/-- The character at a code point; surrogates are no characters. -/
def characterAt? (n : Nat) : Option Char := if n.isValidChar then some (Char.ofNat n) else none

/-- Where a reader stands in a double-quoted scalar: between characters, after a backslash, or
    with some digits of a code point, of which `value` has been read, still to come. -/
inductive QuotedState where
  | text
  | escape
  | code (digits value : Nat)

/-- The pieces of a double-quoted scalar up to its closing quote, and what follows the quote. -/
def readDoubleQuoted : QuotedState → List Glyph → Option (List Piece × List Glyph)
  | _, [] => none
  | .text, g :: rest =>
      if g.char = '"' then some ([], rest)
      else if g.char = '\\' then readDoubleQuoted .escape rest
      else do
        let (pieces, rest) ← readDoubleQuoted .text rest
        some (Piece.ofChar g.char :: pieces, rest)
  | .escape, g :: rest =>
      match codeLength? g.char with
      | some digits => readDoubleQuoted (.code digits 0) rest
      | none => do
          let piece ←
            if isBreak g.char then some Piece.joint else (letterEscape? g.char).map Piece.char
          let (pieces, rest) ← readDoubleQuoted .text rest
          some (piece :: pieces, rest)
  | .code digits value, g :: rest => do
      let digit ← Numeral.digitIn? 16 g.char
      let value := 16 * value + digit
      if 1 < digits then readDoubleQuoted (.code (digits - 1) value) rest
      else
        let c ← characterAt? value
        let (pieces, rest) ← readDoubleQuoted .text rest
        some (.char c :: pieces, rest)

/-! ## Single quotes -/

/-- The pieces of a single-quoted scalar up to its closing quote, and what follows the quote.  Two
    quotes in a row stand for one. -/
def readSingleQuoted : List Glyph → Option (List Piece × List Glyph)
  | [] => none
  | [g] => if g.char = '\x27' then some ([], []) else none
  | g :: next :: rest =>
      if g.char = '\x27' then
        if next.char = '\x27' then do
          let (pieces, rest) ← readSingleQuoted rest
          some (.char '\x27' :: pieces, rest)
        else some ([], next :: rest)
      else do
        let (pieces, rest) ← readSingleQuoted (next :: rest)
        some (Piece.ofChar g.char :: pieces, rest)

/-! ## Plain scalars -/

/-- The signs that open, close and separate collections. -/
def isFlowSign (c : Char) : Bool := [',', '[', ']', '\x7b', '\x7d'].contains c

/-- The signs that cannot begin a plain scalar; a dash can when a word follows it at once. -/
def isReservedSign (c : Char) : Bool :=
  isFlowSign c || ['?', ':', '#', '&', '*', '!', '|', '>', '\x27', '"', '%', '@', '\x60'].contains c

/-- Whether a plain scalar begins here. -/
def startsPlain : List Glyph → Bool
  | [] => false
  | g :: rest =>
      if g.char = '-' then !isWordEnd rest
      else !isBlank g.char && !isBreak g.char && !isReservedSign g.char

/-- The pieces of a plain scalar inside a collection, and what ends it: a sign of a collection, a
    colon at the end of a word, or a comment.  A colon right before such a sign is refused. -/
def readPlain (afterLayout : Bool) : List Glyph → Option (List Piece × List Glyph)
  | [] => some ([], [])
  | g :: rest =>
      if isFlowSign g.char || (afterLayout && g.char = '#') || (g.char = ':' && isWordEnd rest) then
        some ([], g :: rest)
      else if g.char = ':' && rest.head?.any (fun next => next.char = '?' || isFlowSign next.char)
        then none
      else do
        let piece := Piece.ofChar g.char
        let (pieces, rest) ← readPlain (!piece.isChar) rest
        some (piece :: pieces, rest)

/-- Pieces without the layout after the last word. -/
def trimLayout (pieces : List Piece) : List Piece :=
  (pieces.reverse.dropWhile fun piece => !piece.isChar).reverse

end RecordStore.Yaml
