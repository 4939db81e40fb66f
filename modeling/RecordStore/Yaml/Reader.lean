import RecordStore.Yaml.Folding
import RecordStore.Yaml.Node

/-!
# Reading documents

A reader for documents whose collections are written in brackets and braces, of which JSON texts
are the most common.  Collections that are written by indentation, tags and references to other
nodes are refused.

Nodes are read with fuel, one unit for each nested call.  Between two characters that are used up
there are at most three calls, so three times the length of the text is enough.
-/

namespace RecordStore.Yaml

/-- How far from the start of its key a colon may stand. -/
def keyReach : Nat := 1024

/-- Whether a colon belongs to the key that begins at a place: it stands on the same line and
    within reach. -/
def reaches (start colon : Glyph) : Bool :=
  colon.line = start.line && colon.column ≤ start.column + keyReach

/-- What an entry of a collection is: a key with what follows its colon, if it has one.  A key
    that a question mark announces always has a value, which may be left out. -/
structure Entry where
  key : Node
  value : Option Node

namespace Entry

/-- The item of a sequence that an entry stands for: a mapping of its own if it has a value. -/
def item (entry : Entry) : Node :=
  match entry.value with
  | some value => .mapping [(entry.key, value)]
  | none => entry.key

/-- The entry of a mapping; without a value nothing stands under the key. -/
def pair (entry : Entry) : Node × Node := (entry.key, entry.value.getD .empty)

end Entry

/-- Whether a text begins with one of some signs. -/
def startsWith (signs : List Char) (gs : List Glyph) : Bool :=
  gs.head?.any fun g => signs.contains g.char

mutual

/-- A node in front of a text. -/
def readNode : Nat → List Glyph → Option (Node × List Glyph)
  | 0, _ => none
  | _ + 1, [] => none
  | fuel + 1, g :: rest =>
      match g.char with
      | '[' => do
          let (entries, rest) ← readEntries fuel ']' rest
          some (.sequence (entries.map Entry.item), rest)
      | '\x7b' => do
          let (entries, rest) ← readEntries fuel '\x7d' rest
          some (.mapping (entries.map Entry.pair), rest)
      | '"' => do
          let (pieces, rest) ← readDoubleQuoted .text rest
          some (.scalar ⟨foldedText pieces, false⟩, rest)
      | '\x27' => do
          let (pieces, rest) ← readSingleQuoted rest
          some (.scalar ⟨foldedText pieces, false⟩, rest)
      | _ =>
          if startsPlain (g :: rest) then do
            let (pieces, rest) ← readPlain false (g :: rest)
            some (.scalar ⟨foldedText (trimLayout pieces), true⟩, rest)
          else none

/-- The entries of a collection up to the sign that closes it.  A comma may follow the last. -/
def readEntries (fuel : Nat) (close : Char) (gs : List Glyph) :
    Option (List Entry × List Glyph) :=
  match fuel, skipInside gs with
  | 0, _ => none
  | _ + 1, [] => none
  | fuel + 1, g :: rest =>
      if g.char = close then some ([], rest)
      else do
        let (entry, rest) ← readEntry fuel close (g :: rest)
        match skipInside rest with
        | [] => none
        | g :: rest =>
            if g.char = close then some ([entry], rest)
            else if g.char = ',' then do
              let (entries, rest) ← readEntries fuel close rest
              some (entry :: entries, rest)
            else none

/-- An entry of a collection in front of a text. -/
def readEntry (fuel : Nat) (close : Char) (gs : List Glyph) : Option (Entry × List Glyph) :=
  match fuel, gs with
  | 0, _ => none
  | _ + 1, [] => none
  | fuel + 1, start :: rest =>
      if start.char = '?' then do
        let rest := skipInside rest
        let (key, rest) ←
          if close = '\x7d' && startsWith [':', ',', close] rest then some (Node.empty, rest)
          else readNode fuel rest
        match skipInside rest with
        | [] => none
        | g :: rest =>
            if g.char = ':' then do
              let (value, rest) ← readContent fuel close rest
              some (⟨key, some value⟩, rest)
            else some (⟨key, some .empty⟩, g :: rest)
      else do
        let (key, rest) ← readNode fuel (start :: rest)
        match skipInside rest with
        | [] => none
        | g :: rest =>
            if g.char = ':' then
              if reaches start g then do
                let (value, rest) ← readContent fuel close rest
                some (⟨key, some value⟩, rest)
              else none
            else some (⟨key, none⟩, g :: rest)

/-- What follows the colon of an entry: a node, or nothing. -/
def readContent (fuel : Nat) (close : Char) (gs : List Glyph) : Option (Node × List Glyph) :=
  match fuel with
  | 0 => none
  | fuel + 1 =>
      let rest := skipInside gs
      if startsWith [',', close] rest then some (.empty, rest) else readNode fuel rest

end

/-! ## Documents -/

/-- Whether nothing follows a document but layout and marks that end it. -/
def isOver : Nat → List Glyph → Bool
  | 0, _ => false
  | fuel + 1, gs =>
      match skipAfterWord gs with
      | [] => true
      | gs =>
          match afterMark? '.' gs with
          | some rest => isOver fuel rest
          | none => false

/-- The collection that a document holds, with `tail` after its content. -/
def readDocument (content tail : List Glyph) : Option Node := do
  if startsWith ['[', '\x7b'] content then
    let (node, rest) ← readNode (3 * content.length) content
    let rest := rest ++ tail
    if isOver (rest.length + 1) rest then some node else none
  else none

/-- The node of the only document that a text holds.  A document may begin with a mark of its own,
    and then it may also be empty, as a text without any document is. -/
def parse (text : String) : Option Node := do
  let gs ← glyphs text
  let start := skipLines gs
  if start.isEmpty then some .empty
  else
    match afterMark? '-' start with
    | some body =>
        let (content, tail) := splitAtMark (skipAfterWord body)
        if content.isEmpty then
          if isOver (tail.length + 1) tail then some .empty else none
        else readDocument content tail
    | none =>
        let (content, tail) := splitAtMark start
        readDocument content tail

end RecordStore.Yaml
