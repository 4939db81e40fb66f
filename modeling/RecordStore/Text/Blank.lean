/-!
# White space

The characters of the Unicode property White_Space, and trimming by it.
-/

namespace RecordStore.Text

/-- The characters with the property White_Space. -/
def isBlank (c : Char) : Bool :=
  let n := c.toNat
  (0x9 ≤ n && n ≤ 0xD) || n == 0x20 || n == 0x85 || n == 0xA0 || n == 0x1680
    || (0x2000 ≤ n && n ≤ 0x200A) || n == 0x2028 || n == 0x2029 || n == 0x202F
    || n == 0x205F || n == 0x3000

/-- A text without its leading white space. -/
def trimStart (cs : List Char) : List Char := cs.dropWhile isBlank

/-- A text without its leading and trailing white space. -/
def trim (cs : List Char) : List Char := (trimStart (trimStart cs).reverse).reverse

end RecordStore.Text
