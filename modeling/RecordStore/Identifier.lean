import RecordStore.Calendar.Instant

/-!
# Generated identifiers

The shapes of the identifiers that fill open fields.  Random digits come from a supplied source,
a 64-bit state that every draw moves on, so that equal sources give equal identifiers.
-/

namespace RecordStore

/-- A source of random digits. -/
structure Entropy where
  state : UInt64
  deriving DecidableEq, Repr

namespace Entropy

/-- The next word of a source, and the source after it. -/
def next (source : Entropy) : UInt64 × Entropy :=
  let state := source.state + 0x9E3779B97F4A7C15
  let z := (state ^^^ (state >>> 30)) * 0xBF58476D1CE4E5B9
  let z := (z ^^^ (z >>> 27)) * 0x94D049BB133111EB
  (z ^^^ (z >>> 31), ⟨state⟩)

/-- Characters drawn one by one from an alphabet. -/
def draw (alphabet : List Char) : Nat → Entropy → List Char × Entropy
  | 0, source => ([], source)
  | count + 1, source =>
      let (word, source) := source.next
      let (rest, source) := draw alphabet count source
      ((alphabet.getD (word.toNat % alphabet.length) '0') :: rest, source)

end Entropy

namespace Identifier

/-- The hexadecimal digits, in lower case. -/
def hexDigits : List Char := "0123456789abcdef".toList

/-- The digits and the lower-case letters. -/
def lowerAlphanumerics : List Char := "0123456789abcdefghijklmnopqrstuvwxyz".toList

/-- The digits of base 32 without the letters that are easily misread. -/
def crockfordDigits : List Char := "0123456789ABCDEFGHJKMNPQRSTVWXYZ".toList

/-- The letters that need no escape in an address. -/
def addressLetters : List Char :=
  "_-0123456789abcdefghijklmnopqrstuvwxyzABCDEFGHIJKLMNOPQRSTUVWXYZ".toList

/-- The last `count` digits of a number in a base whose digits are given, most significant
    first. -/
def inBase (digits : List Char) : Nat → Nat → List Char
  | 0, _ => []
  | count + 1, n =>
      inBase digits count (n / digits.length) ++ [digits.getD (n % digits.length) '0']

/-- A random identifier of version 4: 32 hexadecimal digits in five groups, of which one digit
    tells the version and one the variant. -/
def uuid (source : Entropy) : String × Entropy :=
  let (random, source) := Entropy.draw hexDigits 30 source
  let (variant, source) := Entropy.draw ['8', '9', 'a', 'b'] 1 source
  let group (start count : Nat) : List Char := (random.drop start).take count
  (String.ofList (group 0 8 ++ '-' :: group 8 4 ++ '-' :: '4' :: group 12 3
    ++ '-' :: variant ++ group 15 3 ++ '-' :: group 18 12), source)

/-- The letter `c` and 24 lower-case letters or digits. -/
def cuid (source : Entropy) : String × Entropy :=
  let (random, source) := Entropy.draw lowerAlphanumerics 24 source
  (String.ofList ('c' :: random), source)

/-- The millisecond in 10 digits of base 32, and 16 random ones. -/
def ulid (now : Int) (source : Entropy) : String × Entropy :=
  let (random, source) := Entropy.draw crockfordDigits 16 source
  (String.ofList (inBase crockfordDigits 10 (now.toNat % Nat.pow 2 48) ++ random), source)

/-- The length of a short identifier that does not ask for one. -/
def nanoidLength : Nat := 21

/-- Letters that need no escape in an address. -/
def nanoid (size : Option Nat) (source : Entropy) : String × Entropy :=
  let (random, source) := Entropy.draw addressLetters (size.getD nanoidLength) source
  (String.ofList random, source)

/-- The second in 8 hexadecimal digits, and 16 random ones. -/
def objectId (now : Int) (source : Entropy) : String × Entropy :=
  let (random, source) := Entropy.draw hexDigits 16 source
  (String.ofList (inBase hexDigits 8 ((now / 1000).toNat % Nat.pow 2 32) ++ random), source)

end Identifier

end RecordStore
