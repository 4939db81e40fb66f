/-!
# Shortest decimals

The shortest decimal that reads back to a double.  A finite positive double is `m · 2 ^ q` for
naturals `m`, and it is read back from every decimal in the interval that reaches half way to its
two neighbours, ends included exactly when `m` is even.  For 1, 2, … 17 digits the two points of
the decimal grid beside the value are tested in exact arithmetic; the first grid with a point in
the interval gives the answer.
-/

namespace RecordStore.Decimal

/-- The significand and binary exponent of the magnitude of a finite double, from its bits. -/
def binary (bits : UInt64) : Nat × Int :=
  let fraction : Nat := bits.toNat % Nat.pow 2 52
  let biased : Nat := bits.toNat / Nat.pow 2 52 % Nat.pow 2 11
  if biased = 0 then (fraction, -1074) else (fraction + Nat.pow 2 52, (biased : Int) - 1075)

/-- The number of decimal digits of a natural number; zero has none. -/
def digitCount (n : Nat) : Nat := if n = 0 then 0 else (Nat.toDigits 10 n).length

/-- The decimal exponent of the leading digit of `m · 2 ^ q`. -/
def leadingExponent (m : Nat) (q : Int) : Int :=
  let whole := if 0 ≤ q then m * Nat.pow 2 q.toNat else m / Nat.pow 2 (-q).toNat
  if whole ≠ 0 then (digitCount whole : Int) - 1
  else -(digitCount ((Nat.pow 2 (-q).toNat + m - 1) / m - 1) : Int)

/-- The point of the grid of multiples of `10 ^ p` that is nearest to `m · 2 ^ q`, if one of the
    two points beside the value reads back to it; of two equally near points the even one. -/
def gridPoint? (m : Nat) (q p : Int) : Option Nat :=
  let scale := Nat.pow 2 (q - 2).toNat * Nat.pow 10 (-p).toNat
  let unit := Nat.pow 2 (2 - q).toNat * Nat.pow 10 p.toNat
  let value := 4 * m * scale
  let low := (if m = Nat.pow 2 52 ∧ -1074 < q then 4 * m - 1 else 4 * m - 2) * scale
  let high := (4 * m + 2) * scale
  let below := value / unit
  let above := below + 1
  let readsBack (point : Nat) : Bool :=
    if m % 2 = 0 then low ≤ point * unit && point * unit ≤ high
    else low < point * unit && point * unit < high
  let nearer := 2 * value < (below + above) * unit
    || (2 * value == (below + above) * unit && below % 2 == 0)
  match readsBack below, readsBack above with
  | true, true => some (if nearer then below else above)
  | true, false => some below
  | false, true => some above
  | false, false => none

/-- A decimal without trailing zeros among its digits: at most `fuel` of them are moved into the
    exponent. -/
def stripZeros : Nat → Nat × Int → Nat × Int
  | 0, d => d
  | fuel + 1, (digits, p) =>
      if digits ≠ 0 ∧ digits % 10 = 0 then stripZeros fuel (digits / 10, p + 1) else (digits, p)

/-- Digits `d` and an exponent `p` such that `d · 10 ^ p` is the shortest decimal that reads back
    to the positive double `m · 2 ^ q`. -/
def shortest (m : Nat) (q : Int) : Nat × Int :=
  let lead := leadingExponent m q
  let grids := (List.range 17).map fun (i : Nat) => lead - (i : Int)
  let found := grids.findSome? fun p => (gridPoint? m q p).map fun digits => (digits, p)
  stripZeros 17 (found.getD (m, 0))

end RecordStore.Decimal
