import RdfIndex.Number.Binary
import RdfIndex.Number.Numeral

/-!
# The fewest digits that read back

The reals that round to a floating-point magnitude form an interval from halfway to the magnitude
below to halfway to the one above, ends included when the last bit is zero.  `shortest` looks for a
decimal in that interval: on the grid of one digit, then of two digits and so on it tests the two
neighbours of the magnitude.  The first grid with a hit wins.  Of two hits the nearer is taken, and
the larger when both are equally near.
-/

namespace RdfIndex.Shortest

/-- The number `digits * 10 ^ exponent`. -/
structure Digits where
  /-- The digits as a number. -/
  digits : Nat
  /-- The exponent of ten. -/
  exponent : Int
deriving DecidableEq, Repr

/-- Compares `a * 10 ^ i` with `n * 2 ^ j`. -/
def compareScaled (a : Nat) (i : Int) (n : Nat) (j : Int) : Ordering :=
  compare (a * Nat.pow 10 i.toNat * Nat.pow 2 (-j).toNat)
    (n * Nat.pow 2 j.toNat * Nat.pow 10 (-i).toNat)

/-- The interval of the reals that round to a magnitude, in quarters of its last bit. -/
structure Interval where
  /-- The lower end. -/
  low : Nat
  /-- Four times the magnitude. -/
  mid : Nat
  /-- The upper end. -/
  high : Nat
  /-- The exponent of two of a quarter. -/
  exponent : Int
  /-- The ends belong to the interval. -/
  closed : Bool

/-- The interval of a positive magnitude.  Just above a power of two the lower neighbour is half as
far away as the upper one. -/
def Interval.of (f : BinaryFormat) (magnitude : Nat) : Interval :=
  let (m, q) := f.decode magnitude
  let isNarrow := m = Nat.pow 2 f.fractionBits ∧ f.leastExponent < q
  ⟨if isNarrow then 4 * m - 1 else 4 * m - 2, 4 * m, 4 * m + 2, q - 2, m % 2 == 0⟩

/-- A decimal that lies in an interval. -/
def Interval.holds (i : Interval) (d : Digits) : Bool :=
  let below := compareScaled d.digits d.exponent i.low i.exponent
  let above := compareScaled d.digits d.exponent i.high i.exponent
  (below == .gt || (i.closed && below == .eq)) && (above == .lt || (i.closed && above == .eq))

/-- The largest multiple of `10 ^ exponent` that is not above the middle of an interval. -/
def Interval.floorAt (i : Interval) (exponent : Int) : Nat :=
  (i.mid * Nat.pow 2 i.exponent.toNat * Nat.pow 10 (-exponent).toNat)
    / (Nat.pow 2 (-i.exponent).toNat * Nat.pow 10 exponent.toNat)

/-- The least `k`, from the given one on, with the middle of the interval below `10 ^ k`. -/
def Interval.scaleFrom (i : Interval) : Nat → Int → Int
  | 0, k => k
  | fuel + 1, k => if compareScaled 1 k i.mid i.exponent == .gt then k else i.scaleFrom fuel (k + 1)

/-- The least `k` with the middle of the interval below `10 ^ k`. -/
def Interval.scale (i : Interval) : Int :=
  i.scaleFrom 4 (((i.mid.log2 : Int) + i.exponent) * 30103 / 100000 - 1)

/-- The better of the two neighbours of the middle on the grid of `10 ^ exponent`. -/
def Interval.pick (i : Interval) (exponent : Int) : Option Digits :=
  let down : Digits := ⟨i.floorAt exponent, exponent⟩
  let up : Digits := ⟨down.digits + 1, exponent⟩
  match i.holds down, i.holds up with
  | false, false => none
  | true, false => some down
  | false, true => some up
  | true, true =>
    -- Twice the middle against the sum of the two.
    if compareScaled (2 * down.digits + 1) exponent (2 * i.mid) i.exponent == .gt then some down
    else some up

/-- The first hit on the grids of `digits` digits and more. -/
def Interval.search (i : Interval) (scale : Int) : Nat → Nat → Option Digits
  | 0, _ => none
  | fuel + 1, digits =>
    match i.pick (scale - digits) with
    | some d => some d
    | none => i.search scale fuel (digits + 1)

/-- The shortest decimal that rounds to a positive magnitude.  Seventeen digits are always enough
for the formats in use. -/
def shortest (f : BinaryFormat) (magnitude : Nat) : Digits :=
  let i := Interval.of f magnitude
  let scale := i.scale
  (i.search scale 20 1).getD ⟨i.floorAt (scale - 20), scale - 20⟩

end RdfIndex.Shortest
