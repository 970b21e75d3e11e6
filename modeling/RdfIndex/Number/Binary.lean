/-!
# Binary floating-point formats

A format has a number of fraction bits and a number of exponent bits.  The bits of a magnitude,
read as a natural number, count the representable magnitudes in ascending order, so that the next
larger magnitude has the next larger number.  The number of infinity follows the largest finite
one, and the numbers above it are no magnitudes.
-/

namespace RdfIndex

/-- A binary interchange format. -/
structure BinaryFormat where
  /-- The number of fraction bits. -/
  fractionBits : Nat
  /-- The number of exponent bits. -/
  exponentBits : Nat
deriving DecidableEq, Repr

/-- The format of 32 bits. -/
def binary32 : BinaryFormat := ⟨23, 8⟩

/-- The format of 64 bits. -/
def binary64 : BinaryFormat := ⟨52, 11⟩

namespace BinaryFormat

/-- The number of bytes of a value. -/
def width (f : BinaryFormat) : Nat := (1 + f.exponentBits + f.fractionBits) / 8

/-- The weight of the lowest bit of the smallest magnitudes, as an exponent of two. -/
def leastExponent (f : BinaryFormat) : Int :=
  2 - (Nat.pow 2 (f.exponentBits - 1) : Int) - (f.fractionBits : Int)

/-- The number of infinity. -/
def infinity (f : BinaryFormat) : Nat := (Nat.pow 2 f.exponentBits - 1) * Nat.pow 2 f.fractionBits

/-- The bits of the value that is no number. -/
def nan (f : BinaryFormat) : Nat := f.infinity + Nat.pow 2 (f.fractionBits - 1)

/-- The weight of the sign bit. -/
def signBit (f : BinaryFormat) : Nat := Nat.pow 2 (f.exponentBits + f.fractionBits)

/-- The integer `m` and the exponent `q` of the magnitude `m * 2 ^ q`. -/
def decode (f : BinaryFormat) (magnitude : Nat) : Nat × Int :=
  let e := magnitude / Nat.pow 2 f.fractionBits
  let m := magnitude % Nat.pow 2 f.fractionBits
  if e = 0 then (m, f.leastExponent) else (Nat.pow 2 f.fractionBits + m, f.leastExponent + e - 1)

/-- The quotient rounded to the nearest integer, a half to the even one. -/
def roundHalfEven (num den : Nat) : Nat :=
  let q := num / den
  let r := num % den
  if 2 * r < den then q
  else if den < 2 * r then q + 1
  else q + q % 2

/-- The number of the magnitude nearest to the quotient of two positive numbers.  It may be that of
infinity or above. -/
def nearest (f : BinaryFormat) (num den : Nat) : Nat :=
  let estimate : Int := (num.log2 : Int) - den.log2
  -- The quotient lies between `2 ^ (estimate - 1)` and `2 ^ (estimate + 1)`.
  let small := num * Nat.pow 2 (-estimate).toNat < den * Nat.pow 2 estimate.toNat
  let e := if small then estimate - 1 else estimate
  let q := max f.leastExponent (e - f.fractionBits)
  let m := roundHalfEven (num * Nat.pow 2 (-q).toNat) (den * Nat.pow 2 q.toNat)
  (q - f.leastExponent).toNat * Nat.pow 2 f.fractionBits + m

end BinaryFormat

end RdfIndex
