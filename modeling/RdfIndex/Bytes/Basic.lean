/-!
# Byte strings and fixed-width numbers

A byte string is a list of bytes, ordered lexicographically.  A number of fixed width is written
most significant byte first.  A signed number is written as its two's complement.

* `toBigEndian`, `ofBigEndian`: a natural number in a given number of bytes, and back.
* `toTwos`, `ofTwos`: an integer as the natural number of its two's complement, and back.
-/

namespace RdfIndex

/-- A byte string. -/
abbrev Bytes := List UInt8

namespace Bytes

/-- The lowest `width` bytes of `n`, most significant first. -/
def toBigEndian : Nat → Nat → Bytes
  | 0, _ => []
  | width + 1, n => toBigEndian width (n / 256) ++ [UInt8.ofNat n]

/-- The number written by a byte string, most significant byte first. -/
def ofBigEndian (bytes : Bytes) : Nat :=
  bytes.foldl (fun n b => n * 256 + b.toNat) 0

/-- The two's complement of `i` in `width` bytes, as a natural number. -/
def toTwos (width : Nat) (i : Int) : Nat := (i % (Nat.pow 256 width : Int)).toNat

/-- The integer whose two's complement in `width` bytes is `n`. -/
def ofTwos (width n : Nat) : Int :=
  if 2 * n < Nat.pow 256 width then n else (n : Int) - (Nat.pow 256 width : Int)

/-- An integer in `width` bytes, most significant first. -/
def ofInt (width : Nat) (i : Int) : Bytes := toBigEndian width (toTwos width i)

/-- The integer that a byte string writes in two's complement. -/
def toInt (bytes : Bytes) : Int := ofTwos bytes.length (ofBigEndian bytes)

@[simp] theorem length_toBigEndian (width n : Nat) : (toBigEndian width n).length = width := by
  induction width generalizing n with
  | zero => rfl
  | succ width ih => simp [toBigEndian, ih]

theorem ofBigEndian_append_singleton (bytes : Bytes) (b : UInt8) :
    ofBigEndian (bytes ++ [b]) = ofBigEndian bytes * 256 + b.toNat := by
  simp [ofBigEndian]

/-- Reading back what was written gives the number modulo the width. -/
theorem ofBigEndian_toBigEndian (width n : Nat) :
    ofBigEndian (toBigEndian width n) = n % Nat.pow 256 width := by
  induction width generalizing n with
  | zero => simp [toBigEndian, ofBigEndian, Nat.mod_one]
  | succ width ih =>
    rw [toBigEndian, ofBigEndian_append_singleton, ih, Nat.pow_eq, Nat.pow_eq, Nat.pow_succ,
      Nat.mul_comm (256 ^ width) 256,
      Nat.mod_mul]
    simp only [UInt8.toNat_ofNat']
    omega

end Bytes

end RdfIndex
