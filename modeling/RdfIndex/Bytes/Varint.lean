import RdfIndex.Encoding.DecodeError

/-!
# Numbers of variable length

A natural number is written in groups of seven bits, least significant first.  Every byte but the
last has its high bit set.  Reading accepts numbers below `2 ^ 64` in at most ten bytes; groups of
zeros may follow.  A signed number is folded to a natural one: `0, -1, 1, -2, ...` become
`0, 1, 2, 3, ...`.
-/

namespace RdfIndex.Varint

/-- The bytes of a number. -/
def encode (n : Nat) : Bytes :=
  if n < 128 then [UInt8.ofNat n] else UInt8.ofNat (n % 128 + 128) :: encode (n / 128)
termination_by n

/-- Reads a number from its byte with the given index on.  The bytes after the last one that was
looked at are left, whether the reading succeeds or not. -/
def decodeFrom (index : Nat) : Bytes → Except DecodeError Nat × Bytes
  | [] => (.error (if index = 10 then .numberTooLong else .numberTruncated index), [])
  | b :: rest =>
    if index = 10 then (.error .numberTooLong, b :: rest)
    else if index = 9 ∧ 1 < b.toNat % 128 then (.error .numberOverflow, rest)
    else if b.toNat < 128 then (.ok b.toNat, rest)
    else
      match decodeFrom (index + 1) rest with
      | (.ok n, rest) => (.ok (b.toNat % 128 + 128 * n), rest)
      | (.error e, rest) => (.error e, rest)

/-- Reads a number.  The bytes after it are left. -/
def decode (bytes : Bytes) : Except DecodeError Nat × Bytes := decodeFrom 0 bytes

/-- The natural number that a signed number is folded to. -/
def fold (i : Int) : Nat := if 0 ≤ i then 2 * i.natAbs else 2 * i.natAbs - 1

/-- The signed number that is folded to a natural one. -/
def unfold (n : Nat) : Int := if n % 2 = 0 then (n / 2 : Nat) else -((n / 2 : Nat) : Int) - 1

/-- The bytes of a signed number. -/
def encodeInt (i : Int) : Bytes := encode (fold i)

/-- Unfolding takes folding back. -/
theorem unfold_fold (i : Int) : unfold (fold i) = i := by
  unfold unfold fold
  split <;> split <;> omega

/-- Folding takes unfolding back. -/
theorem fold_unfold (n : Nat) : fold (unfold n) = n := by
  unfold unfold fold
  split <;> split <;> omega

/-- A byte string with its length in front. -/
def withLength (bytes : Bytes) : Bytes := encode bytes.length ++ bytes

end RdfIndex.Varint
