import RdfIndex.Error

/-!
# Truncated digests

The first bytes of a digest serve as a hash of a chosen length.
-/

namespace RdfIndex

/-- An algorithm and the number of bytes that are kept of its digests. -/
structure TruncatedDigest where
  algorithm : Algorithm
  /-- The number of bytes that are kept. -/
  size : Nat
  /-- A digest has as many. -/
  size_le : size ≤ algorithm.digestSize

namespace TruncatedDigest

/-- The first bytes of the digests of an algorithm.  No bytes at all stand for the whole digest. -/
def of (algorithm : Algorithm) (size : Nat) : Except ConfigError TruncatedDigest :=
  if size = 0 then .ok ⟨algorithm, algorithm.digestSize, Nat.le_refl _⟩
  else if h : size ≤ algorithm.digestSize then .ok ⟨algorithm, size, h⟩
  else .error (.digestTooShort algorithm size)

/-- The hash of a byte string. -/
def hash (d : TruncatedDigest) (bytes : Bytes) : Bytes := (d.algorithm.digest bytes).take d.size

end TruncatedDigest

/-- The algorithm of a name, or the error that there is none. -/
def Algorithm.ofName (name : String) : Except ConfigError Algorithm :=
  match Algorithm.ofName? name with
  | some algorithm => .ok algorithm
  | none => .error (.unknownAlgorithm name)

end RdfIndex
