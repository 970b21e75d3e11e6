import RdfIndex.Digest.Truncated

/-!
# Lengths of digests

Every algorithm gives digests of its `digestSize`, so that a truncated digest has exactly the bytes
that were asked for.  The states of the two halves of SHA-2 keep their eight words.
-/

namespace RdfIndex

/-- Words of the same number of bytes, one after the other. -/
theorem length_flatMap_words {α : Type} {f : α → Bytes} {width : Nat}
    (h : ∀ a, (f a).length = width) (as : List α) : (as.flatMap f).length = as.length * width := by
  induction as with
  | nil => simp
  | cons a as ih =>
    rw [List.flatMap_cons, List.length_append, h, ih, List.length_cons, Nat.succ_mul, Nat.add_comm]

theorem length_be32Bytes (w : UInt32) : (Word.be32Bytes w).length = 4 :=
  Bytes.length_toBigEndian 4 _

theorem length_be64Bytes (w : UInt64) : (Word.be64Bytes w).length = 8 :=
  Bytes.length_toBigEndian 8 _

theorem length_le32Bytes (w : UInt32) : (Word.le32Bytes w).length = 4 := by
  rw [Word.le32Bytes, List.length_reverse, length_be32Bytes]

/-- A state that every step keeps at its size. -/
theorem size_foldl {α β : Type} {step : Array β → α → Array β} {n : Nat}
    (hstep : ∀ v a, v.size = n → (step v a).size = n) (as : List α) :
    ∀ {v : Array β}, v.size = n → (as.foldl step v).size = n := by
  induction as with
  | nil => exact fun h => h
  | cons a as ih => exact fun h => ih (hstep _ a h)

namespace Sha2

theorem size_block256 (input : Array UInt8) (i : Nat) (h : Array UInt32) (hsize : h.size = 8) :
    (block256 input i h).size = 8 := by
  unfold block256
  simp only [Array.size_zipWith, hsize]
  rw [size_foldl (n := 8) (fun _ _ _ => rfl) (List.range 64) hsize, Nat.min_self]

theorem size_block512 (input : Array UInt8) (i : Nat) (h : Array UInt64) (hsize : h.size = 8) :
    (block512 input i h).size = 8 := by
  unfold block512
  simp only [Array.size_zipWith, hsize]
  rw [size_foldl (n := 8) (fun _ _ _ => rfl) (List.range 80) hsize, Nat.min_self]

theorem length_sha256 (message : Bytes) : (sha256 message).length = 32 := by
  have hstart : start256.size = 8 := by
    rw [start256, Array.size_map]
    rfl
  unfold sha256
  simp only [length_flatMap_words length_be32Bytes, Array.length_toList]
  rw [size_foldl (n := 8) (fun h n => size_block256 _ _ h) _ hstart]

theorem length_sha512 (message : Bytes) : (sha512 message).length = 64 := by
  have hstart : start512.size = 8 := rfl
  unfold sha512
  simp only [length_flatMap_words length_be64Bytes, Array.length_toList]
  rw [size_foldl (n := 8) (fun h n => size_block512 _ _ h) _ hstart]

end Sha2

theorem Blake3.length_blake3 (bytes : Bytes) : (Blake3.blake3 bytes).length = 32 := by
  unfold blake3
  simp only [length_flatMap_words length_le32Bytes, Array.length_toList, Node.compress,
    Array.size_ofFn]

theorem XxHash3.length_hash128 (bytes : Bytes) : (XxHash3.hash128 bytes).length = 16 := by
  unfold hash128
  simp only [List.length_append, length_be64Bytes]

theorem SipHash.length_hash128 (bytes : Bytes) : (SipHash.hash128 bytes).length = 16 := by
  unfold hash128
  simp only [List.length_append, length_be64Bytes]

/-- A digest has the length that belongs to its algorithm. -/
theorem Algorithm.length_digest (algorithm : Algorithm) (bytes : Bytes) :
    (algorithm.digest bytes).length = algorithm.digestSize := by
  cases algorithm with
  | sha256 => exact Sha2.length_sha256 bytes
  | sha512 => exact Sha2.length_sha512 bytes
  | blake3 => exact Blake3.length_blake3 bytes
  | xxh3 => exact XxHash3.length_hash128 bytes
  | xxh64 => exact length_be64Bytes _
  | sipHash => exact SipHash.length_hash128 bytes

/-- A truncated digest has the bytes that are kept. -/
theorem TruncatedDigest.length_hash (d : TruncatedDigest) (bytes : Bytes) :
    (d.hash bytes).length = d.size := by
  rw [hash, List.length_take, Algorithm.length_digest]
  exact Nat.min_eq_left d.size_le

end RdfIndex
