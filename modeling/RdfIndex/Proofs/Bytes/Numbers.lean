import Mathlib.Algebra.Group.Int.Defs
import Mathlib.Algebra.Group.Nat.Defs
import RdfIndex.Bytes.Varint
import RdfIndex.Number.Integer

/-!
# Numbers in bytes read back

A number that fits its width comes back from its bytes, unsigned (`ofBigEndian_toBigEndian_of_lt`)
and signed (`toInt_ofInt`).  A number below `2 ^ 64` comes back from its groups of seven bits
(`Varint.decode_encode`), whatever follows them.
-/

namespace RdfIndex

namespace Bytes

/-! ## Fixed width -/

theorem ofBigEndian_toBigEndian_of_lt {width n : Nat} (h : n < Nat.pow 256 width) :
    ofBigEndian (toBigEndian width n) = n := by
  rw [ofBigEndian_toBigEndian, Nat.mod_eq_of_lt h]

@[simp] theorem length_ofInt (width : Nat) (i : Int) : (ofInt width i).length = width :=
  length_toBigEndian width _

theorem toTwos_lt (width : Nat) (i : Int) : toTwos width i < Nat.pow 256 width := by
  have hpos : (0 : Int) < (Nat.pow 256 width : Nat) :=
    Int.natCast_pos.2 (Nat.pow_pos (by decide))
  have hlow := Int.emod_nonneg i (Int.ne_of_gt hpos)
  have hhigh := Int.emod_lt_of_pos i hpos
  unfold toTwos
  omega

/-- The two's complement of an integer that fits stands for it. -/
theorem ofTwos_toTwos {width : Nat} {i : Int} (h : Integer.fits width i = true) :
    ofTwos width (toTwos width i) = i := by
  simp only [Integer.fits, Bool.and_eq_true, decide_eq_true_eq] at h
  unfold ofTwos toTwos
  generalize Nat.pow 256 width = m at h ⊢
  by_cases hi : 0 ≤ i
  · have hmod : i % (m : Int) = i := Int.emod_eq_of_lt hi (by omega)
    rw [hmod, if_pos (by omega)]
    omega
  · -- A negative integer is moved up by the modulus once.
    have hmod : i % (m : Int) = i + m := by
      rw [← Int.add_emod_right i m]
      exact Int.emod_eq_of_lt (by omega) (by omega)
    rw [hmod, if_neg (by omega)]
    omega

/-- The two's complement of the integer that a number stands for is the number. -/
theorem toTwos_ofTwos {width n : Nat} (h : n < Nat.pow 256 width) :
    toTwos width (ofTwos width n) = n := by
  unfold ofTwos toTwos
  generalize Nat.pow 256 width = m at h ⊢
  split
  · rw [Int.emod_eq_of_lt (by omega) (by omega)]
    rfl
  · rw [← Int.add_emod_right, Int.sub_add_cancel, Int.emod_eq_of_lt (by omega) (by omega)]
    rfl

/-- An integer that fits comes back from its bytes. -/
theorem toInt_ofInt {width : Nat} {i : Int} (h : Integer.fits width i = true) :
    toInt (ofInt width i) = i := by
  rw [toInt, length_ofInt, ofInt, ofBigEndian_toBigEndian_of_lt (toTwos_lt width i),
    ofTwos_toTwos h]

end Bytes

namespace Varint

/-! ## Variable length -/

theorem encode_of_lt {n : Nat} (h : n < 128) : encode n = [UInt8.ofNat n] := by
  rw [encode, if_pos h]

theorem encode_of_le {n : Nat} (h : 128 ≤ n) :
    encode n = UInt8.ofNat (n % 128 + 128) :: encode (n / 128) := by
  rw [encode, if_neg (by omega)]

theorem length_encode_pos (n : Nat) : 0 < (encode n).length := by
  rw [encode]
  split <;> simp

/-- So many groups of seven bits are as many bytes. -/
theorem length_encode_le (k : Nat) : ∀ n : Nat, n < 128 ^ (k + 1) → (encode n).length ≤ k + 1 := by
  induction k with
  | zero =>
      intro n hn
      rw [encode_of_lt hn]
      exact Nat.le_refl _
  | succ k ih =>
      intro n hn
      by_cases hsmall : n < 128
      · rw [encode_of_lt hsmall]
        exact Nat.succ_le_succ (Nat.zero_le _)
      · rw [encode_of_le (by omega), List.length_cons]
        refine Nat.succ_le_succ (ih (n / 128) ?_)
        rw [Nat.pow_succ] at hn
        exact Nat.div_lt_of_lt_mul (by omega)

/-- Bytes with their length in front are more than the bytes. -/
theorem length_lt_withLength (bytes : Bytes) : bytes.length < (withLength bytes).length := by
  have hpos := length_encode_pos bytes.length
  rw [withLength, List.length_append]
  omega

/-- The group with the last index holds one bit, so a number that still fits there is below two. -/
theorem lt_two_of_last {index n : Nat} (hindex : index = 9) (h : n * 128 ^ index < 2 ^ 64) :
    n < 2 := by
  subst hindex
  omega

/-- A number comes back from its groups, the first of them with the given index, as long as no bit
of it goes beyond the sixty-fourth. -/
theorem decodeFrom_encode (n : Nat) :
    ∀ (index : Nat) (rest : Bytes), index ≤ 9 → n * 128 ^ index < 2 ^ 64 →
      decodeFrom index (encode n ++ rest) = (.ok n, rest) := by
  induction n using Nat.strongRecOn with
  | ind n ih =>
      intro index rest hindex hn
      have hlast : index = 9 → n < 2 := fun h => lt_two_of_last h hn
      by_cases hsmall : n < 128
      · have hb : (UInt8.ofNat n).toNat = n := by
          simp only [UInt8.toNat_ofNat']
          omega
        have hbits : ¬ (index = 9 ∧ 1 < n % 128) := by omega
        rw [encode_of_lt hsmall, List.singleton_append, decodeFrom, hb, if_neg (by omega),
          if_neg hbits, if_pos hsmall]
      · have hb : (UInt8.ofNat (n % 128 + 128)).toNat = n % 128 + 128 := by
          simp only [UInt8.toNat_ofNat']
          omega
        have hgroup : (n % 128 + 128) % 128 = n % 128 := by omega
        have hnext : n / 128 * 128 ^ (index + 1) < 2 ^ 64 := by
          have hle : n / 128 * 128 * 128 ^ index ≤ n * 128 ^ index :=
            Nat.mul_le_mul_right _ (Nat.div_mul_le_self n 128)
          rw [Nat.pow_succ, Nat.mul_comm (128 ^ index), ← Nat.mul_assoc]
          exact Nat.lt_of_le_of_lt hle hn
        rw [encode_of_le (by omega), List.cons_append, decodeFrom, hb, hgroup, if_neg (by omega),
          if_neg (by omega), if_neg (by omega),
          ih (n / 128) (by omega) (index + 1) rest (by omega) hnext]
        simp only [Prod.mk.injEq, Except.ok.injEq, and_true]
        omega

/-- A number of sixty-four bits comes back from its bytes, whatever follows them. -/
theorem decode_encode {n : Nat} (h : n < 2 ^ 64) (rest : Bytes) :
    decode (encode n ++ rest) = (.ok n, rest) :=
  decodeFrom_encode n 0 rest (by omega) (by omega)

/-- An integer of eight bytes is folded to a number of sixty-four bits. -/
theorem fold_lt {i : Int} (h : Integer.fits 8 i = true) : fold i < 2 ^ 64 := by
  simp only [Integer.fits, Bool.and_eq_true, decide_eq_true_eq] at h
  have hpow : Nat.pow 256 8 = 2 ^ 64 := by decide
  rw [hpow] at h
  unfold fold
  split <;> omega

/-- An integer of eight bytes takes ten groups at most. -/
theorem length_encodeInt_le {i : Int} (h : Integer.fits 8 i = true) :
    (encodeInt i).length ≤ 10 :=
  length_encode_le 9 (fold i) (Nat.lt_trans (fold_lt h) (by decide))

end Varint

end RdfIndex
