import RdfIndex.Bytes.Varint

/-!
# Writing words in groups

A machine writes a number of variable length from a word of 64 bits.  It masks the lowest seven bits
and moves the others down, until nothing is left.  Of a signed word, the shift by 63 places leaves
the sign in every bit, so that the exclusive or with it inverts the others exactly if the word is
negative.
-/

namespace RdfIndex.Varint

theorem toNat_shiftRight_seven (word : UInt64) : (word >>> 7).toNat = word.toNat / 128 := by
  rw [UInt64.toNat_shiftRight]
  exact Nat.shiftRight_eq_div_pow word.toNat 7

/-- Nothing is left of a word that is below 128. -/
theorem shiftRight_seven_eq_zero_iff {word : UInt64} : word >>> 7 = 0 ↔ word.toNat < 128 := by
  rw [← UInt64.toNat_inj, toNat_shiftRight_seven, UInt64.toNat_zero]
  omega

/-- Writes a word to the end of a buffer. -/
def putWord (out : Bytes) (word : UInt64) : Bytes :=
  let group := (word &&& 0x7F).toUInt8
  if word >>> 7 = 0 then out ++ [group] else putWord (out ++ [group ||| 0x80]) (word >>> 7)
termination_by word.toNat
decreasing_by
  next hleft =>
    rw [shiftRight_seven_eq_zero_iff] at hleft
    rw [toNat_shiftRight_seven]
    omega

/-- The word that a signed word is folded to. -/
def foldWord (i : Int64) : UInt64 := (i <<< 1 ^^^ i >>> 63).toUInt64

/-- Writes a signed word to the end of a buffer. -/
def putInt (out : Bytes) (i : Int64) : Bytes := putWord out (foldWord i)

end RdfIndex.Varint
