import RdfIndex.Bytes.Basic

/-!
# Little-endian words and rotations

The words that the hash functions read: four or eight bytes, least significant first, taken at an
index of a byte array.  Bytes beyond the end count as zero.
-/

namespace RdfIndex.Word

/-- The byte at an index, zero beyond the end. -/
def byteAt (a : Array UInt8) (i : Nat) : UInt8 := a.getD i 0

/-- The four bytes at an index as a word, least significant first. -/
def le32 (a : Array UInt8) (i : Nat) : UInt32 :=
  (byteAt a i).toUInt32 ||| ((byteAt a (i + 1)).toUInt32 <<< 8)
    ||| ((byteAt a (i + 2)).toUInt32 <<< 16) ||| ((byteAt a (i + 3)).toUInt32 <<< 24)

/-- The eight bytes at an index as a word, least significant first. -/
def le64 (a : Array UInt8) (i : Nat) : UInt64 :=
  (le32 a i).toUInt64 ||| ((le32 a (i + 4)).toUInt64 <<< 32)

/-- A word of 32 bits, most significant byte first. -/
def be32Bytes (w : UInt32) : Bytes := Bytes.toBigEndian 4 w.toNat

/-- A word of 64 bits, most significant byte first. -/
def be64Bytes (w : UInt64) : Bytes := Bytes.toBigEndian 8 w.toNat

/-- A word of 32 bits, least significant byte first. -/
def le32Bytes (w : UInt32) : Bytes := (be32Bytes w).reverse

/-- The four bytes at an index as a word, most significant first. -/
def be32 (a : Array UInt8) (i : Nat) : UInt32 :=
  ((byteAt a i).toUInt32 <<< 24) ||| ((byteAt a (i + 1)).toUInt32 <<< 16)
    ||| ((byteAt a (i + 2)).toUInt32 <<< 8) ||| (byteAt a (i + 3)).toUInt32

/-- The eight bytes at an index as a word, most significant first. -/
def be64 (a : Array UInt8) (i : Nat) : UInt64 :=
  ((be32 a i).toUInt64 <<< 32) ||| (be32 a (i + 4)).toUInt64

/-- Rotation to the left, by less than 32 and more than zero bits. -/
def rotl32 (w : UInt32) (n : UInt32) : UInt32 := (w <<< n) ||| (w >>> (32 - n))

/-- Rotation to the right, by less than 32 and more than zero bits. -/
def rotr32 (w : UInt32) (n : UInt32) : UInt32 := (w >>> n) ||| (w <<< (32 - n))

/-- Rotation to the left, by less than 64 and more than zero bits. -/
def rotl64 (w : UInt64) (n : UInt64) : UInt64 := (w <<< n) ||| (w >>> (64 - n))

/-- Rotation to the right, by less than 64 and more than zero bits. -/
def rotr64 (w : UInt64) (n : UInt64) : UInt64 := (w >>> n) ||| (w <<< (64 - n))

/-- The bytes of a word of 32 bits in reverse order. -/
def swap32 (w : UInt32) : UInt32 :=
  (w <<< 24) ||| ((w <<< 8) &&& (0x00FF0000 : UInt32)) ||| ((w >>> 8) &&& (0x0000FF00 : UInt32)) ||| (w >>> 24)

/-- The bytes of a word of 64 bits in reverse order. -/
def swap64 (w : UInt64) : UInt64 :=
  ((swap32 w.toUInt32).toUInt64 <<< 32) ||| (swap32 (w >>> 32).toUInt32).toUInt64

end RdfIndex.Word
