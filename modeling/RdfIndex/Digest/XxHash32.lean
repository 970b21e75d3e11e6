import RdfIndex.Digest.Word

/-!
# xxHash of 32 bits

Four lanes take stripes of sixteen bytes.  The rest goes in by words, then by bytes, and an
avalanche step ends the hash.  The seed is zero.
-/

namespace RdfIndex.XxHash32

open Word

/-- The five multipliers. -/
def p1 : UInt32 := 0x9E3779B1
/-- The second multiplier. -/
def p2 : UInt32 := 0x85EBCA77
/-- The third multiplier. -/
def p3 : UInt32 := 0xC2B2AE3D
/-- The fourth multiplier. -/
def p4 : UInt32 := 0x27D4EB2F
/-- The fifth multiplier. -/
def p5 : UInt32 := 0x165667B1

/-- A lane after one more word. -/
def round (lane word : UInt32) : UInt32 := rotl32 (lane + word * p2) 13 * p1

/-- The four lanes. -/
structure Lanes where
  a : UInt32
  b : UInt32
  c : UInt32
  d : UInt32

/-- The lanes after `n` stripes, the first of them at index `i`. -/
def stripes (input : Array UInt8) : Nat → Nat → Lanes → Lanes
  | 0, _, l => l
  | n + 1, i, l =>
    stripes input n (i + 16)
      ⟨round l.a (le32 input i), round l.b (le32 input (i + 4)), round l.c (le32 input (i + 8)),
        round l.d (le32 input (i + 12))⟩

/-- The hash after `n` more words, the first of them at index `i`. -/
def words (input : Array UInt8) : Nat → Nat → UInt32 → UInt32
  | 0, _, h => h
  | n + 1, i, h => words input n (i + 4) (rotl32 (h + le32 input i * p3) 17 * p4)

/-- The hash after `n` more bytes, the first of them at index `i`. -/
def singles (input : Array UInt8) : Nat → Nat → UInt32 → UInt32
  | 0, _, h => h
  | n + 1, i, h => singles input n (i + 1) (rotl32 (h + (byteAt input i).toUInt32 * p5) 11 * p1)

/-- The last mixing. -/
def avalanche (h : UInt32) : UInt32 :=
  let h := (h ^^^ (h >>> 15)) * p2
  let h := (h ^^^ (h >>> 13)) * p3
  h ^^^ (h >>> 16)

/-- The hash of a byte string. -/
def hash32 (bytes : Bytes) : UInt32 :=
  let input := bytes.toArray
  let size := input.size
  let whole := size / 16
  let start : UInt32 :=
    if whole = 0 then p5
    else
      let l := stripes input whole 0 ⟨p1 + p2, p2, 0, 0 - p1⟩
      rotl32 l.a 1 + rotl32 l.b 7 + rotl32 l.c 12 + rotl32 l.d 18
  let h := start + UInt32.ofNat size
  let rest := size % 16
  let h := words input (rest / 4) (whole * 16) h
  let h := singles input (rest % 4) (whole * 16 + rest / 4 * 4) h
  avalanche h

end RdfIndex.XxHash32
