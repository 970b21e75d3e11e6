import RdfIndex.Digest.Word

/-!
# xxHash of 64 bits

Four lanes take stripes of thirty-two bytes and are then merged.  The rest goes in by words of
eight bytes, one of four, then by bytes, and an avalanche step ends the hash.  The seed is zero.
-/

namespace RdfIndex.XxHash64

open Word

/-- The first multiplier. -/
def p1 : UInt64 := 0x9E3779B185EBCA87
/-- The second multiplier. -/
def p2 : UInt64 := 0xC2B2AE3D27D4EB4F
/-- The third multiplier. -/
def p3 : UInt64 := 0x165667B19E3779F9
/-- The fourth multiplier. -/
def p4 : UInt64 := 0x85EBCA77C2B2AE63
/-- The fifth multiplier. -/
def p5 : UInt64 := 0x27D4EB2F165667C5

/-- A lane after one more word. -/
def round (lane word : UInt64) : UInt64 := rotl64 (lane + word * p2) 31 * p1

/-- The hash with a lane merged in. -/
def merge (h lane : UInt64) : UInt64 := (h ^^^ round 0 lane) * p1 + p4

/-- The four lanes. -/
structure Lanes where
  a : UInt64
  b : UInt64
  c : UInt64
  d : UInt64

/-- The lanes after `n` stripes, the first of them at index `i`. -/
def stripes (input : Array UInt8) : Nat → Nat → Lanes → Lanes
  | 0, _, l => l
  | n + 1, i, l =>
    stripes input n (i + 32)
      ⟨round l.a (le64 input i), round l.b (le64 input (i + 8)), round l.c (le64 input (i + 16)),
        round l.d (le64 input (i + 24))⟩

/-- The hash after `n` more words of eight bytes, the first of them at index `i`. -/
def words (input : Array UInt8) : Nat → Nat → UInt64 → UInt64
  | 0, _, h => h
  | n + 1, i, h => words input n (i + 8) (rotl64 (h ^^^ round 0 (le64 input i)) 27 * p1 + p4)

/-- The hash after `n` more bytes, the first of them at index `i`. -/
def singles (input : Array UInt8) : Nat → Nat → UInt64 → UInt64
  | 0, _, h => h
  | n + 1, i, h =>
    singles input n (i + 1) (rotl64 (h ^^^ ((byteAt input i).toUInt64 * p5)) 11 * p1)

/-- The last mixing. -/
def avalanche (h : UInt64) : UInt64 :=
  let h := (h ^^^ (h >>> 33)) * p2
  let h := (h ^^^ (h >>> 29)) * p3
  h ^^^ (h >>> 32)

/-- The hash of a byte string. -/
def hash64 (bytes : Bytes) : UInt64 :=
  let input := bytes.toArray
  let size := input.size
  let whole := size / 32
  let start : UInt64 :=
    if whole = 0 then p5
    else
      let l := stripes input whole 0 ⟨p1 + p2, p2, 0, 0 - p1⟩
      let h := rotl64 l.a 1 + rotl64 l.b 7 + rotl64 l.c 12 + rotl64 l.d 18
      merge (merge (merge (merge h l.a) l.b) l.c) l.d
  let h := start + UInt64.ofNat size
  let i := whole * 32
  let rest := size % 32
  let h := words input (rest / 8) i h
  let i := i + rest / 8 * 8
  let rest := rest % 8
  let h :=
    if rest < 4 then h
    else rotl64 (h ^^^ ((le32 input i).toUInt64 * p1)) 23 * p2 + p3
  let h := singles input (rest % 4) (i + rest / 4 * 4) h
  avalanche h

end RdfIndex.XxHash64
