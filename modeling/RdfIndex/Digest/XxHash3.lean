import RdfIndex.Digest.XxHash32
import RdfIndex.Digest.XxHash64

/-!
# XXH3 of 128 bits

The seed is zero and the secret is the default one.  The length of the input selects the method:

* 0, 1 to 3, 4 to 8 and 9 to 16 bytes: one mixing of the words at both ends,
* 17 to 128 bytes: pairs of sixteen bytes from both ends towards the middle,
* 129 to 240 bytes: pairs of sixteen bytes in a row,
* more: eight accumulators over stripes of 64 bytes, scrambled after each block of 1024 bytes.
-/

namespace RdfIndex.XxHash3

open Word

def secret : Array UInt8 := #[
  0xb8, 0xfe, 0x6c, 0x39, 0x23, 0xa4, 0x4b, 0xbe, 0x7c, 0x01, 0x81, 0x2c, 0xf7, 0x21, 0xad, 0x1c,
  0xde, 0xd4, 0x6d, 0xe9, 0x83, 0x90, 0x97, 0xdb, 0x72, 0x40, 0xa4, 0xa4, 0xb7, 0xb3, 0x67, 0x1f,
  0xcb, 0x79, 0xe6, 0x4e, 0xcc, 0xc0, 0xe5, 0x78, 0x82, 0x5a, 0xd0, 0x7d, 0xcc, 0xff, 0x72, 0x21,
  0xb8, 0x08, 0x46, 0x74, 0xf7, 0x43, 0x24, 0x8e, 0xe0, 0x35, 0x90, 0xe6, 0x81, 0x3a, 0x26, 0x4c,
  0x3c, 0x28, 0x52, 0xbb, 0x91, 0xc3, 0x00, 0xcb, 0x88, 0xd0, 0x65, 0x8b, 0x1b, 0x53, 0x2e, 0xa3,
  0x71, 0x64, 0x48, 0x97, 0xa2, 0x0d, 0xf9, 0x4e, 0x38, 0x19, 0xef, 0x46, 0xa9, 0xde, 0xac, 0xd8,
  0xa8, 0xfa, 0x76, 0x3f, 0xe3, 0x9c, 0x34, 0x3f, 0xf9, 0xdc, 0xbb, 0xc7, 0xc7, 0x0b, 0x4f, 0x1d,
  0x8a, 0x51, 0xe0, 0x4b, 0xcd, 0xb4, 0x59, 0x31, 0xc8, 0x9f, 0x7e, 0xc9, 0xd9, 0x78, 0x73, 0x64,
  0xea, 0xc5, 0xac, 0x83, 0x34, 0xd3, 0xeb, 0xc3, 0xc5, 0x81, 0xa0, 0xff, 0xfa, 0x13, 0x63, 0xeb,
  0x17, 0x0d, 0xdd, 0x51, 0xb7, 0xf0, 0xda, 0x49, 0xd3, 0x16, 0x55, 0x26, 0x29, 0xd4, 0x68, 0x9e,
  0x2b, 0x16, 0xbe, 0x58, 0x7d, 0x47, 0xa1, 0xfc, 0x8f, 0xf8, 0xb8, 0xd1, 0x7a, 0xd0, 0x31, 0xce,
  0x45, 0xcb, 0x3a, 0x8f, 0x95, 0x16, 0x04, 0x28, 0xaf, 0xd7, 0xfb, 0xca, 0xbb, 0x4b, 0x40, 0x7e]

/-- A word of 64 bits of the secret. -/
def key (i : Nat) : UInt64 := le64 secret i

/-- The first multiplier of the short mixings. -/
def mx1 : UInt64 := 0x165667919E3779F9
/-- The second multiplier of the short mixings. -/
def mx2 : UInt64 := 0x9FB21C651E98DF25

/-- A number of 128 bits in two halves. -/
structure Wide where
  low : UInt64
  high : UInt64

/-- The full product of two words. -/
def mulWide (a b : UInt64) : Wide :=
  let n := a.toNat * b.toNat
  ⟨UInt64.ofNat n, UInt64.ofNat (n / 0x10000000000000000)⟩

/-- The two halves of the full product, folded by exclusive or. -/
def mulFold (a b : UInt64) : UInt64 :=
  let w := mulWide a b
  w.low ^^^ w.high

/-- A word mixed with itself shifted right. -/
def xorShift (w n : UInt64) : UInt64 := w ^^^ (w >>> n)

/-- The last mixing of the long methods. -/
def avalanche (h : UInt64) : UInt64 := xorShift (xorShift h 37 * mx1) 32

/-! ## Short inputs -/

/-- The hash of one to three bytes. -/
def upTo3 (input : Array UInt8) : Wide :=
  let size := input.size
  let first := (byteAt input 0).toUInt32
  let middle := (byteAt input (size / 2)).toUInt32
  let last := (byteAt input (size - 1)).toUInt32
  let low := (first <<< 16) ||| (middle <<< 24) ||| last ||| (UInt32.ofNat size <<< 8)
  let high := rotl32 (swap32 low) 13
  let flipLow := (le32 secret 0 ^^^ le32 secret 4).toUInt64
  let flipHigh := (le32 secret 8 ^^^ le32 secret 12).toUInt64
  ⟨XxHash64.avalanche (low.toUInt64 ^^^ flipLow), XxHash64.avalanche (high.toUInt64 ^^^ flipHigh)⟩

/-- The hash of four to eight bytes. -/
def upTo8 (input : Array UInt8) : Wide :=
  let size := input.size
  let first := le32 input 0
  let last := le32 input (size - 4)
  let both := first.toUInt64 + (last.toUInt64 <<< 32)
  let keyed := both ^^^ (key 16 ^^^ key 24)
  let w := mulWide keyed (XxHash64.p1 + (UInt64.ofNat size <<< 2))
  let high := w.high + (w.low <<< 1)
  let low := w.low ^^^ (high >>> 3)
  let low := xorShift low 35 * mx2
  ⟨xorShift low 28, avalanche high⟩

/-- The hash of nine to sixteen bytes. -/
def upTo16 (input : Array UInt8) : Wide :=
  let size := input.size
  let flipLow := key 32 ^^^ key 40
  let flipHigh := key 48 ^^^ key 56
  let first := le64 input 0
  let last := le64 input (size - 8)
  let w := mulWide (first ^^^ last ^^^ flipLow) XxHash64.p1
  let low := w.low + ((UInt64.ofNat size - 1) <<< 54)
  let last := last ^^^ flipHigh
  let high := w.high + (last + (last &&& 0xFFFFFFFF) * (XxHash32.p2.toUInt64 - 1))
  let low := low ^^^ swap64 high
  let v := mulWide low XxHash64.p2
  ⟨avalanche v.low, avalanche (v.high + high * XxHash64.p2)⟩

/-- Sixteen bytes of the input mixed with sixteen bytes of the secret. -/
def mix16 (input : Array UInt8) (i k : Nat) : UInt64 :=
  mulFold (le64 input i ^^^ key k) (le64 input (i + 8) ^^^ key (k + 8))

/-- Two accumulators after a pair of sixteen bytes each, at `i` and `j`. -/
def mix32 (input : Array UInt8) (acc : Wide) (i j k : Nat) : Wide :=
  ⟨(acc.low + mix16 input i k) ^^^ (le64 input j + le64 input (j + 8)),
    (acc.high + mix16 input j (k + 16)) ^^^ (le64 input i + le64 input (i + 8))⟩

/-- The end of the methods for up to 240 bytes. -/
def finishMiddle (acc : Wide) (size : Nat) : Wide :=
  let low := acc.low + acc.high
  let high := acc.low * XxHash64.p1 + acc.high * XxHash64.p4 + UInt64.ofNat size * XxHash64.p2
  ⟨avalanche low, 0 - avalanche high⟩

/-- The hash of 17 to 128 bytes. -/
def upTo128 (input : Array UInt8) : Wide :=
  let size := input.size
  let acc := (List.range ((size - 1) / 32 + 1)).reverse.foldl
    (fun acc n => mix32 input acc (16 * n) (size - 16 * (n + 1)) (32 * n))
    ⟨UInt64.ofNat size * XxHash64.p1, 0⟩
  finishMiddle acc size

/-- The hash of 129 to 240 bytes. -/
def upTo240 (input : Array UInt8) : Wide :=
  let size := input.size
  let acc := (List.range 4).foldl
    (fun acc n => mix32 input acc (32 * n) (32 * n + 16) (32 * n))
    ⟨UInt64.ofNat size * XxHash64.p1, 0⟩
  let acc : Wide := ⟨avalanche acc.low, avalanche acc.high⟩
  let acc := (List.range (size / 32 - 4)).foldl
    (fun acc n => mix32 input acc (32 * (n + 4)) (32 * (n + 4) + 16) (3 + 32 * n)) acc
  let acc := mix32 input acc (size - 16) (size - 32) (136 - 17 - 16)
  finishMiddle acc size

/-! ## Long inputs -/

/-- The accumulators at the start. -/
def initial : Array UInt64 := #[
  XxHash32.p3.toUInt64, XxHash64.p1, XxHash64.p2, XxHash64.p3,
  XxHash64.p4, XxHash32.p2.toUInt64, XxHash64.p5, XxHash32.p1.toUInt64]

/-- The accumulators after a stripe at `i`, with the secret from `k` on. -/
def accumulate (input : Array UInt8) (i k : Nat) (acc : Array UInt64) : Array UInt64 :=
  Array.ofFn fun lane : Fin 8 =>
    let keyed := le64 input (i + 8 * lane) ^^^ key (k + 8 * lane)
    let other := le64 input (i + 8 * (lane.val ^^^ 1))
    acc.getD lane 0 + other + (keyed &&& (0xFFFFFFFF : UInt64)) * (keyed >>> 32)

/-- The accumulators after a block. -/
def scramble (acc : Array UInt64) : Array UInt64 :=
  Array.ofFn fun lane : Fin 8 =>
    (xorShift (acc.getD lane 0) 47 ^^^ key (128 + 8 * lane)) * XxHash32.p1.toUInt64

/-- The accumulators after `n` stripes, the first of them at `i` with the secret from `k` on. -/
def stripes (input : Array UInt8) : Nat → Nat → Nat → Array UInt64 → Array UInt64
  | 0, _, _, acc => acc
  | n + 1, i, k, acc => stripes input n (i + 64) (k + 8) (accumulate input i k acc)

/-- The accumulators after `n` whole blocks, the first of them at `i`. -/
def blocks (input : Array UInt8) : Nat → Nat → Array UInt64 → Array UInt64
  | 0, _, acc => acc
  | n + 1, i, acc => blocks input n (i + 1024) (scramble (stripes input 16 i 0 acc))

/-- The accumulators folded to one word, with the secret from `k` on. -/
def fold (acc : Array UInt64) (k : Nat) (start : UInt64) : UInt64 :=
  avalanche <| (List.range 4).foldl
    (fun h n => h + mulFold (acc.getD (2 * n) 0 ^^^ key (k + 16 * n))
      (acc.getD (2 * n + 1) 0 ^^^ key (k + 16 * n + 8))) start

/-- The hash of more than 240 bytes. -/
def long (input : Array UInt8) : Wide :=
  let size := input.size
  let whole := (size - 1) / 1024
  let acc := blocks input whole 0 initial
  let acc := stripes input ((size - 1 - 1024 * whole) / 64) (1024 * whole) 0 acc
  let acc := accumulate input (size - 64) (192 - 64 - 7) acc
  let n := UInt64.ofNat size
  ⟨fold acc 11 (n * XxHash64.p1), fold acc (192 - 64 - 11) ((n * XxHash64.p2) ^^^ 0xFFFFFFFFFFFFFFFF)⟩

/-! ## The hash -/

/-- The hash of an array of bytes. -/
def hashWide (input : Array UInt8) : Wide :=
  let size := input.size
  if size = 0 then
    ⟨XxHash64.avalanche (key 64 ^^^ key 72), XxHash64.avalanche (key 80 ^^^ key 88)⟩
  else if size ≤ 3 then upTo3 input
  else if size ≤ 8 then upTo8 input
  else if size ≤ 16 then upTo16 input
  else if size ≤ 128 then upTo128 input
  else if size ≤ 240 then upTo240 input
  else long input

/-- The hash of a byte string, high half first, most significant byte first. -/
def hash128 (bytes : Bytes) : Bytes :=
  let w := hashWide bytes.toArray
  be64Bytes w.high ++ be64Bytes w.low

end RdfIndex.XxHash3
