import RdfIndex.Digest.Word

/-!
# SHA-256 and SHA-512

Both digests pad the message with a one bit, zeros and its length in bits, split it into blocks of
sixteen words and mix each block into eight words of state.  The constants are the first bits of
the fractional parts of the cube roots of the first primes, and of the square roots of the first
eight primes for the state at the start.  SHA-256 takes the upper half of each of them.
-/

namespace RdfIndex.Sha2

open Word

/-- The round constants of SHA-512. -/
def roundConstants : Array UInt64 := #[
  0x428a2f98d728ae22, 0x7137449123ef65cd, 0xb5c0fbcfec4d3b2f, 0xe9b5dba58189dbbc,
  0x3956c25bf348b538, 0x59f111f1b605d019, 0x923f82a4af194f9b, 0xab1c5ed5da6d8118,
  0xd807aa98a3030242, 0x12835b0145706fbe, 0x243185be4ee4b28c, 0x550c7dc3d5ffb4e2,
  0x72be5d74f27b896f, 0x80deb1fe3b1696b1, 0x9bdc06a725c71235, 0xc19bf174cf692694,
  0xe49b69c19ef14ad2, 0xefbe4786384f25e3, 0x0fc19dc68b8cd5b5, 0x240ca1cc77ac9c65,
  0x2de92c6f592b0275, 0x4a7484aa6ea6e483, 0x5cb0a9dcbd41fbd4, 0x76f988da831153b5,
  0x983e5152ee66dfab, 0xa831c66d2db43210, 0xb00327c898fb213f, 0xbf597fc7beef0ee4,
  0xc6e00bf33da88fc2, 0xd5a79147930aa725, 0x06ca6351e003826f, 0x142929670a0e6e70,
  0x27b70a8546d22ffc, 0x2e1b21385c26c926, 0x4d2c6dfc5ac42aed, 0x53380d139d95b3df,
  0x650a73548baf63de, 0x766a0abb3c77b2a8, 0x81c2c92e47edaee6, 0x92722c851482353b,
  0xa2bfe8a14cf10364, 0xa81a664bbc423001, 0xc24b8b70d0f89791, 0xc76c51a30654be30,
  0xd192e819d6ef5218, 0xd69906245565a910, 0xf40e35855771202a, 0x106aa07032bbd1b8,
  0x19a4c116b8d2d0c8, 0x1e376c085141ab53, 0x2748774cdf8eeb99, 0x34b0bcb5e19b48a8,
  0x391c0cb3c5c95a63, 0x4ed8aa4ae3418acb, 0x5b9cca4f7763e373, 0x682e6ff3d6b2b8a3,
  0x748f82ee5defb2fc, 0x78a5636f43172f60, 0x84c87814a1f0ab72, 0x8cc702081a6439ec,
  0x90befffa23631e28, 0xa4506cebde82bde9, 0xbef9a3f7b2c67915, 0xc67178f2e372532b,
  0xca273eceea26619c, 0xd186b8c721c0c207, 0xeada7dd6cde0eb1e, 0xf57d4f7fee6ed178,
  0x06f067aa72176fba, 0x0a637dc5a2c898a6, 0x113f9804bef90dae, 0x1b710b35131c471b,
  0x28db77f523047d84, 0x32caab7b40c72493, 0x3c9ebe0a15c9bebc, 0x431d67c49c100d4c,
  0x4cc5d4becb3e42b6, 0x597f299cfc657e2a, 0x5fcb6fab3ad6faec, 0x6c44198c4a475817]

/-- The state of SHA-512 at the start. -/
def start512 : Array UInt64 := #[
  0x6a09e667f3bcc908, 0xbb67ae8584caa73b, 0x3c6ef372fe94f82b, 0xa54ff53a5f1d36f1,
  0x510e527fade682d1, 0x9b05688c2b3e6c1f, 0x1f83d9abfb41bd6b, 0x5be0cd19137e2179]

/-- The state of SHA-256 at the start. -/
def start256 : Array UInt32 := start512.map fun w : UInt64 => (w >>> 32).toUInt32

/-- The message with its padding, up to a multiple of `block` bytes.  The length takes the last
`field` bytes. -/
def pad (block field : Nat) (message : Bytes) : Array UInt8 :=
  let used := (message.length + 1 + field) % block
  let zeros := if used = 0 then 0 else block - used
  (message ++ 0x80 :: List.replicate zeros 0 ++ Bytes.toBigEndian field (8 * message.length)).toArray

/-! ## SHA-256 -/

/-- The message schedule of SHA-256, extended by `n` words. -/
def extend256 : Nat → Array UInt32 → Array UInt32
  | 0, w => w
  | n + 1, w =>
    let at_ (back : Nat) : UInt32 := w.getD (w.size - back) 0
    let s0 := rotr32 (at_ 15) 7 ^^^ rotr32 (at_ 15) 18 ^^^ (at_ 15 >>> 3)
    let s1 := rotr32 (at_ 2) 17 ^^^ rotr32 (at_ 2) 19 ^^^ (at_ 2 >>> 10)
    extend256 n (w.push (at_ 16 + s0 + at_ 7 + s1))

/-- One round of SHA-256 with the sum of a schedule word and a constant. -/
def round256 (v : Array UInt32) (kw : UInt32) : Array UInt32 :=
  let a := v.getD 0 0
  let b := v.getD 1 0
  let c := v.getD 2 0
  let e := v.getD 4 0
  let s1 := rotr32 e 6 ^^^ rotr32 e 11 ^^^ rotr32 e 25
  let choice := (e &&& v.getD 5 0) ^^^ (~~~e &&& v.getD 6 0)
  let t1 := v.getD 7 0 + s1 + choice + kw
  let s0 := rotr32 a 2 ^^^ rotr32 a 13 ^^^ rotr32 a 22
  let majority := (a &&& b) ^^^ (a &&& c) ^^^ (b &&& c)
  #[t1 + s0 + majority, a, b, c, v.getD 3 0 + t1, e, v.getD 5 0, v.getD 6 0]

/-- The state of SHA-256 after the block at index `i`. -/
def block256 (input : Array UInt8) (i : Nat) (h : Array UInt32) : Array UInt32 :=
  let w := extend256 48 (Array.ofFn fun n : Fin 16 => be32 input (i + 4 * n))
  let v := (List.range 64).foldl
    (fun v n => round256 v (w.getD n 0 + (roundConstants.getD n 0 >>> 32).toUInt32)) h
  Array.zipWith (· + ·) h v

/-- The digest of 32 bytes. -/
def sha256 (message : Bytes) : Bytes :=
  let input := pad 64 8 message
  let h := (List.range (input.size / 64)).foldl (fun h n => block256 input (64 * n) h) start256
  h.toList.flatMap be32Bytes

/-! ## SHA-512 -/

/-- The message schedule of SHA-512, extended by `n` words. -/
def extend512 : Nat → Array UInt64 → Array UInt64
  | 0, w => w
  | n + 1, w =>
    let at_ (back : Nat) : UInt64 := w.getD (w.size - back) 0
    let s0 := rotr64 (at_ 15) 1 ^^^ rotr64 (at_ 15) 8 ^^^ (at_ 15 >>> 7)
    let s1 := rotr64 (at_ 2) 19 ^^^ rotr64 (at_ 2) 61 ^^^ (at_ 2 >>> 6)
    extend512 n (w.push (at_ 16 + s0 + at_ 7 + s1))

/-- One round of SHA-512 with the sum of a schedule word and a constant. -/
def round512 (v : Array UInt64) (kw : UInt64) : Array UInt64 :=
  let a := v.getD 0 0
  let b := v.getD 1 0
  let c := v.getD 2 0
  let e := v.getD 4 0
  let s1 := rotr64 e 14 ^^^ rotr64 e 18 ^^^ rotr64 e 41
  let choice := (e &&& v.getD 5 0) ^^^ (~~~e &&& v.getD 6 0)
  let t1 := v.getD 7 0 + s1 + choice + kw
  let s0 := rotr64 a 28 ^^^ rotr64 a 34 ^^^ rotr64 a 39
  let majority := (a &&& b) ^^^ (a &&& c) ^^^ (b &&& c)
  #[t1 + s0 + majority, a, b, c, v.getD 3 0 + t1, e, v.getD 5 0, v.getD 6 0]

/-- The state of SHA-512 after the block at index `i`. -/
def block512 (input : Array UInt8) (i : Nat) (h : Array UInt64) : Array UInt64 :=
  let w := extend512 64 (Array.ofFn fun n : Fin 16 => be64 input (i + 8 * n))
  let v := (List.range 80).foldl (fun v n => round512 v (w.getD n 0 + roundConstants.getD n 0)) h
  Array.zipWith (· + ·) h v

/-- The digest of 64 bytes. -/
def sha512 (message : Bytes) : Bytes :=
  let input := pad 128 16 message
  let h := (List.range (input.size / 128)).foldl (fun h n => block512 input (128 * n) h) start512
  h.toList.flatMap be64Bytes

end RdfIndex.Sha2
