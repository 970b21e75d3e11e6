import RdfIndex.Digest.Sha2

/-!
# BLAKE3

The input is split into chunks of 1024 bytes, the leaves of a binary tree whose left subtrees hold
the largest power of two of chunks.  A leaf chains the blocks of its chunk, an inner node
compresses the chaining values of its two children.  The root is compressed once more with a flag
of its own, and its first eight words are the digest.
-/

namespace RdfIndex.Blake3

open Word

/-- The chaining value at the start. -/
def initial : Array UInt32 := Sha2.start256

/-- Set on the first block of a chunk. -/
def chunkStart : UInt32 := 1
/-- Set on the last block of a chunk. -/
def chunkEnd : UInt32 := 2
/-- Set on an inner node. -/
def parent : UInt32 := 4
/-- Set on the root. -/
def root : UInt32 := 8

/-- The order in which a round reads the words that the round before it read. -/
def permutation : Array Nat := #[2, 6, 3, 10, 7, 0, 4, 13, 1, 11, 12, 5, 9, 14, 15, 8]

/-- Mixes two message words into the four state words at `a`, `b`, `c`, `d`. -/
def mix (v : Array UInt32) (a b c d : Nat) (x y : UInt32) : Array UInt32 :=
  let at_ (i : Nat) : UInt32 := v.getD i 0
  let va := at_ a + at_ b + x
  let vd := rotr32 (at_ d ^^^ va) 16
  let vc := at_ c + vd
  let vb := rotr32 (at_ b ^^^ vc) 12
  let va := va + vb + y
  let vd := rotr32 (vd ^^^ va) 8
  let vc := vc + vd
  let vb := rotr32 (vb ^^^ vc) 7
  (((v.setIfInBounds a va).setIfInBounds b vb).setIfInBounds c vc).setIfInBounds d vd

/-- One round: the columns, then the diagonals. -/
def round (v m : Array UInt32) : Array UInt32 :=
  let at_ (i : Nat) : UInt32 := m.getD i 0
  let v := mix v 0 4 8 12 (at_ 0) (at_ 1)
  let v := mix v 1 5 9 13 (at_ 2) (at_ 3)
  let v := mix v 2 6 10 14 (at_ 4) (at_ 5)
  let v := mix v 3 7 11 15 (at_ 6) (at_ 7)
  let v := mix v 0 5 10 15 (at_ 8) (at_ 9)
  let v := mix v 1 6 11 12 (at_ 10) (at_ 11)
  let v := mix v 2 7 8 13 (at_ 12) (at_ 13)
  mix v 3 4 9 14 (at_ 14) (at_ 15)

/-- The state after `n` rounds. -/
def rounds : Nat → Array UInt32 → Array UInt32 → Array UInt32
  | 0, v, _ => v
  | n + 1, v, m => rounds n (round v m) (permutation.map fun i => m.getD i 0)

/-- A node that waits to be compressed, as an inner value or as the root. -/
structure Node where
  /-- The chaining value it takes in. -/
  chain : Array UInt32
  /-- Its block of sixteen words. -/
  block : Array UInt32
  /-- The number of its chunk, zero for an inner node. -/
  counter : Nat
  /-- The number of bytes in its block. -/
  size : Nat
  flags : UInt32

/-- The eight words that a node hands to its parent, under further flags. -/
def Node.compress (n : Node) (more : UInt32) : Array UInt32 :=
  let v := n.chain ++ initial.extract 0 4 ++
    #[UInt32.ofNat n.counter, UInt32.ofNat (n.counter / 0x100000000), UInt32.ofNat n.size,
      n.flags ||| more]
  let v := rounds 7 v n.block
  Array.ofFn fun i : Fin 8 => v.getD i 0 ^^^ v.getD (i + 8) 0

/-- The sixteen words at index `i`.  Bytes from `stop` on count as zero. -/
def wordsAt (input : Array UInt8) (i stop : Nat) : Array UInt32 :=
  let block := input.extract i (min stop (i + 64))
  Array.ofFn fun n : Fin 16 => le32 block (4 * n)

/-- The node of the chunk with number `k`. -/
def leaf (input : Array UInt8) (k : Nat) : Node :=
  let i := 1024 * k
  let stop := min input.size (i + 1024)
  let last := (stop - i - 1) / 64
  let chain := (List.range last).foldl
    (fun chain b =>
      (Node.mk chain (wordsAt input (i + 64 * b) stop) k 64
        (if b = 0 then chunkStart else 0)).compress 0)
    initial
  ⟨chain, wordsAt input (i + 64 * last) stop, k, stop - (i + 64 * last),
    (if last = 0 then chunkStart else 0) ||| chunkEnd⟩

/-- The greatest power of two below `n`, the number of chunks on the left of `n` chunks. -/
def leftCount (n : Nat) : Nat := Nat.pow 2 (n - 1).log2

/-- The node over `n` chunks, the first of them with number `k`. -/
def tree (input : Array UInt8) (k n : Nat) : Node :=
  if n ≤ 1 then leaf input k
  else if _h : 0 < leftCount n ∧ leftCount n < n then
    ⟨initial, (tree input k (leftCount n)).compress 0
      ++ (tree input (k + leftCount n) (n - leftCount n)).compress 0, 0, 64, parent⟩
  else leaf input k
termination_by n
decreasing_by
  · exact _h.2
  · exact Nat.sub_lt (Nat.lt_trans _h.1 _h.2) _h.1

/-- The digest of 32 bytes. -/
def blake3 (bytes : Bytes) : Bytes :=
  let input := bytes.toArray
  ((tree input 0 ((input.size - 1) / 1024 + 1)).compress root).toList.flatMap le32Bytes

end RdfIndex.Blake3
