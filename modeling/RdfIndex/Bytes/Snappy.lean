import RdfIndex.Bytes.Varint
import RdfIndex.Digest.Word

/-!
# Snappy blocks

A compressed text is the length of the text, then elements: literal bytes, or a copy of bytes that
were written before.  A copy goes back some bytes from the end of what is written and may overlap
what it writes.

`compress` cuts the text into blocks of 65536 bytes and looks in each for repeated runs of four
bytes through a table of hashes.  What it finds it extends as far as it goes.  The steps between
tries grow while nothing is found.

`decompress` refuses an element that reads or writes beyond an end, a copy from before the start,
and a text whose length differs from the one that was announced.
-/

namespace RdfIndex.Snappy

open Word

/-- An element of a compressed text. -/
inductive Element where
  /-- Bytes as they are. -/
  | literal (bytes : Bytes)
  /-- Bytes that were written before, `offset` bytes back from the end. -/
  | copy (offset length : Nat)
deriving DecidableEq, Repr

/-! ## Writing elements -/

def literalTag (length : Nat) : Bytes :=
  let n := length - 1
  if n ≤ 59 then [UInt8.ofNat (n * 4)]
  else if n < 256 then [60 * 4, UInt8.ofNat n]
  else [61 * 4, UInt8.ofNat (n % 256), UInt8.ofNat (n / 256)]

/-- A copy with an offset of two bytes. -/
def longCopy (offset length : Nat) : Bytes :=
  [UInt8.ofNat ((length - 1) * 4 + 2), UInt8.ofNat (offset % 256), UInt8.ofNat (offset / 256)]

/-- A copy of at most 64 bytes, in two bytes if it is short and near. -/
def lastCopy (offset length : Nat) : Bytes :=
  if length ≤ 11 ∧ offset ≤ 2047 then
    [UInt8.ofNat (offset / 256 * 32 + (length - 4) * 4 + 1), UInt8.ofNat (offset % 256)]
  else longCopy offset length

/-- A copy in parts of 64 bytes.  The last part keeps at least four bytes. -/
def copyBytes (offset length : Nat) : Bytes :=
  if 68 ≤ length then longCopy offset 64 ++ copyBytes offset (length - 64)
  else if 64 < length then longCopy offset 60 ++ lastCopy offset (length - 60)
  else lastCopy offset length
termination_by length

def Element.bytes : Element → Bytes
  | .literal bytes => literalTag bytes.length ++ bytes
  | .copy offset length => copyBytes offset length

/-! ## Finding copies -/

/-- The text of a block is compressed from this length on. -/
def minBlock : Nat := 17

/-- The longest block. -/
def maxBlock : Nat := 65536

/-- Doubles a size from the given one on until it is enough for a length or at its maximum. -/
def tableSizeFrom (length : Nat) : Nat → Nat → Nat
  | 0, size => size
  | fuel + 1, size =>
    if size < 16384 ∧ size < length then tableSizeFrom length fuel (size * 2) else size

/-- The size of the table for a block. -/
def tableSize (length : Nat) : Nat := tableSizeFrom length 6 256

/-- The hash of the four bytes at an index, for a table of `2 ^ bits` entries. -/
def hashAt (block : Array UInt8) (bits i : Nat) : Nat :=
  ((le32 block i * 0x1E35A7BD) >>> UInt32.ofNat (32 - bits)).toNat

/-- The four bytes at two indexes agree, the first of them before the second. -/
def agrees (block : Array UInt8) (candidate i : Nat) : Bool :=
  candidate < i && le32 block candidate == le32 block i

/-- The number of equal bytes from two indexes on, up to the end of the block. -/
def commonLength (block : Array UInt8) (candidate i : Nat) : Nat :=
  if i < block.size then
    if byteAt block candidate == byteAt block i then commonLength block (candidate + 1) (i + 1) + 1
    else 0
  else 0
termination_by block.size - i

/-- The state of the search in a block. -/
structure Search where
  /-- The last index at which each hash was seen. -/
  table : Array Nat
  /-- The hash of the next index to try. -/
  nextHash : Nat
  /-- The next index to try. -/
  next : Nat
  /-- The start of the bytes that are not written yet. -/
  pending : Nat

/-- The last index from which a search goes on. -/
def searchLimit (block : Array UInt8) : Nat := block.size - 15

/-- Goes on to the next index whose four bytes were seen before.  Every thirty-two tries the step
grows by one.  Gives the index, the earlier one and the search after it. -/
def find (block : Array UInt8) (bits : Nat) : Nat → Nat → Search → Option (Nat × Nat × Search)
  | 0, _, _ => none
  | fuel + 1, skip, s =>
    let step := skip / 32
    let i := s.next
    let next := i + step
    if searchLimit block < next then none
    else
      let candidate := s.table.getD s.nextHash 0
      let s : Search :=
        { s with
          table := s.table.setIfInBounds s.nextHash i
          nextHash := hashAt block bits next
          next := next }
      if agrees block candidate i then some (i, candidate, s)
      else find block bits fuel (skip + step) s

/-- The bytes from `start` to `stop` as a literal, if there are any. -/
def literalOf (block : Array UInt8) (start stop : Nat) : List Element :=
  if start < stop then [.literal (block.extract start stop).toList] else []

/-- Writes copies from index `i` on as long as one follows another, and gives the search after
them, or nothing when the block ends. -/
def copies (block : Array UInt8) (bits : Nat) :
    Nat → Nat → Nat → Search → List Element × Nat × Option Search
  | 0, i, _, _ => ([], i, none)
  | fuel + 1, i, candidate, s =>
    let length := 4 + commonLength block (candidate + 4) (i + 4)
    let stop := i + length
    let element := Element.copy (i - candidate) length
    if searchLimit block ≤ stop then ([element], stop, none)
    else
      let table := s.table.setIfInBounds (hashAt block bits (stop - 1)) (stop - 1)
      let hash := hashAt block bits stop
      let again := table.getD hash 0
      let table := table.setIfInBounds hash stop
      if agrees block again stop then
        let (more, stop, s) := copies block bits fuel stop again { s with table := table }
        (element :: more, stop, s)
      else
        ([element], stop, some ⟨table, hashAt block bits (stop + 1), stop + 1, stop⟩)

/-- The elements of a block from a state of the search on. -/
def elementsFrom (block : Array UInt8) (bits : Nat) : Nat → Search → List Element
  | 0, s => literalOf block s.pending block.size
  | fuel + 1, s =>
    match find block bits block.size 32 s with
    | none => literalOf block s.pending block.size
    | some (i, candidate, found) =>
      let before := literalOf block s.pending i
      match copies block bits block.size i candidate found with
      | (run, stop, none) => before ++ run ++ literalOf block stop block.size
      | (run, _, some s) => before ++ run ++ elementsFrom block bits fuel s

def elements (block : Array UInt8) : List Element :=
  if block.size < minBlock then literalOf block 0 block.size
  else
    let size := tableSize block.size
    let bits := size.log2
    elementsFrom block bits block.size ⟨Array.replicate size 0, hashAt block bits 1, 1, 0⟩

/-! ## Compression -/

/-- The elements of all blocks of a text, the first of them at an index. -/
def blocks (text : Array UInt8) : Nat → Nat → List Element
  | 0, _ => []
  | count + 1, i => elements (text.extract i (i + maxBlock)) ++ blocks text count (i + maxBlock)

/-- The greatest length that is announced. -/
def maxLength : Nat := 0xFFFFFFFF

/-- A text can be compressed when even its worst compressed form is not too long. -/
def canCompress (length : Nat) : Bool := 32 + length + length / 6 ≤ maxLength

/-- The compressed form of a text. -/
def compress (text : Bytes) : Bytes :=
  let input := text.toArray
  Varint.encode text.length
    ++ (blocks input ((text.length + maxBlock - 1) / maxBlock) 0).flatMap Element.bytes

/-! ## Decompression -/

/-- The most bytes that the announced length takes. -/
def lengthBytes : Nat := 5

/-- Reads the announced length. -/
def readLength? (bytes : Bytes) : Option (Nat × Bytes) :=
  match Varint.decode bytes with
  | (.ok n, rest) =>
    if n ≤ maxLength ∧ bytes.length ≤ rest.length + lengthBytes then some (n, rest) else none
  | (.error _, _) => none

/-- The number of some bytes, least significant first. -/
def littleEndian (bytes : Bytes) : Nat := Bytes.ofBigEndian bytes.reverse

/-- The first bytes, if there are so many, and what follows them. -/
def split? (count : Nat) (bytes : Bytes) : Option (Bytes × Bytes) :=
  if (bytes.take count).length = count then some (bytes.take count, bytes.drop count) else none

/-- Reads the length of a literal, given the upper six bits of its tag.  The greatest four of them
stand for a length of one to four bytes.  That may be any length, also one that the tag has room
for, and no more than its bytes and the literal need to follow the tag. -/
def readLiteralLength? (high : Nat) (bytes : Bytes) : Option (Nat × Bytes) :=
  if high < 60 then some (high + 1, bytes)
  else (split? (high - 59) bytes).map fun (field, rest) => (littleEndian field + 1, rest)

/-- Reads an element with its tag, and gives what is left. -/
def readElement? : Bytes → Option (Element × Bytes)
  | [] => none
  | tag :: rest =>
    let high := tag.toNat / 4
    match tag.toNat % 4 with
    | 0 => do
      let (length, rest) ← readLiteralLength? high rest
      let (bytes, rest) ← split? length rest
      return (.literal bytes, rest)
    | 1 => do
      let (low, rest) ← split? 1 rest
      return (.copy (tag.toNat / 32 * 256 + littleEndian low) (4 + high % 8), rest)
    | 2 => do
      let (offset, rest) ← split? 2 rest
      return (.copy (littleEndian offset) (high + 1), rest)
    | _ => do
      let (offset, rest) ← split? 4 rest
      return (.copy (littleEndian offset) (high + 1), rest)

/-- Writes bytes one at a time, each the one `offset` bytes back. -/
def copyBack (offset : Nat) : Nat → Array UInt8 → Array UInt8
  | 0, out => out
  | count + 1, out => copyBack offset count (out.push (byteAt out (out.size - offset)))

/-- The output after one more element, within the announced length. -/
def Element.apply? (limit : Nat) (out : Array UInt8) : Element → Option (Array UInt8)
  | .literal bytes => if limit < out.size + bytes.length then none else some (out ++ bytes.toArray)
  | .copy offset length =>
    if offset = 0 ∨ out.size < offset ∨ limit < out.size + length then none
    else some (copyBack offset length out)

/-- The output after all elements that the bytes hold. -/
def expand? (limit : Nat) : Nat → Bytes → Array UInt8 → Option (Array UInt8)
  | _, [], out => some out
  | 0, _ :: _, _ => none
  | fuel + 1, bytes, out => do
    let (element, rest) ← readElement? bytes
    expand? limit fuel rest (← element.apply? limit out)

/-- The text of a compressed form. -/
def decompress (bytes : Bytes) : Option Bytes := do
  let (length, rest) ← readLength? bytes
  let out ← expand? length rest.length rest #[]
  if out.size = length then some out.toList else none

/-- A literal of one byte, whose length has a byte of its own. -/
example : decompress [1, 0xF0, 0, 0x61] = some [0x61] := by decide

end RdfIndex.Snappy
