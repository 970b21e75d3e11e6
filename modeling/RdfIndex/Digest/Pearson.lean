import RdfIndex.Bytes.Basic

/-!
# A sixteen-bit hash of two lanes

A table of all 256 bytes, shuffled once and for all, carries a lane of eight bits over a byte
string: each step looks up the exclusive or of the lane and the next byte.  `hash16` joins a lane
that walks forwards with one that walks backwards.  The table belongs to the stored format.
-/

namespace RdfIndex.Pearson

/-- One step of the generator behind the shuffle: three shifted exclusive ors of 32 bits. -/
def nextState (s : UInt32) : UInt32 :=
  let s := s ^^^ (s <<< 13)
  let s := s ^^^ (s >>> 17)
  s ^^^ (s <<< 5)

/-- Swaps each position from `i` down to one with a drawn position that is not above it. -/
def shuffle : Nat → UInt32 → Vector UInt8 256 → Vector UInt8 256
  | 0, _, table => table
  | i + 1, s, table =>
    let s := nextState s
    shuffle i s (table.swapIfInBounds (i + 1) (s.toNat % (i + 2)))

/-- The state that the shuffle starts from. -/
def seed : UInt32 := 0x9E3779B9

/-- The shuffled bytes. -/
def table : Vector UInt8 256 := shuffle 255 seed (Vector.ofFn fun i : Fin 256 => UInt8.ofNat i)

/-- The lane after one more byte. -/
def step (lane b : UInt8) : UInt8 := table.get (lane ^^^ b).toFin

/-- The lane over a byte string. -/
def lane (bytes : Bytes) : UInt8 := bytes.foldl step 0

/-- The forward lane in the high byte, the backward lane in the low byte. -/
def hash16 (bytes : Bytes) : UInt16 :=
  ((lane bytes).toUInt16 <<< 8) ||| (lane bytes.reverse).toUInt16

end RdfIndex.Pearson
