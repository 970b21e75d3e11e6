import RdfIndex.Digest.Word

/-!
# SipHash-2-4 of 128 bits

The key is zero.  Each word of eight bytes goes through two rounds.  The last word holds the bytes
left over and the length in its top byte.  Two times four rounds give the two halves.
-/

namespace RdfIndex.SipHash

open Word

/-- The four words of state. -/
structure State where
  v0 : UInt64
  v1 : UInt64
  v2 : UInt64
  v3 : UInt64

/-- The state at the start, for a result of 128 bits. -/
def start : State :=
  ⟨0x736f6d6570736575, 0x646f72616e646f6d ^^^ 0xee, 0x6c7967656e657261, 0x7465646279746573⟩

def round (s : State) : State :=
  let v0 := s.v0 + s.v1
  let v1 := rotl64 s.v1 13 ^^^ v0
  let v0 := rotl64 v0 32
  let v2 := s.v2 + s.v3
  let v3 := rotl64 s.v3 16 ^^^ v2
  let v0 := v0 + v3
  let v3 := rotl64 v3 21 ^^^ v0
  let v2 := v2 + v1
  let v1 := rotl64 v1 17 ^^^ v2
  ⟨v0, v1, rotl64 v2 32, v3⟩

/-- The state after one more word. -/
def absorb (s : State) (word : UInt64) : State :=
  let s := round (round { s with v3 := s.v3 ^^^ word })
  { s with v0 := s.v0 ^^^ word }

/-- The exclusive or of the state. -/
def State.fold (s : State) : UInt64 := s.v0 ^^^ s.v1 ^^^ s.v2 ^^^ s.v3

/-- The state after the last four rounds. -/
def finish (s : State) : State := round (round (round (round s)))

/-- The hash of a byte string, second half first, most significant byte first. -/
def hash128 (bytes : Bytes) : Bytes :=
  let input := bytes.toArray
  let whole := input.size / 8
  let s := (List.range whole).foldl (fun s n => absorb s (le64 input (8 * n))) start
  let s := absorb s (le64 input (8 * whole) ||| (UInt64.ofNat input.size <<< 56))
  let s1 := finish { s with v2 := s.v2 ^^^ 0xee }
  let s2 := finish { s1 with v1 := s1.v1 ^^^ 0xdd }
  be64Bytes s2.fold ++ be64Bytes s1.fold

end RdfIndex.SipHash
