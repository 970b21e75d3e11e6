import RdfIndex.Bytes.Varint

/-!
# Reading a region of bytes

A cursor is a place in a byte string: the number of bytes before it and the bytes after it.  A read
gives its result and the cursor after it.  A read that fails leaves the cursor where the reading
stopped: taking bytes moves all or nothing, a number moves over the bytes that were looked at.

Positions are below `positionLimit`, and a read whose end is not is refused as such.
-/

namespace RdfIndex

/-- Positions are below this number. -/
def positionLimit : Nat := 0x10000000000000000

/-- A place in a byte string. -/
structure Cursor where
  /-- The number of bytes before it. -/
  offset : Nat
  /-- The bytes after it. -/
  rest : Bytes
deriving DecidableEq, Repr

/-- A read: its result, and the cursor after it. -/
def Reader (α : Type) := Cursor → Except DecodeError α × Cursor

namespace Cursor

/-- The cursor at the start of a byte string. -/
def start (bytes : Bytes) : Cursor := ⟨0, bytes⟩

/-- The cursor at a position that is not beyond the end. -/
def at? (bytes : Bytes) (position : Nat) : Except DecodeError Cursor :=
  if bytes.length < position then .error (.positionBeyond position bytes.length)
  else .ok ⟨position, bytes.drop position⟩

/-- How a cursor is shown. -/
def display (c : Cursor) : String :=
  s!"Cursor \x7b off: {c.offset}, remaining: {c.rest.length} \x7d"

end Cursor

namespace Reader

/-- Reads nothing. -/
def pure {α : Type} (a : α) : Reader α := fun c => (.ok a, c)

/-- Reads, then reads on as the result says.  A failure stays. -/
def bind {α β : Type} (r : Reader α) (f : α → Reader β) : Reader β := fun c =>
  match r c with
  | (.ok a, c) => f a c
  | (.error e, c) => (.error e, c)

instance : Monad Reader where
  pure := Reader.pure
  bind := Reader.bind

/-- Fails where it stands. -/
def fail {α : Type} (e : DecodeError) : Reader α := fun c => (.error e, c)

/-- Takes some bytes. -/
def take (count : Nat) : Reader Bytes := fun c =>
  if positionLimit ≤ c.offset + count then (.error .positionOverflow, c)
  else if c.rest.length < count then (.error (.truncated count c.rest.length), c)
  else (.ok (c.rest.take count), ⟨c.offset + count, c.rest.drop count⟩)

/-- Takes all bytes that are left. -/
def rest : Reader Bytes := fun c => (.ok c.rest, ⟨c.offset + c.rest.length, []⟩)

/-- A natural number of fixed width. -/
def word (width : Nat) : Reader Nat := do return Bytes.ofBigEndian (← take width)

/-- A signed number of fixed width. -/
def int (width : Nat) : Reader Int := do return Bytes.toInt (← take width)

/-- A natural number of variable length. -/
def varint : Reader Nat := fun c =>
  let read := Varint.decode c.rest
  (read.1, ⟨c.offset + (c.rest.length - read.2.length), read.2⟩)

/-- A signed number of variable length. -/
def varintInt : Reader Int := do return Varint.unfold (← varint)

/-- A length and that many bytes. -/
def withLength : Reader Bytes := do take (← varint)

/-- The result of a check, which moves nothing. -/
def check {α : Type} (result : Except DecodeError α) : Reader α := fun c => (result, c)

def textOf (bytes : Bytes) : Except DecodeError String := (Utf8.text bytes).mapError .text

/-- The text of the bytes that are left. -/
def text : Reader String := do check (textOf (← rest))

/-! ## What a read leaves -/

/-- A number leaves no more than it was given. -/
theorem length_decodeFrom_le (index : Nat) (bytes : Bytes) :
    (Varint.decodeFrom index bytes).2.length ≤ bytes.length := by
  fun_induction Varint.decodeFrom index bytes <;> simp_all <;> omega

/-- A number that is read leaves less than it was given. -/
theorem length_of_decodeFrom_ok {index n : Nat} {bytes rest : Bytes}
    (h : Varint.decodeFrom index bytes = (.ok n, rest)) : rest.length < bytes.length := by
  cases bytes with
  | nil => simp [Varint.decodeFrom] at h
  | cons b bytes =>
    have hle := length_decodeFrom_le (index + 1) bytes
    unfold Varint.decodeFrom at h
    split at h
    · simp at h
    split at h
    · simp at h
    split at h
    · simp only [Prod.mk.injEq] at h
      simp [← h.2]
    split at h
    · next m r hr =>
      rw [hr] at hle
      simp only [Prod.mk.injEq] at h
      rw [← h.2]
      exact Nat.lt_succ_of_le hle
    · simp at h

/-- Bytes with their length leave less than was given, the bytes included. -/
theorem length_of_withLength {c c' : Cursor} {bytes : Bytes} (h : withLength c = (.ok bytes, c')) :
    bytes.length + c'.rest.length < c.rest.length := by
  unfold withLength at h
  simp only [Bind.bind, bind, varint] at h
  split at h
  · next n c1 hv =>
    simp only [Prod.mk.injEq] at hv
    have hlt := length_of_decodeFrom_ok (Prod.ext hv.1 rfl : Varint.decode c.rest = (.ok n, _))
    rw [← hv.2] at h
    simp only [take] at h
    split at h
    · simp at h
    split at h
    · simp at h
    · next hn =>
      simp only [Prod.mk.injEq, Except.ok.injEq] at h
      rw [← h.1, ← h.2]
      simp only [List.length_take, List.length_drop]
      have hn : ¬ (Varint.decode c.rest).2.length < n := hn
      have hlt : (Varint.decode c.rest).2.length < c.rest.length := hlt
      omega
  · simp at h

end Reader

end RdfIndex
