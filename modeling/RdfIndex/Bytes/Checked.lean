import RdfIndex.Bytes.Cursor
import RdfIndex.Error
import RdfIndex.Number.Integer

/-!
# Reading with the numbers of a machine

A reader counts with numbers of any size and holds the bytes that are left, so that nothing it does
can go astray.  A checked read is what a machine does.  It holds the whole region and an offset in
it, shifts and adds words of a fixed width, and takes bytes by their index and slices by their ends.
Each of these steps stops the program where its result has no place.

* `Machine`: the steps that can stop, over numbers and lists.
* `Checked`: reads that are made of such steps.
-/

namespace RdfIndex

/-- Why a program stops without a result. -/
inductive Stop where
  /-- An operation reports an error. -/
  | failed (e : Error)
  /-- A number leaves the range of its type. -/
  | overflow
  /-- A byte or a slice lies outside its list. -/
  | outOfBounds
  /-- A region holds a region that is not shorter. -/
  | endless
deriving DecidableEq

/-- Bytes that cannot be read stop the program with that error. -/
def Stop.ofDecode {α : Type} (result : Except DecodeError α) : Except Stop α :=
  result.mapError fun e => .failed (.decode e)

/-! ## Steps that can stop -/

namespace Machine

/-- A number without a sign in `width` bytes. -/
def unsigned (width n : Nat) : Except Stop Nat :=
  if n < Nat.pow 256 width then .ok n else .error .overflow

/-- A number with a sign in `width` bytes. -/
def signed (width : Nat) (i : Int) : Except Stop Int :=
  if Integer.fits width i then .ok i else .error .overflow

/-- A difference without a sign. -/
def difference (a b : Nat) : Except Stop Nat := if b ≤ a then .ok (a - b) else .error .overflow

/-- A remainder.  There is none of a division by zero. -/
def remainder (a b : Nat) : Except Stop Nat := if b = 0 then .error .overflow else .ok (a % b)

/-- The sum of some numbers without a sign in `width` bytes. -/
def sum (width : Nat) (ns : List Nat) : Except Stop Nat :=
  ns.foldlM (fun sum n => unsigned width (sum + n)) 0

/-- A word moved to the left.  What is moved beyond its end is lost. -/
def shiftLeft (word : UInt64) (places : Nat) : Except Stop UInt64 :=
  if places < 64 then .ok (word <<< UInt64.ofNat places) else .error .overflow

/-- A word with a sign, negated.  The least word has no negative. -/
def negate (i : Int64) : Except Stop Int64 :=
  if i = Int64.minValue then .error .overflow else .ok (-i)

def byteAt (bytes : Bytes) (index : Nat) : Except Stop UInt8 :=
  match bytes[index]? with
  | some b => .ok b
  | none => .error .outOfBounds

/-- The members of a list from one index to before another. -/
def slice {α : Type} (as : List α) (start stop : Nat) : Except Stop (List α) :=
  if start ≤ stop ∧ stop ≤ as.length then .ok ((as.take stop).drop start) else .error .outOfBounds

/-- A list rotated to the right by some places, which must not be more than it has members. -/
def rotateRight {α : Type} (as : List α) (places : Nat) : Except Stop (List α) := do
  if as.length < places then throw .outOfBounds
  let split := as.length - places
  return (← slice as split as.length) ++ (← slice as 0 split)

end Machine

/-- A read in a region from an offset: its result, and the offset after it. -/
def Checked (α : Type) := Bytes → Nat → Except Stop (α × Nat)

namespace Checked

variable {α β : Type}

def pure (a : α) : Checked α := fun _ offset => .ok (a, offset)

/-- Reads, then reads on as the result says. -/
def bind (r : Checked α) (f : α → Checked β) : Checked β := fun region offset =>
  match r region offset with
  | .ok (a, offset) => f a region offset
  | .error stop => .error stop

instance : Monad Checked where
  pure := Checked.pure
  bind := Checked.bind

/-- A step that moves nothing. -/
def step (result : Except Stop α) : Checked α := fun _ offset => result.map fun a => (a, offset)

/-- A check that moves nothing. -/
def check (result : Except DecodeError α) : Checked α := step (Stop.ofDecode result)

def fail (e : DecodeError) : Checked α := check (.error e)

/-- A looked-up entry, or the error that there is none. -/
def found (entry : Option α) (missing : DecodeError) : Checked α :=
  match entry with
  | some a => pure a
  | none => fail missing

/-! ## Bytes -/

/-- Takes some bytes.  An end beyond all positions is reported and does not overflow. -/
def take (count : Nat) : Checked Bytes := fun region offset => do
  let stop := offset + count
  if positionLimit ≤ stop then throw (.failed (.decode .positionOverflow))
  if region.length < stop then
    throw (.failed (.decode (.truncated count (region.length - offset))))
  return (← Machine.slice region offset stop, stop)

/-- Takes all bytes that are left. -/
def rest : Checked Bytes := fun region offset => do
  return (← Machine.slice region offset region.length, region.length)

def byte : Checked Nat := do return (← step (Machine.byteAt (← take 1) 0)).toNat

/-- Copies bytes into an array, which must be as long as what is copied. -/
def array (width : Nat) : Checked Bytes := do
  let bytes ← take width
  step (if bytes.length = width then .ok bytes else .error .outOfBounds)

/-! ## Numbers -/

/-- A natural number of fixed width. -/
def word (width : Nat) : Checked Nat := do return Bytes.ofBigEndian (← array width)

/-- A signed number of fixed width. -/
def int (width : Nat) : Checked Int := do return Bytes.toInt (← array width)

/-- Reads a number of variable length from its byte with the given index on, in so many rounds at
the most.  The groups before it are in `word`. -/
def varintFrom : Nat → Nat → UInt64 → Bytes → Nat → Except Stop (UInt64 × Nat)
  | 0, _, _, _, _ => .error (.failed (.decode .numberTooLong))
  | rounds + 1, index, word, region, offset =>
    match region[offset]? with
    | none => .error (.failed (.decode (.numberTruncated index)))
    | some b => do
      let offset ← Machine.unsigned 8 (offset + 1)
      let group := (b &&& 0x7F).toUInt64
      if index = 9 ∧ 1 < group then .error (.failed (.decode .numberOverflow))
      else
        let word := word ||| (← Machine.shiftLeft group (7 * index))
        if b &&& 0x80 = 0 then .ok (word, offset)
        else varintFrom rounds (index + 1) word region offset

/-- A word of variable length. -/
def varintWord : Checked UInt64 := varintFrom 10 0 0

/-- A natural number of variable length. -/
def varint : Checked Nat := do return (← varintWord).toNat

/-- The signed number that is folded to a word: its last bit says whether the others are
inverted. -/
def unfold (word : UInt64) : Except Stop Int64 := do
  return (word >>> 1).toInt64 ^^^ (← Machine.negate (word &&& 1).toInt64)

/-- A signed number of variable length. -/
def varintInt : Checked Int := do return (← step (unfold (← varintWord))).toInt

/-- A length and that many bytes. -/
def withLength : Checked Bytes := do take (← varint)

/-- The text of the bytes that are left. -/
def text : Checked String := do check (Reader.textOf (← rest))

end Checked

end RdfIndex
