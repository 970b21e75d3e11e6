import RdfIndex.Bytes.Basic
import RdfIndex.Text.Quoted
import RdfIndex.Text.Utf8

/-!
# Hexadecimal text

Two digits a byte.  `encode` writes lower case, `decode` reads both cases.  Reading goes by the
bytes of the text: an odd number of them is refused first, then the first byte that is no digit.
-/

namespace RdfIndex.Hex

/-- The digit of a number below sixteen. -/
def digit (n : Nat) : Char :=
  if n < 10 then Char.ofNat (0x30 + n) else Char.ofNat (0x57 + n)

/-- The value of a digit of either case, given as a byte. -/
def value? (b : UInt8) : Option UInt8 :=
  if 0x30 ≤ b ∧ b ≤ 0x39 then some (b - 0x30)
  else if 0x61 ≤ b ∧ b ≤ 0x66 then some (b - 0x57)
  else if 0x41 ≤ b ∧ b ≤ 0x46 then some (b - 0x37)
  else none

/-- Two lower-case digits for each byte. -/
def encodeChars (bytes : Bytes) : List Char :=
  bytes.flatMap fun b => [digit (b.toNat / 16), digit (b.toNat % 16)]

/-- Two lower-case digits for each byte. -/
def encode (bytes : Bytes) : String := String.ofList (encodeChars bytes)

/-- Why a text is not hexadecimal. -/
inductive Fault where
  /-- The number of bytes of the text is odd. -/
  | oddLength
  /-- The byte at a position is no digit. -/
  | invalidDigit (b : UInt8) (position : Nat)
deriving DecidableEq, Repr

/-- The wording of a fault. -/
def Fault.message : Fault → String
  | .oddLength => "Odd number of digits"
  | .invalidDigit b position =>
    s!"Invalid character {Quoted.character (Char.ofNat b.toNat)} at position {position}"

/-- Reads pairs of digits, the first of them at `position`.  A digit left over is odd. -/
def decodePairs (position : Nat) : Bytes → Except Fault Bytes
  | [] => .ok []
  | [_] => .error .oddLength
  | hi :: lo :: rest =>
    match value? hi, value? lo with
    | none, _ => .error (.invalidDigit hi position)
    | _, none => .error (.invalidDigit lo (position + 1))
    | some h, some l => (decodePairs (position + 2) rest).map ((h * 16 + l) :: ·)

/-- The bytes that a hexadecimal text writes. -/
def decode (s : String) : Except Fault Bytes :=
  let digits := Utf8.bytes s
  if digits.length % 2 = 1 then .error .oddLength else decodePairs 0 digits

/-- The number `n` in at least `width` digits. -/
def ofNat (width n : Nat) : String :=
  let digits := Nat.toDigits 16 n
  String.ofList (List.replicate (width - digits.length) '0' ++ digits)

end RdfIndex.Hex
