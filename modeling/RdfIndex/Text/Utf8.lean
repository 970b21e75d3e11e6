import RdfIndex.Bytes.Basic

/-!
# UTF-8

`encode` writes characters in one to four bytes.  `decode` accepts well-formed sequences only and
otherwise says where and how the text goes wrong.  The first byte of a character fixes how many
bytes follow and the range of the second one:

* `00..7F` stands alone,
* `C2..DF` has one continuation byte,
* `E0..EF` has two, the first of them in `A0..BF` after `E0` and in `80..9F` after `ED`,
* `F0..F4` has three, the first of them in `90..BF` after `F0` and in `80..8F` after `F4`.

Any other first byte is invalid.  A fault names the index at which the ill-formed sequence starts
and the number of bytes that belong to it.  A text that ends inside a sequence is incomplete.
-/

namespace RdfIndex.Utf8

/-- Why a byte string is no UTF-8 text. -/
inductive Fault where
  /-- The `length` bytes from `index` on start no character. -/
  | invalid (length index : Nat)
  /-- The text ends inside the character that starts at `index`. -/
  | incomplete (index : Nat)
deriving DecidableEq, Repr

/-- The wording of a fault. -/
def Fault.message : Fault → String
  | .invalid length index =>
    s!"invalid utf-8 sequence of {length} bytes from index {index}"
  | .incomplete index => s!"incomplete utf-8 byte sequence from index {index}"

def encodeChar (c : Char) : Bytes :=
  let n := c.toNat
  if n < 0x80 then [UInt8.ofNat n]
  else if n < 0x800 then [UInt8.ofNat (0xC0 + n / 0x40), UInt8.ofNat (0x80 + n % 0x40)]
  else if n < 0x10000 then
    [UInt8.ofNat (0xE0 + n / 0x1000), UInt8.ofNat (0x80 + n / 0x40 % 0x40),
      UInt8.ofNat (0x80 + n % 0x40)]
  else
    [UInt8.ofNat (0xF0 + n / 0x40000), UInt8.ofNat (0x80 + n / 0x1000 % 0x40),
      UInt8.ofNat (0x80 + n / 0x40 % 0x40), UInt8.ofNat (0x80 + n % 0x40)]

def encode (cs : List Char) : Bytes := cs.flatMap encodeChar

def bytes (s : String) : Bytes := encode s.toList

/-- The number of bytes of one character. -/
def charSize (c : Char) : Nat :=
  let n := c.toNat
  if n < 0x80 then 1 else if n < 0x800 then 2 else if n < 0x10000 then 3 else 4

/-- The number of bytes of a list of characters. -/
def size (cs : List Char) : Nat := cs.foldl (fun n c => n + charSize c) 0

/-- The characters from byte `index` on, or nothing if that byte is inside a character or beyond the
end. -/
def charsFrom? : Nat → List Char → Option (List Char)
  | 0, cs => some cs
  | _ + 1, [] => none
  | index, c :: cs => if charSize c ≤ index then charsFrom? (index - charSize c) cs else none

/-- A continuation byte. -/
def isTail (b : UInt8) : Bool := 0x80 ≤ b && b ≤ 0xBF

/-- The second byte `b` may follow the first byte `a` of a character of three bytes. -/
def secondOfThree (a b : UInt8) : Bool :=
  if a = 0xE0 then 0xA0 ≤ b && b ≤ 0xBF
  else if a = 0xED then 0x80 ≤ b && b ≤ 0x9F
  else isTail b

/-- The second byte `b` may follow the first byte `a` of a character of four bytes. -/
def secondOfFour (a b : UInt8) : Bool :=
  if a = 0xF0 then 0x90 ≤ b && b ≤ 0xBF
  else if a = 0xF4 then 0x80 ≤ b && b ≤ 0x8F
  else isTail b

/-- The character of two bytes. -/
def charOfTwo (a b : UInt8) : Char :=
  Char.ofNat ((a.toNat - 0xC0) * 0x40 + (b.toNat - 0x80))

/-- The character of three bytes. -/
def charOfThree (a b c : UInt8) : Char :=
  Char.ofNat (((a.toNat - 0xE0) * 0x40 + (b.toNat - 0x80)) * 0x40 + (c.toNat - 0x80))

/-- The character of four bytes. -/
def charOfFour (a b c d : UInt8) : Char :=
  Char.ofNat ((((a.toNat - 0xF0) * 0x40 + (b.toNat - 0x80)) * 0x40 + (c.toNat - 0x80)) * 0x40
    + (d.toNat - 0x80))

/-- Reads characters from index `i` on.  `done` holds the characters before, last one first. -/
def decodeFrom (i : Nat) (done : List Char) : Bytes → Except Fault (List Char)
  | [] => .ok done.reverse
  | a :: rest =>
    if a < 0x80 then decodeFrom (i + 1) (Char.ofNat a.toNat :: done) rest
    else if 0xC2 ≤ a ∧ a ≤ 0xDF then
      match rest with
      | [] => .error (.incomplete i)
      | b :: rest =>
        if isTail b then decodeFrom (i + 2) (charOfTwo a b :: done) rest
        else .error (.invalid 1 i)
    else if 0xE0 ≤ a ∧ a ≤ 0xEF then
      match rest with
      | [] => .error (.incomplete i)
      | b :: rest =>
        if secondOfThree a b then
          match rest with
          | [] => .error (.incomplete i)
          | c :: rest =>
            if isTail c then decodeFrom (i + 3) (charOfThree a b c :: done) rest
            else .error (.invalid 2 i)
        else .error (.invalid 1 i)
    else if 0xF0 ≤ a ∧ a ≤ 0xF4 then
      match rest with
      | [] => .error (.incomplete i)
      | b :: rest =>
        if secondOfFour a b then
          match rest with
          | [] => .error (.incomplete i)
          | c :: rest =>
            if isTail c then
              match rest with
              | [] => .error (.incomplete i)
              | d :: rest =>
                if isTail d then decodeFrom (i + 4) (charOfFour a b c d :: done) rest
                else .error (.invalid 3 i)
            else .error (.invalid 2 i)
        else .error (.invalid 1 i)
    else .error (.invalid 1 i)

/-- The characters of a byte string. -/
def decode (bytes : Bytes) : Except Fault (List Char) := decodeFrom 0 [] bytes

def text (bytes : Bytes) : Except Fault String := (decode bytes).map String.ofList

end RdfIndex.Utf8
