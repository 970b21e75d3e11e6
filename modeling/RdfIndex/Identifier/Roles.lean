import RdfIndex.Encoding.Tag

/-!
# What an identifier tells about its value

An identifier starts with a descriptor of four bits: two for the kind of the value, one for strings,
one for numbers.  The descriptor is the upper half of the first byte, whose lower half stays, or the
whole of it.
-/

namespace RdfIndex

/-- What an identifier tells about its value. -/
structure Roles where
  /-- The kind of the value. -/
  kind : Kind
  /-- A plain string or one with a language. -/
  string : Bool
  /-- A number that is stored as such. -/
  numeric : Bool
deriving DecidableEq, Repr

namespace Roles

/-- What a tag tells about the value after it. -/
def ofTagByte (b : UInt8) : Roles := ⟨Tag.kindOfByte b, Tag.isStringByte b, Tag.isNumericByte b⟩

def kindNumber : Kind → Nat
  | .iri => 0
  | .literal => 1
  | .blank => 2
  | .triple => 3

def kindOfNumber : Nat → Kind
  | 0 => .iri
  | 1 => .literal
  | 2 => .blank
  | _ => .triple

/-- The descriptor, a number below sixteen. -/
def descriptor (r : Roles) : Nat := kindNumber r.kind * 4 + r.string.toNat * 2 + r.numeric.toNat

/-- What a descriptor says.  Only the last four bits of the number count. -/
def ofDescriptor (d : Nat) : Roles := ⟨kindOfNumber (d / 4 % 4), d / 2 % 2 == 1, d % 2 == 1⟩

theorem ofDescriptor_descriptor (r : Roles) : ofDescriptor r.descriptor = r := by
  obtain ⟨kind, string, numeric⟩ := r
  cases kind <;> cases string <;> cases numeric <;> rfl

theorem descriptor_lt (r : Roles) : r.descriptor < 16 := by
  obtain ⟨kind, string, numeric⟩ := r
  cases kind <;> cases string <;> cases numeric <;> decide

/-- The first byte of an identifier with the descriptor in its upper half or in all of it. -/
def packByte (nibble : Bool) (r : Roles) (first : UInt8) : UInt8 :=
  if nibble then UInt8.ofNat (r.descriptor * 16 + first.toNat % 16) else UInt8.ofNat r.descriptor

/-- What the first byte of an identifier says. -/
def unpackByte (nibble : Bool) (first : UInt8) : Roles :=
  ofDescriptor (if nibble then first.toNat / 16 else first.toNat % 16)

/-- Some bytes with the descriptor in the first of them. -/
def pack (nibble : Bool) (r : Roles) : Bytes → Bytes
  | [] => []
  | first :: rest => r.packByte nibble first :: rest

/-- What the first of some bytes says.  Without a first byte it counts as zero. -/
def unpack (nibble : Bool) (bytes : Bytes) : Roles := unpackByte nibble (bytes.headD 0)

end Roles

end RdfIndex
