import RdfIndex.Encoding.Tag

/-!
# Encoded values

An encoded value is a tag and a payload.  The payload has no length of its own: it ends where the
region ends that holds the value.
-/

namespace RdfIndex

/-- An encoded value. -/
structure Encoded where
  tag : Tag
  /-- What follows the tag. -/
  payload : Bytes
deriving DecidableEq, Repr

namespace Encoded

/-- The bytes of an encoded value. -/
def bytes (e : Encoded) : Bytes := e.tag.byte :: e.payload

/-- The number of bytes of an encoded value. -/
def size (e : Encoded) : Nat := e.payload.length + 1

/-- The encoded value of some bytes.  Of the bytes only the tag is checked. -/
def ofBytes : Bytes → Except DecodeError Encoded
  | [] => .error .emptyValue
  | b :: payload => (Tag.ofByte b).map fun tag => ⟨tag, payload⟩

/-- How an encoded value is shown. -/
def display (e : Encoded) : String := s!"EncodedForm({e.tag.name} {Hex.encode e.payload})"

theorem ofBytes_bytes (e : Encoded) : ofBytes e.bytes = .ok e := by
  simp [ofBytes, bytes, Tag.ofByte, Tag.ofByte?_byte, Except.map]

end Encoded

end RdfIndex
