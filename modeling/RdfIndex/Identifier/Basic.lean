import RdfIndex.Digest.Truncated
import RdfIndex.Encoding.Value
import RdfIndex.Identifier.Roles

/-!
# Identifiers

The identifier of a value is a truncated digest of its encoded form, with a descriptor of the value
at its start.  An identifier can be put into an IRI, and read back from there without the value.
-/

namespace RdfIndex

/-- An identifier. -/
structure Identifier where
  bytes : Bytes
deriving DecidableEq, Repr

namespace Identifier

/-- The bytes in hexadecimal. -/
def hex (id : Identifier) : String := Hex.encode id.bytes

/-- How an identifier is shown. -/
def display (id : Identifier) : String := s!"Identifier({id.hex})"

end Identifier

/-- How identifiers are derived. -/
structure IdentifierConfig where
  /-- The digest algorithm. -/
  algorithm : Algorithm
  /-- The number of bytes of an identifier. -/
  size : Nat
  /-- The descriptor takes the upper half of the first byte, not all of it. -/
  nibble : Bool
  /-- An identifier has at least one byte. -/
  size_pos : 0 < size
  /-- A digest has as many bytes. -/
  size_le : size ≤ algorithm.digestSize

namespace IdentifierConfig

/-- The configuration with the given parts, if they fit together. -/
def of (algorithm : Algorithm) (size : Nat) (nibble : Bool) : Except ConfigError IdentifierConfig :=
  if hpos : 0 < size then
    if hle : size ≤ algorithm.digestSize then .ok ⟨algorithm, size, nibble, hpos, hle⟩
    else .error (.identifierTooWide algorithm size)
  else .error .identifierEmpty

/-- The configuration that is used unless another one is chosen. -/
def standard : IdentifierConfig := ⟨.xxh3, 10, true, by decide, by decide⟩

def digest (config : IdentifierConfig) : TruncatedDigest :=
  ⟨config.algorithm, config.size, config.size_le⟩

/-- What an identifier tells about its value. -/
def roles (config : IdentifierConfig) (id : Identifier) : Roles :=
  Roles.unpack config.nibble id.bytes

end IdentifierConfig

/-- What identifiers are derived with. -/
structure IdFactory where
  /-- How they are derived. -/
  config : IdentifierConfig
  /-- What values are encoded with. -/
  codec : Codec

namespace IdFactory

/-- The identifier of an encoded value. -/
def derive (f : IdFactory) (e : Encoded) : Identifier :=
  ⟨(Roles.ofTagByte e.tag.byte).pack f.config.nibble (f.config.digest.hash e.bytes)⟩

def id (f : IdFactory) (t : Term) : Except InsideCharacter Identifier :=
  (f.codec.encode t).map f.derive

def idOfIri (f : IdFactory) (iri : String) : Identifier := f.derive (f.codec.encodeIri iri)

/-- What an identifier tells about its value. -/
def roles (f : IdFactory) (id : Identifier) : Roles := f.config.roles id

/-- The identifier with the given bytes, if they are as many as identifiers have. -/
def ofBytes (f : IdFactory) (bytes : Bytes) : Except DecodeError Identifier :=
  if bytes.length = f.config.size then .ok ⟨bytes⟩
  else .error (.identifierSize bytes.length f.config.size)

/-- The IRI that carries an identifier. -/
def mint (id : Identifier) : String := Internal.valueIds ++ Base64Url.encode id.bytes

/-- The identifier that a term carries. -/
def recover? (f : IdFactory) (t : Term) : Option Identifier := do
  let iri ← t.iri?
  let localName ← IriStart.strip? Internal.valueIds.toList iri.toList
  let bytes ← TextEncoding.base64Url.decodeCanonical? (String.ofList localName)
  (f.ofBytes bytes).toOption

end IdFactory

end RdfIndex
