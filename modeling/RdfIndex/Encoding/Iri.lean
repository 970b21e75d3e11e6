import RdfIndex.Bytes.Cursor
import RdfIndex.Encoding.Form
import RdfIndex.Vocabulary.Basic

/-!
# Encoded IRIs

An IRI is stored in the first of these forms that applies: the hash of a well-known IRI, the bytes
of a local name in a namespace of identifiers, a local name after the hash of its namespace, the
text after a start, the whole text.
-/

namespace RdfIndex

/-- A hash of sixteen bits as bytes. -/
def hashBytes (hash : UInt16) : Bytes := Bytes.toBigEndian 2 hash.toNat

/-- Reads a hash of sixteen bits. -/
def Reader.hash : Reader UInt16 := do return UInt16.ofNat (← word 2)

/-- A looked-up entry, or the error that there is none. -/
def Reader.found {α : Type} (entry : Option α) (missing : DecodeError) : Reader α :=
  match entry with
  | some a => pure a
  | none => fail missing

namespace Vocabulary

/-- An IRI with the code of a start, or as a whole. -/
def encodePlainIri (iri : String) : Encoded :=
  match IriStart.longest? iri with
  | some (code, start) =>
    ⟨.iri .afterStart, UInt8.ofNat code :: Utf8.encode (iri.toList.drop start.length)⟩
  | none => ⟨.iri .whole, Utf8.bytes iri⟩

/-- The encoded form of an IRI. -/
def encodeIri (v : Vocabulary) (iri : String) : Encoded :=
  match v.iris.hashOf? iri with
  | some hash => ⟨.iri .wellKnown, hashBytes hash⟩
  | none =>
    match v.matchId? iri with
    | some m =>
      ⟨.iri (if m.slash then .identifierSlash else .identifier), hashBytes m.hash ++ m.bytes⟩
    | none =>
      match v.matchNamespace? iri with
      | some (hash, localName) => ⟨.iri .inNamespace, hashBytes hash ++ Utf8.bytes localName⟩
      | none => encodePlainIri iri

/-- Reads the rest as the bytes of a local name in a namespace of identifiers. -/
def readIdentifierIri (v : Vocabulary) (slash : Bool) : Reader String := do
  let hash ← Reader.hash
  let n ← Reader.found (v.idNamespaces.ofHash? hash) (.unknownIdNamespace hash)
  let bytes ← Reader.rest
  if n.admits bytes then return n.iri bytes slash
  else Reader.fail (.localSize bytes.length n.ns)

/-- Reads the rest as an IRI of the given form. -/
def readIri (v : Vocabulary) : IriForm → Reader String
  | .whole => Reader.text
  | .afterStart => do
    let code ← Reader.word 1
    let start ← Reader.found (IriStart.ofCode? code) (.unknownStart code)
    return start ++ (← Reader.text)
  | .inNamespace => do
    let hash ← Reader.hash
    let ns ← Reader.found (v.namespaces.ofHash? hash) (.unknownNamespace hash)
    return ns ++ (← Reader.text)
  | .identifier => v.readIdentifierIri false
  | .identifierSlash => v.readIdentifierIri true
  | .wellKnown => do
    let hash ← Reader.hash
    Reader.found (v.iris.ofHash? hash) (.unknownIri hash)

end Vocabulary

end RdfIndex
