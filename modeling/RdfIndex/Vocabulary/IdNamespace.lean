import RdfIndex.Error
import RdfIndex.Text.Base64Url
import RdfIndex.Text.Hex

/-!
# Namespaces of identifiers

The local names of some namespaces are byte strings in hexadecimal or base64url.  Their IRIs are
stored as the bytes.  A local name counts only if it is exactly what its bytes are written as.
-/

namespace RdfIndex

namespace Base64Url

/-- The bytes of a text, or that it is not base64url. -/
def read (text : String) : Except DecodeError Bytes :=
  match decode text with
  | some bytes => .ok bytes
  | none => .error (.base64 text)

theorem toOption_read (text : String) : (read text).toOption = decode text := by
  rw [read]
  cases decode text <;> rfl

end Base64Url

/-- How bytes are written in a local name. -/
inductive TextEncoding where
  /-- Base64url without padding. -/
  | base64Url
  /-- Lower-case hexadecimal. -/
  | hex
deriving DecidableEq, Repr

namespace TextEncoding

def name : TextEncoding → String
  | base64Url => "base64url"
  | hex => "hex"

/-- The text encoding of a name in any letter case. -/
def ofName (name : String) : Except ConfigError TextEncoding :=
  let lower := String.ofList (name.toList.map Char.toLower)
  match lower with
  | "hex" => .ok hex
  | "base64" => .ok base64Url
  | "base64url" => .ok base64Url
  | _ => .error (.unknownTextEncoding lower)

def encode : TextEncoding → Bytes → String
  | base64Url => Base64Url.encode
  | hex => Hex.encode

/-- The bytes of a text in any form that can be read. -/
def decode? : TextEncoding → String → Option Bytes
  | base64Url, text => (Base64Url.read text).toOption
  | hex, text => (Hex.decode text).toOption

/-- The bytes of a text that is exactly what they are written as. -/
def decodeCanonical? (e : TextEncoding) (text : String) : Option Bytes :=
  (e.decode? text).filter fun bytes => e.encode bytes == text

end TextEncoding

/-- A namespace whose local names are byte strings. -/
structure IdNamespace where
  /-- The IRI that the local names follow. -/
  ns : String
  /-- How the bytes are written. -/
  encoding : TextEncoding
  /-- The number of bytes of every local name, if it is fixed. -/
  size : Option Nat
deriving DecidableEq, Repr

namespace IdNamespace

/-- A byte string that can be a local name: not empty, and of the fixed size if there is one. -/
def admits (n : IdNamespace) (bytes : Bytes) : Bool :=
  !bytes.isEmpty && n.size.all (· == bytes.length)

def decodeLocal? (n : IdNamespace) (localName : String) : Option Bytes :=
  if localName = "" then none
  else (n.encoding.decodeCanonical? localName).filter fun bytes => n.size.all (· == bytes.length)

/-- The IRI of a byte string, with or without a slash at its end. -/
def iri (n : IdNamespace) (bytes : Bytes) (slash : Bool) : String :=
  n.ns ++ n.encoding.encode bytes ++ (if slash then "/" else "")

end IdNamespace

end RdfIndex
