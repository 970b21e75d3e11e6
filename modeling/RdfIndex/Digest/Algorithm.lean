import RdfIndex.Digest.Blake3
import RdfIndex.Digest.Sha2
import RdfIndex.Digest.SipHash
import RdfIndex.Digest.XxHash3
import RdfIndex.Digest.XxHash64

/-!
# Digest algorithms

The algorithms that identifiers can be derived with, their names and the length of their digests.
-/

namespace RdfIndex

/-- A digest algorithm. -/
inductive Algorithm where
  | sha256
  | sha512
  | blake3
  /-- XXH3 of 128 bits. -/
  | xxh3
  /-- xxHash of 64 bits. -/
  | xxh64
  /-- SipHash-2-4 of 128 bits. -/
  | sipHash
deriving DecidableEq, Repr

namespace Algorithm

/-- The name under which an algorithm is shown. -/
def name : Algorithm → String
  | sha256 => "SHA-256"
  | sha512 => "SHA-512"
  | blake3 => "BLAKE3"
  | xxh3 => "XXH3-128"
  | xxh64 => "XXH64"
  | sipHash => "SipHash-128"

/-- The length of a digest in bytes. -/
def digestSize : Algorithm → Nat
  | sha256 => 32
  | sha512 => 64
  | blake3 => 32
  | xxh3 => 16
  | xxh64 => 8
  | sipHash => 16

/-- The digest of a byte string. -/
def digest : Algorithm → Bytes → Bytes
  | sha256 => Sha2.sha256
  | sha512 => Sha2.sha512
  | blake3 => Blake3.blake3
  | xxh3 => XxHash3.hash128
  | xxh64 => fun bytes => Word.be64Bytes (XxHash64.hash64 bytes)
  | sipHash => SipHash.hash128

/-- The algorithm of a name.  Letter case, hyphens and underscores do not count. -/
def ofName? (name : String) : Option Algorithm :=
  let plain := (name.toList.filter fun c => c != '-' && c != '_').map Char.toLower
  match String.ofList plain with
  | "sha256" => some sha256
  | "sha512" => some sha512
  | "blake3" => some blake3
  | "xxh3128" => some xxh3
  | "xxh3" => some xxh3
  | "xxh64" => some xxh64
  | "siphash128" => some sipHash
  | _ => none

end Algorithm

end RdfIndex
