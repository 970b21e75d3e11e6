import RdfIndex.Encoding.Buffer
import RdfIndex.Vocabulary.Standard

/-!
# Encoded terms

`Codec.encode` gives the encoded form of a term.  `Codec.read` reads a term from a region of bytes
that ends where the term ends, and `Codec.decode` reads from a position of a byte string to its end.

A quoted triple is stored as its members, the first two with their lengths, a literal with its
datatype as the datatype with its length and the label.  So every member is read from a region that
is shorter than the one it is in, which bounds the recursion.
-/

namespace RdfIndex

namespace Codec

/-- The codec of the standard vocabulary. -/
def standard : Codec := ⟨.standard, defaultThreshold⟩

/-- The encoded form of an IRI. -/
def encodeIri (codec : Codec) (iri : String) : Encoded := codec.vocabulary.encodeIri iri

/-- The encoded form of a term. -/
def encode (codec : Codec) : Term → Except InsideCharacter Encoded
  | .iri text => .ok (codec.encodeIri text)
  | .blank label => .ok ⟨.blank, Utf8.bytes label⟩
  | .literal l => codec.encodeLiteral l
  | .triple s p o => do
    let subject ← codec.encode s
    let object ← codec.encode o
    return ⟨.triple, Varint.withLength subject.bytes
      ++ Varint.withLength (codec.encodeIri p).bytes ++ object.bytes⟩

def readTag : Reader Tag := do Reader.check (Tag.ofByte (UInt8.ofNat (← Reader.word 1)))

/-- The result of a read that must leave nothing. -/
def finish {α : Type} : Except DecodeError α × Cursor → Except DecodeError α
  | (.error e, _) => .error e
  | (.ok a, c) => if c.rest = [] then .ok a else .error (.trailing c.rest.length)

/-- The text of a predicate, which is an IRI. -/
def predicateOf (t : Term) : Except DecodeError String :=
  match t with
  | .iri p => .ok p
  | t => .error (.predicateNotIri t)

/-- The text of a datatype, which is an IRI. -/
def datatypeOf (t : Term) : Except DecodeError String :=
  match t with
  | .iri d => .ok d
  | t => .error (.datatypeNotIri t)

/-- A tag that is read leaves less than it was given. -/
theorem length_of_readTag {c c' : Cursor} {tag : Tag} (h : readTag c = (.ok tag, c')) :
    c'.rest.length < c.rest.length := by
  simp only [readTag, Bind.bind, Reader.bind, Reader.word, Pure.pure, Reader.pure, Reader.check,
    Reader.take] at h
  split at h
  · next n c1 h1 =>
    simp only [Prod.mk.injEq] at h
    rw [← h.2]
    split at h1
    · next bytes c2 h2 =>
      simp only [Prod.mk.injEq] at h1
      rw [← h1.2]
      split at h2
      · simp at h2
      split at h2
      · simp at h2
      · next hlen =>
        simp only [Prod.mk.injEq] at h2
        rw [← h2.2]
        simp only [List.length_drop]
        omega
    · simp at h1
  · simp at h

/-- Reads a term that ends where the region ends. -/
def read (codec : Codec) (c : Cursor) : Except DecodeError Term × Cursor :=
  match _htag : readTag c with
  | (.error e, c) => (.error e, c)
  | (.ok (.iri form), c) => (Term.iri <$> codec.vocabulary.readIri form) c
  | (.ok .blank, c) => (Term.blank <$> Reader.text) c
  | (.ok (.literal form), c) => (Term.literal <$> codec.readLiteral form) c
  | (.ok .datatyped, c1) =>
    match _hd : Reader.withLength c1 with
    | (.error e, c2) => (.error e, c2)
    | (.ok d, c2) =>
      match finish (codec.read (.start d)) with
      | .error e => (.error e, c2)
      | .ok datatype =>
        (do
          let datatype ← Reader.check (datatypeOf datatype)
          return Term.literal (.typed (← Reader.text) datatype) : Reader Term) c2
  | (.ok .triple, c1) =>
    match _hs : Reader.withLength c1 with
    | (.error e, c2) => (.error e, c2)
    | (.ok s, c2) =>
      match finish (codec.read (.start s)) with
      | .error e => (.error e, c2)
      | .ok subject =>
        match _hp : Reader.withLength c2 with
        | (.error e, c3) => (.error e, c3)
        | (.ok p, c3) =>
          match finish (codec.read (.start p)) with
          | .error e => (.error e, c3)
          | .ok predicate =>
            match finish (codec.read (.start c3.rest)) with
            | .error e => (.error e, ⟨c3.offset + c3.rest.length, []⟩)
            | .ok object =>
              (do
                let _ ← Reader.rest
                let predicate ← Reader.check (predicateOf predicate)
                return Term.triple subject predicate object : Reader Term) c3
termination_by c.rest.length
decreasing_by
  all_goals
    have h0 := length_of_readTag _htag
    simp only [Cursor.start]
  · have h1 := Reader.length_of_withLength _hd
    omega
  · have h1 := Reader.length_of_withLength _hs
    omega
  · have h1 := Reader.length_of_withLength _hs
    have h2 := Reader.length_of_withLength _hp
    omega
  · have h1 := Reader.length_of_withLength _hs
    have h2 := Reader.length_of_withLength _hp
    omega

/-- The term of a whole byte string. -/
def readValue (codec : Codec) (bytes : Bytes) : Except DecodeError Term :=
  finish (codec.read (.start bytes))

/-- The term from a position of a byte string to its end, and the number of bytes it takes. -/
def decode (codec : Codec) (bytes : Bytes) (position : Nat) : Except DecodeError (Term × Nat) := do
  let c ← Cursor.at? bytes position
  let t ← finish (codec.read c)
  return (t, bytes.length - position)

end Codec

end RdfIndex
