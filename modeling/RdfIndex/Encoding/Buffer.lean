import RdfIndex.Encoding.Literal

/-!
# Writing into a buffer

A term can be written after bytes that are already there.  It is written piece by piece: a tag is
pushed, the fields of a payload are appended, and numbers of variable length go in byte by byte.  A
length stands in front of what it is the length of, so a datatype and the first two members of a
quoted triple are written into a scratch buffer first.  A triple has one scratch buffer, which is
cleared for each of the two.

The writers of native literals say whether they have written a form.  Where they have not, the
generic form follows in the same buffer.
-/

namespace RdfIndex

namespace Buffer

/-! ## Pieces -/

/-- A buffer with a byte more. -/
def push (out : Bytes) (b : UInt8) : Bytes := out ++ [b]

/-- A buffer with some bytes more. -/
def extend (out bytes : Bytes) : Bytes := out ++ bytes

/-- A buffer emptied, to be used again. -/
def clear (_ : Bytes) : Bytes := []

/-- Writes a number of variable length. -/
def putVarint (out : Bytes) (n : Nat) : Bytes :=
  if n < 128 then push out (UInt8.ofNat n)
  else putVarint (push out (UInt8.ofNat (n % 128 + 128))) (n / 128)
termination_by n

/-- Writes a signed number of variable length. -/
def putVarintInt (out : Bytes) (i : Int) : Bytes := putVarint out (Varint.fold i)

/-- Writes a byte string with its length in front. -/
def putWithLength (out bytes : Bytes) : Bytes := extend (putVarint out bytes.length) bytes

/-- Writes a tag and a payload. -/
def put (out : Bytes) (tag : Tag) (payload : Bytes) : Bytes := extend (push out tag.byte) payload

/-! ## IRIs -/

/-- Writes an IRI in the first form that applies. -/
def putIri (v : Vocabulary) (out : Bytes) (iri : String) : Bytes :=
  match v.iris.hashOf? iri with
  | some hash => put out (.iri .wellKnown) (hashBytes hash)
  | none =>
    match v.matchId? iri with
    | some m =>
      let form := if m.slash then IriForm.identifierSlash else .identifier
      extend (put out (.iri form) (hashBytes m.hash)) m.bytes
    | none =>
      match v.matchNamespace? iri with
      | some (hash, localName) =>
        extend (put out (.iri .inNamespace) (hashBytes hash)) (Utf8.bytes localName)
      | none =>
        match IriStart.longest? iri with
        | some (code, start) =>
          extend (push (push out (Tag.iri .afterStart).byte) (UInt8.ofNat code))
            (Utf8.encode (iri.toList.drop start.length))
        | none => put out (.iri .whole) (Utf8.bytes iri)

/-! ## Literals -/

/-- Writes a plain string, compressed if it has more bytes than the threshold. -/
def putString (threshold : Nat) (out : Bytes) (label : String) : Bytes :=
  let bytes := Utf8.bytes label
  if threshold < bytes.length then
    if Snappy.canCompress bytes.length then
      put out (.literal .compressedString) (Snappy.compress bytes)
    else put out (.literal .string) bytes
  else put out (.literal .string) bytes

/-- Writes a value in a form of its own, if there is one, and says whether it did. -/
def putFixed (out : Bytes) (form : LiteralForm) (payload : Option Bytes) : Bytes × Bool :=
  match payload with
  | some payload => (put out (.literal form) payload, true)
  | none => (out, false)

/-- Writes an integer in the least width that it fits, else its label, if that is canonical. -/
def putInteger (out : Bytes) (label : String) : Bytes × Bool :=
  match Integer.readFitting? 8 label.toList with
  | some i =>
    if Integer.fits 2 i then putFixed out .integer2 (some (Bytes.ofInt 2 i))
    else if Integer.fits 4 i then putFixed out .integer4 (some (Bytes.ofInt 4 i))
    else putFixed out .integer8 (some (Bytes.ofInt 8 i))
  | none =>
    if Integer.isCanonical label.toList then
      (put out (.literal .integerText) (Utf8.bytes label), true)
    else (out, false)

/-- Writes a decimal as numbers, else its label, if that is canonical. -/
def putDecimal (out : Bytes) (label : String) : Bytes × Bool :=
  match Decimal.read? label.toList with
  | some d =>
    (putVarintInt (putVarintInt (push out (Tag.literal .decimal).byte) d.scale) d.unscaled, true)
  | none =>
    if Decimal.isCanonical label.toList then
      (put out (.literal .decimalText) (Utf8.bytes label), true)
    else (out, false)

open Calendar

/-- Writes a date and time, if the label is the one that it is written as. -/
def putDateTime (out : Bytes) (label : String) : Except InsideCharacter (Bytes × Bool) := do
  match ← DateTime.read? label with
  | none => return (out, false)
  | some v =>
    if v.text ≠ label then return (out, false)
    let seconds := v.localSeconds - v.offset.getD 0 * 60
    let out := put out (.literal .dateTime) (Bytes.ofInt 8 seconds)
    return (extend (extend out (Bytes.toBigEndian 4 v.time.nano)) (zoneBytes v.offset), true)

/-- Writes a date, if the label is the one that it is written as. -/
def putDate (out : Bytes) (label : String) : Except InsideCharacter (Bytes × Bool) := do
  match (← ZonedDate.read? label).filter (·.text == label) with
  | none => return (out, false)
  | some v =>
    let out := put out (.literal .date) (Bytes.ofInt 4 v.date.julianDay)
    return (extend out (zoneBytes v.offset), true)

/-- Writes a time, if the label is the one that it is written as. -/
def putTime (out : Bytes) (label : String) : Except InsideCharacter (Bytes × Bool) := do
  match (← ZonedTime.read? label).filter (·.text == label) with
  | none => return (out, false)
  | some v =>
    let out := put out (.literal .time) (Bytes.toBigEndian 8 v.time.nanos)
    return (extend out (zoneBytes v.offset), true)

/-- Writes a label of a native datatype in a native form, if one applies, and says whether it
did. -/
def putNative (threshold : Nat) (out : Bytes) (type : NativeType) (label : String) :
    Except InsideCharacter (Bytes × Bool) :=
  match type with
  | .string => .ok (putString threshold out label, true)
  | .boolean =>
    match readBoolean? label with
    | some b => .ok (push out (Tag.literal (if b then .yes else .no)).byte, true)
    | none => .ok (out, false)
  | .byte =>
    .ok (putFixed out .byte ((Integer.readFitting? 1 label.toList).map (Bytes.ofInt 1)))
  | .short =>
    .ok (putFixed out .short ((Integer.readFitting? 2 label.toList).map (Bytes.ofInt 2)))
  | .int => .ok (putFixed out .int ((Integer.readFitting? 4 label.toList).map (Bytes.ofInt 4)))
  | .long => .ok (putFixed out .long ((Integer.readFitting? 8 label.toList).map (Bytes.ofInt 8)))
  | .float =>
    .ok (putFixed out .float ((Floating.read? binary32 label.toList).map (Bytes.toBigEndian 4)))
  | .double =>
    .ok (putFixed out .double ((Floating.read? binary64 label.toList).map (Bytes.toBigEndian 8)))
  | .integer => .ok (putInteger out label)
  | .decimal => .ok (putDecimal out label)
  | .dateTime => putDateTime out label
  | .date => putDate out label
  | .time => putTime out label
  | .xml => .ok (put out (.literal .xml) (Utf8.bytes label), true)
  | .wkt => .ok (put out (.literal .wkt) (Utf8.bytes label), true)

/-- Writes a label with a language. -/
def putTagged (v : Vocabulary) (out : Bytes) (label language : String) : Bytes :=
  match v.languages.hashOf? language with
  | some hash =>
    extend (put out (.literal .taggedHash) (hashBytes hash)) (Utf8.bytes label)
  | none =>
    extend (putWithLength (push out (Tag.literal .tagged).byte) (Utf8.bytes language))
      (Utf8.bytes label)

/-- Writes a label with its datatype, which is written into a buffer of its own first. -/
def putDatatyped (v : Vocabulary) (out : Bytes) (label datatype : String) : Bytes :=
  let scratch := putIri v [] datatype
  extend (putWithLength (push out Tag.datatyped.byte) scratch) (Utf8.bytes label)

/-- Writes a literal. -/
def putLiteral (codec : Codec) (out : Bytes) : Literal → Except InsideCharacter Bytes
  | .tagged label language _ => .ok (putTagged codec.vocabulary out label language)
  | .typed label datatype => do
    let (out, written) ←
      match NativeType.ofIri? datatype with
      | some type => putNative codec.threshold out type label
      | none => .ok (out, false)
    if written then return out
    else return putDatatyped codec.vocabulary out label datatype

/-! ## Terms -/

/-- Writes a term. -/
def putTerm (codec : Codec) (out : Bytes) : Term → Except InsideCharacter Bytes
  | .iri text => .ok (putIri codec.vocabulary out text)
  | .blank label => .ok (put out .blank (Utf8.bytes label))
  | .literal l => putLiteral codec out l
  | .triple s p o => do
    let out := push out Tag.triple.byte
    let scratch ← putTerm codec (clear []) s
    let out := putWithLength out scratch
    let scratch := putIri codec.vocabulary (clear scratch) p
    let out := putWithLength out scratch
    putTerm codec out o

end Buffer

/-- Writes a term into a buffer.  Gives the buffer, and where the term starts and ends in it. -/
def Codec.encodeInto (codec : Codec) (t : Term) (buffer : Bytes) :
    Except InsideCharacter (Bytes × Nat × Nat) := do
  let out ← Buffer.putTerm codec buffer t
  return (out, buffer.length, out.length)

end RdfIndex
