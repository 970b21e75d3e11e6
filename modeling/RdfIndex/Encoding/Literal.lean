import RdfIndex.Bytes.Snappy
import RdfIndex.Encoding.Iri
import RdfIndex.Encoding.Moment
import RdfIndex.Term.OfValue

/-!
# Encoded literals

A literal of a native datatype is stored as its value, if its label is the one that the value is
written as.  Otherwise it is stored as its datatype and its label.  So the label always comes back
as it was.
-/

namespace RdfIndex

/-- A datatype with a stored form of its own. -/
inductive NativeType where
  | string
  | boolean
  /-- Integers of eight bits. -/
  | byte
  /-- Integers of sixteen bits. -/
  | short
  /-- Integers of 32 bits. -/
  | int
  /-- Integers of 64 bits. -/
  | long
  | float
  | double
  /-- Integers of any size. -/
  | integer
  | decimal
  | dateTime
  | date
  | time
  | xml
  /-- Geometries as text. -/
  | wkt
deriving DecidableEq, Repr

namespace NativeType

/-- All native datatypes. -/
def all : List NativeType :=
  [string, boolean, byte, short, int, long, float, double, integer, decimal, dateTime, date, time,
    xml, wkt]

/-- The IRI of a native datatype. -/
def iri : NativeType → String
  | string => Xsd.string
  | boolean => Xsd.boolean
  | byte => Xsd.byte
  | short => Xsd.short
  | int => Xsd.int
  | long => Xsd.long
  | float => Xsd.float
  | double => Xsd.double
  | integer => Xsd.integer
  | decimal => Xsd.decimal
  | dateTime => Xsd.dateTime
  | date => Xsd.date
  | time => Xsd.time
  | xml => Rdf.xmlLiteral
  | wkt => Geo.wktLiteral

/-- The native datatype of an IRI. -/
def ofIri? (iri : String) : Option NativeType := all.find? (·.iri == iri)

end NativeType

namespace Encoded

/-- A plain string, compressed if it has more bytes than the threshold. -/
def ofString (threshold : Nat) (label : String) : Encoded :=
  let bytes := Utf8.bytes label
  if threshold < bytes.length ∧ Snappy.canCompress bytes.length = true then
    ⟨.literal .compressedString, Snappy.compress bytes⟩
  else ⟨.literal .string, bytes⟩

/-- An integer in a form of fixed width, if the label is canonical and the integer fits. -/
def ofFixed? (form : LiteralForm) (width : Nat) (label : String) : Option Encoded :=
  (Integer.readFitting? width label.toList).map fun i => ⟨.literal form, Bytes.ofInt width i⟩

/-- A floating-point number, if the label is the one that its value is written as. -/
def ofFloating? (form : LiteralForm) (format : BinaryFormat) (label : String) : Option Encoded :=
  (Floating.read? format label.toList).map fun bits =>
    ⟨.literal form, Bytes.toBigEndian format.width bits⟩

/-- An integer in the least of two, four and eight bytes that it fits, else its label. -/
def ofInteger? (label : String) : Option Encoded :=
  match Integer.read? label.toList with
  | none => none
  | some i =>
    if Integer.fits 2 i then some ⟨.literal .integer2, Bytes.ofInt 2 i⟩
    else if Integer.fits 4 i then some ⟨.literal .integer4, Bytes.ofInt 4 i⟩
    else if Integer.fits 8 i then some ⟨.literal .integer8, Bytes.ofInt 8 i⟩
    else some ⟨.literal .integerText, Utf8.bytes label⟩

/-- A decimal as numbers, else its label if that is canonical. -/
def ofDecimal? (label : String) : Option Encoded :=
  match Decimal.read? label.toList with
  | some d => some ⟨.literal .decimal, Varint.encodeInt d.scale ++ Varint.encodeInt d.unscaled⟩
  | none =>
    if Decimal.isCanonical label.toList then some ⟨.literal .decimalText, Utf8.bytes label⟩
    else none

/-- The stored form of a label of a native datatype, if it is canonical. -/
def ofNative? (threshold : Nat) (type : NativeType) (label : String) :
    Except InsideCharacter (Option Encoded) :=
  match type with
  | .string => .ok (some (ofString threshold label))
  | .boolean =>
    .ok ((readBoolean? label).map fun b => ⟨.literal (if b then .yes else .no), []⟩)
  | .byte => .ok (ofFixed? .byte 1 label)
  | .short => .ok (ofFixed? .short 2 label)
  | .int => .ok (ofFixed? .int 4 label)
  | .long => .ok (ofFixed? .long 8 label)
  | .float => .ok (ofFloating? .float binary32 label)
  | .double => .ok (ofFloating? .double binary64 label)
  | .integer => .ok (ofInteger? label)
  | .decimal => .ok (ofDecimal? label)
  | .dateTime => do
    let v ← Calendar.DateTime.read? label
    return (v.filter (·.text == label)).map fun v => ⟨.literal .dateTime, v.bytes⟩
  | .date => do
    let v ← Calendar.ZonedDate.read? label
    return (v.filter (·.text == label)).map fun v => ⟨.literal .date, v.bytes⟩
  | .time => do
    let v ← Calendar.ZonedTime.read? label
    return (v.filter (·.text == label)).map fun v => ⟨.literal .time, v.bytes⟩
  | .xml => .ok (some ⟨.literal .xml, Utf8.bytes label⟩)
  | .wkt => .ok (some ⟨.literal .wkt, Utf8.bytes label⟩)

end Encoded

/-- What values are encoded with. -/
structure Codec where
  /-- What values refer to by hash. -/
  vocabulary : Vocabulary
  /-- Plain strings of more bytes than this are compressed. -/
  threshold : Nat

namespace Codec

/-- The threshold that is used unless another one is chosen. -/
def defaultThreshold : Nat := 200

/-- The stored form of a label with a language. -/
def encodeTagged (codec : Codec) (label language : String) : Encoded :=
  match codec.vocabulary.languages.hashOf? language with
  | some hash => ⟨.literal .taggedHash, hashBytes hash ++ Utf8.bytes label⟩
  | none => ⟨.literal .tagged, Varint.withLength (Utf8.bytes language) ++ Utf8.bytes label⟩

/-- The stored form of a label with its datatype. -/
def encodeDatatyped (codec : Codec) (label datatype : String) : Encoded :=
  ⟨.datatyped,
    Varint.withLength (codec.vocabulary.encodeIri datatype).bytes ++ Utf8.bytes label⟩

/-- The encoded form of a literal. -/
def encodeLiteral (codec : Codec) : Literal → Except InsideCharacter Encoded
  | .tagged label language _ => .ok (codec.encodeTagged label language)
  | .typed label datatype => do
    let native ←
      match NativeType.ofIri? datatype with
      | some type => Encoded.ofNative? codec.threshold type label
      | none => .ok none
    return native.getD (codec.encodeDatatyped label datatype)

/-! ## Reading -/

/-- Reads an integer of fixed width as a literal. -/
def readFixed (width : Nat) (datatype : String) : Reader Literal := do
  return .ofInt (← Reader.int width) datatype

/-- Reads the rest as the label of a literal. -/
def readLabel (datatype : String) : Reader Literal := do return .typed (← Reader.text) datatype

/-- Reads a compressed string. -/
def readCompressed : Reader Literal := do
  let compressed ← Reader.rest
  let bytes ← Reader.found (Snappy.decompress compressed) (.compressed compressed)
  return .string (← Reader.check (Reader.textOf bytes))

/-- Reads a language tag and a label. -/
def readTagged : Reader Literal := do
  let language ← Reader.check (Reader.textOf (← Reader.withLength))
  if language = "" then Reader.fail .emptyLanguage
  else return .lang (← Reader.text) language

/-- Reads the hash of a language tag and a label. -/
def readTaggedHash (codec : Codec) : Reader Literal := do
  let hash ← Reader.hash
  let language ← Reader.found (codec.vocabulary.languages.ofHash? hash) (.unknownLanguage hash)
  return .lang (← Reader.text) language

/-- Reads the scale and the unscaled number of a decimal. -/
def readDecimal : Reader Literal := do
  let scale ← Reader.varintInt
  if scale < 0 ∨ Decimal.maxScale < scale then Reader.fail (.decimalScale scale)
  else
    let unscaled ← Reader.varintInt
    return .decimal ⟨unscaled, scale.toNat⟩

/-- Reads the rest as a literal of the given form. -/
def readLiteral (codec : Codec) : LiteralForm → Reader Literal
  | .string => readLabel Xsd.string
  | .compressedString => readCompressed
  | .tagged => readTagged
  | .taggedHash => codec.readTaggedHash
  | .xml => readLabel Rdf.xmlLiteral
  | .wkt => readLabel Geo.wktLiteral
  | .no => return .ofBool false
  | .yes => return .ofBool true
  | .byte => readFixed 1 Xsd.byte
  | .short => readFixed 2 Xsd.short
  | .int => readFixed 4 Xsd.int
  | .long => readFixed 8 Xsd.long
  | .float => do return .float (← Reader.word 4)
  | .double => do return .double (← Reader.word 8)
  | .integer2 => readFixed 2 Xsd.integer
  | .integer4 => readFixed 4 Xsd.integer
  | .integer8 => readFixed 8 Xsd.integer
  | .integerText => readLabel Xsd.integer
  | .decimal => readDecimal
  | .decimalText => readLabel Xsd.decimal
  | .dateTime => do return .ofDateTime (← Calendar.DateTime.read)
  | .date => do return .ofDate (← Calendar.ZonedDate.read)
  | .time => do return .ofTime (← Calendar.ZonedTime.read)

end Codec

end RdfIndex
