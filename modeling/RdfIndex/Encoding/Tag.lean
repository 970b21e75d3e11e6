import RdfIndex.Encoding.DecodeError
import RdfIndex.Term.Basic

/-!
# Tags of encoded values

The first byte of an encoded value is its tag.  It tells the kind of the value and the form in which
it is stored.  Tags are part of the stored format: a byte keeps its meaning for ever.

The kind of a value, and whether it is a string or a number, can be read off the byte alone, also
off a byte that is no tag yet.
-/

namespace RdfIndex

/-- The forms in which an IRI is stored. -/
inductive IriForm where
  /-- The whole text. -/
  | whole
  /-- The code of a start and the text after it. -/
  | afterStart
  /-- The hash of a namespace and the local name. -/
  | inNamespace
  /-- The hash of a namespace of identifiers and the bytes of the local name. -/
  | identifier
  /-- As `identifier`, for an IRI with a slash at its end. -/
  | identifierSlash
  /-- The hash of a well-known IRI. -/
  | wellKnown
deriving DecidableEq, Repr

/-- The forms in which a literal is stored that hold no datatype. -/
inductive LiteralForm where
  | string
  | compressedString
  | tagged
  /-- The hash of a language tag and a label. -/
  | taggedHash
  | xml
  | wkt
  | no
  | yes
  | byte
  | short
  | int
  | long
  | float
  | double
  /-- An integer in two bytes. -/
  | integer2
  /-- An integer in four bytes. -/
  | integer4
  /-- An integer in eight bytes. -/
  | integer8
  | integerText
  /-- A decimal as scale and unscaled number. -/
  | decimal
  | decimalText
  | dateTime
  | date
  | time
deriving DecidableEq, Repr

/-- What the first byte of an encoded value says. -/
inductive Tag where
  | iri (form : IriForm)
  | blank
  | triple
  /-- A literal with its datatype. -/
  | datatyped
  /-- A literal whose form tells its datatype. -/
  | literal (form : LiteralForm)
deriving DecidableEq, Repr

def IriForm.tagByte : IriForm → UInt8
  | whole => 0x01
  | afterStart => 0x02
  | inNamespace => 0x03
  | identifier => 0x04
  | identifierSlash => 0x05
  | wellKnown => 0x06

def IriForm.name : IriForm → String
  | whole => "IRI"
  | afterStart => "COMPRESSED_IRI"
  | inNamespace => "NAMESPACE_HASH_IRI"
  | identifier => "ENCODED_IRI"
  | identifierSlash => "END_SLASH_ENCODED_IRI"
  | wellKnown => "WELL_KNOWN_IRI"

def LiteralForm.tagByte : LiteralForm → UInt8
  | string => 0x20
  | compressedString => 0x21
  | tagged => 0x22
  | taggedHash => 0x23
  | xml => 0x25
  | wkt => 0x26
  | no => 0x30
  | yes => 0x31
  | byte => 0x32
  | short => 0x33
  | int => 0x34
  | long => 0x35
  | float => 0x36
  | double => 0x37
  | integer2 => 0x38
  | integer4 => 0x39
  | integer8 => 0x3A
  | integerText => 0x3B
  | decimal => 0x3C
  | decimalText => 0x3D
  | dateTime => 0x40
  | date => 0x41
  | time => 0x42

def LiteralForm.name : LiteralForm → String
  | string => "STRING"
  | compressedString => "COMPRESSED_STRING"
  | tagged => "LANGUAGE_LITERAL"
  | taggedHash => "LANGUAGE_HASH_LITERAL"
  | xml => "XML_LITERAL"
  | wkt => "WKT_LITERAL"
  | no => "FALSE"
  | yes => "TRUE"
  | byte => "BYTE"
  | short => "SHORT"
  | int => "INT"
  | long => "LONG"
  | float => "FLOAT"
  | double => "DOUBLE"
  | integer2 => "SHORT_COMPRESSED_BIG_INT"
  | integer4 => "INT_COMPRESSED_BIG_INT"
  | integer8 => "LONG_COMPRESSED_BIG_INT"
  | integerText => "BIG_INT"
  | decimal => "DECIMAL"
  | decimalText => "BIG_DECIMAL"
  | dateTime => "DATETIME"
  | date => "DATE"
  | time => "TIME"

namespace Tag

def byte : Tag → UInt8
  | iri form => form.tagByte
  | blank => 0x10
  | triple => 0x18
  | datatyped => 0x24
  | literal form => form.tagByte

def name : Tag → String
  | iri form => form.name
  | blank => "BNODE"
  | triple => "TRIPLE"
  | datatyped => "DATATYPE_LITERAL"
  | literal form => form.name

def ofByte? (b : UInt8) : Option Tag :=
  match b.toNat with
  | 0x01 => some (.iri .whole)
  | 0x02 => some (.iri .afterStart)
  | 0x03 => some (.iri .inNamespace)
  | 0x04 => some (.iri .identifier)
  | 0x05 => some (.iri .identifierSlash)
  | 0x06 => some (.iri .wellKnown)
  | 0x10 => some .blank
  | 0x18 => some .triple
  | 0x20 => some (.literal .string)
  | 0x21 => some (.literal .compressedString)
  | 0x22 => some (.literal .tagged)
  | 0x23 => some (.literal .taggedHash)
  | 0x24 => some .datatyped
  | 0x25 => some (.literal .xml)
  | 0x26 => some (.literal .wkt)
  | 0x30 => some (.literal .no)
  | 0x31 => some (.literal .yes)
  | 0x32 => some (.literal .byte)
  | 0x33 => some (.literal .short)
  | 0x34 => some (.literal .int)
  | 0x35 => some (.literal .long)
  | 0x36 => some (.literal .float)
  | 0x37 => some (.literal .double)
  | 0x38 => some (.literal .integer2)
  | 0x39 => some (.literal .integer4)
  | 0x3A => some (.literal .integer8)
  | 0x3B => some (.literal .integerText)
  | 0x3C => some (.literal .decimal)
  | 0x3D => some (.literal .decimalText)
  | 0x40 => some (.literal .dateTime)
  | 0x41 => some (.literal .date)
  | 0x42 => some (.literal .time)
  | _ => none

/-- The tag of a byte, or the error that there is none. -/
def ofByte (b : UInt8) : Except DecodeError Tag :=
  match ofByte? b with
  | some tag => .ok tag
  | none => .error (.unknownTag b)

theorem ofByte?_byte (tag : Tag) : ofByte? tag.byte = some tag := by
  cases tag with
  | iri form => cases form <;> rfl
  | literal form => cases form <;> rfl
  | _ => rfl

/-! ## Ranges of bytes -/

/-- The kind that a byte stands for as a tag. -/
def kindOfByte (b : UInt8) : Kind :=
  if 0x01 ≤ b ∧ b ≤ 0x0F then .iri
  else if 0x10 ≤ b ∧ b ≤ 0x17 then .blank
  else if 0x18 ≤ b ∧ b ≤ 0x1F then .triple
  else .literal

/-- A byte that stands for a string, plain or with a language. -/
def isStringByte (b : UInt8) : Bool := 0x20 ≤ b && b ≤ 0x23

/-- A byte that stands for a number of its own form.  The label of a number that is stored with its
datatype does not count. -/
def isNumericByte (b : UInt8) : Bool := 0x32 ≤ b && b ≤ 0x3D

/-- How a byte is shown as a tag. -/
def display (b : UInt8) : String :=
  match ofByte? b with
  | some tag => tag.name
  | none => "TypeTag(0x" ++ Hex.ofNat 2 b.toNat ++ ")"

end Tag

end RdfIndex
