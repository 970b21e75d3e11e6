import RdfIndex.Bytes.Checked
import RdfIndex.Encoding.Value
import RdfIndex.Request

/-!
# Reading terms with the numbers of a machine

The forms of terms, read by checked reads.  Whatever a form computes is computed in the type that it
has on a machine: the seconds of an instant and the number of its day in eight bytes with a sign,
nanoseconds in eight bytes without one, the fields of a time of day in one byte each.

`Codec.decodeChecked` reads the members of a term by itself, each in a region of its own.  A region
that is not shorter than the one it is in would be read without end and stops the program.
-/

namespace RdfIndex

namespace Checked

/-! ## IRIs -/

/-- A hash of sixteen bits. -/
def hash : Checked UInt16 := do return UInt16.ofNat (← word 2)

/-- Reads the rest as the bytes of a local name in a namespace of identifiers. -/
def readIdentifierIri (v : Vocabulary) (slash : Bool) : Checked String := do
  let hash ← hash
  let n ← found (v.idNamespaces.ofHash? hash) (.unknownIdNamespace hash)
  let bytes ← rest
  if n.admits bytes then return n.iri bytes slash
  else fail (.localSize bytes.length n.ns)

/-- Reads the rest as an IRI of the given form. -/
def readIri (v : Vocabulary) : IriForm → Checked String
  | .whole => text
  | .afterStart => do
    let code ← byte
    let start ← found (IriStart.ofCode? code) (.unknownStart code)
    return start ++ (← text)
  | .inNamespace => do
    let hash ← hash
    let ns ← found (v.namespaces.ofHash? hash) (.unknownNamespace hash)
    return ns ++ (← text)
  | .identifier => readIdentifierIri v false
  | .identifierSlash => readIdentifierIri v true
  | .wellKnown => do
    let hash ← hash
    found (v.iris.ofHash? hash) (.unknownIri hash)

/-! ## Dates and times -/

open Calendar

/-- Reads the offset of a zone. -/
def readZone : Checked (Option Int) := do
  let offset ← int 2
  if offset = noZone then return none
  else if maxOffset < offset.natAbs then fail (.zoneOffset offset)
  else return some offset

/-- The time of day of a number of nanoseconds since midnight.  Its hour, minute and second are cut
to one byte, its nanosecond to four. -/
def timeOfNanos (nanos : Nat) : Except Stop TimeOfDay := do
  let seconds := nanos / nanosPerSecond
  let nano := nanos % nanosPerSecond % Nat.pow 256 4
  if secondsPerDay ≤ seconds then throw (.failed (.decode (.timeOfDay nanos)))
  match TimeOfDay.of? (seconds / 3600 % 256) (seconds / 60 % 60 % 256) (seconds % 60 % 256) nano with
  | some time => return time
  | none => throw (.failed (.decode (.timeOfDay nanos)))

/-- The date and time of seconds since 1970, nanoseconds and an offset. -/
def dateTimeOf (seconds : Int) (nanos : Nat) (offset : Option Int) : Except Stop DateTime := do
  if nanosPerSecond ≤ nanos then throw (.failed (.decode (.nanoseconds nanos)))
  let inZone := seconds + (← Machine.signed 8 (offset.getD 0 * 60))
  if !Integer.fits 8 inZone then throw (.failed (.decode .secondsOverflow))
  let day ← Machine.signed 8 (inZone / secondsPerDay + epochDay)
  let date ← Stop.ofDecode (dateOfDay day)
  let whole ← Machine.unsigned 8 ((inZone % secondsPerDay).toNat * nanosPerSecond)
  let time ← timeOfNanos (← Machine.unsigned 8 (whole + nanos))
  return ⟨date, time, offset⟩

def readDateTime : Checked DateTime := do
  let seconds ← int 8
  let nanos ← word 4
  let offset ← readZone
  step (dateTimeOf seconds nanos offset)

def readZonedDate : Checked ZonedDate := do
  let day ← int 4
  let offset ← readZone
  let date ← check (dateOfDay day)
  return ⟨date, offset⟩

def readZonedTime : Checked ZonedTime := do
  let nanos ← word 8
  let time ← step (timeOfNanos nanos)
  let offset ← readZone
  return ⟨time, offset⟩

/-! ## Literals -/

/-- Reads an integer of fixed width as a literal. -/
def readFixed (width : Nat) (datatype : String) : Checked Literal := do
  return .ofInt (← int width) datatype

/-- Reads the rest as the label of a literal. -/
def readLabel (datatype : String) : Checked Literal := do return .typed (← text) datatype

/-- Reads a compressed string. -/
def readCompressed : Checked Literal := do
  let compressed ← rest
  let bytes ← found (Snappy.decompress compressed) (.compressed compressed)
  return .string (← check (Reader.textOf bytes))

/-- Reads a language tag and a label. -/
def readTagged : Checked Literal := do
  let language ← check (Reader.textOf (← withLength))
  if language = "" then fail .emptyLanguage
  else return .lang (← text) language

/-- Reads the hash of a language tag and a label. -/
def readTaggedHash (codec : Codec) : Checked Literal := do
  let hash ← hash
  let language ← found (codec.vocabulary.languages.ofHash? hash) (.unknownLanguage hash)
  return .lang (← text) language

/-- The digits before and after the point, cut out of all digits. -/
def decimalParts (d : Decimal) : Except Stop (List Char × List Char) := do
  let ds := Numeral.digits d.unscaled.natAbs
  if d.scale < ds.length then
    let split ← Machine.difference ds.length d.scale
    return (← Machine.slice ds 0 split, ← Machine.slice ds split ds.length)
  else return (['0'], Numeral.padLeft d.scale ds)

/-- The label with at least one digit after the point. -/
def decimalText (d : Decimal) : Except Stop String := do
  let (whole, fraction) ← decimalParts d
  return String.ofList ((if d.unscaled < 0 then ['-'] else []) ++ whole
    ++ '.' :: (if fraction = [] then ['0'] else fraction))

/-- Reads the scale and the unscaled number of a decimal. -/
def readDecimal : Checked Literal := do
  let scale ← varintInt
  if scale < 0 ∨ Decimal.maxScale < scale then fail (.decimalScale scale)
  else
    let unscaled ← varintInt
    return .typed (← step (decimalText ⟨unscaled, scale.toNat⟩)) Xsd.decimal

/-- Reads the rest as a literal of the given form. -/
def readLiteral (codec : Codec) : LiteralForm → Checked Literal
  | .string => readLabel Xsd.string
  | .compressedString => readCompressed
  | .tagged => readTagged
  | .taggedHash => readTaggedHash codec
  | .xml => readLabel Rdf.xmlLiteral
  | .wkt => readLabel Geo.wktLiteral
  | .no => return .ofBool false
  | .yes => return .ofBool true
  | .byte => readFixed 1 Xsd.byte
  | .short => readFixed 2 Xsd.short
  | .int => readFixed 4 Xsd.int
  | .long => readFixed 8 Xsd.long
  | .float => do return .float (← word 4)
  | .double => do return .double (← word 8)
  | .integer2 => readFixed 2 Xsd.integer
  | .integer4 => readFixed 4 Xsd.integer
  | .integer8 => readFixed 8 Xsd.integer
  | .integerText => readLabel Xsd.integer
  | .decimal => readDecimal
  | .decimalText => readLabel Xsd.decimal
  | .dateTime => do return .ofDateTime (← readDateTime)
  | .date => do return .ofDate (← readZonedDate)
  | .time => do return .ofTime (← readZonedTime)

/-! ## Terms -/

def readTag : Checked Tag := do check (Tag.ofByte (UInt8.ofNat (← byte)))

/-- Reads a literal with its datatype after the tag.  Terms in regions of their own are read by
`member`. -/
def readDatatyped (member : Bytes → Except Stop Term) : Checked Term := do
  let datatype ← step (member (← withLength))
  let datatype ← check (Codec.datatypeOf datatype)
  return .literal (.typed (← text) datatype)

/-- Reads a quoted triple after the tag.  That its predicate is an IRI is checked before the triple
is made, which refuses all others as an error of use. -/
def readTriple (member : Bytes → Except Stop Term) : Checked Term := do
  let subject ← step (member (← withLength))
  let predicate ← step (member (← withLength))
  let object ← step (member (← rest))
  let _ ← check (Codec.predicateOf predicate)
  step ((Term.ofTriple subject predicate object).mapError fun e => .failed (.usage e))

/-- Reads the rest as a term with the given tag. -/
def readPayload (codec : Codec) (member : Bytes → Except Stop Term) : Tag → Checked Term
  | .iri form => Term.iri <$> readIri codec.vocabulary form
  | .blank => Term.blank <$> text
  | .literal form => Term.literal <$> readLiteral codec form
  | .datatyped => readDatatyped member
  | .triple => readTriple member

end Checked

namespace Codec

/-- The term from a position of a byte string to its end, and the number of bytes it takes.  Terms
in regions of their own are read by `member`. -/
def decodeWith (codec : Codec) (member : Bytes → Except Stop Term) (bytes : Bytes)
    (position : Nat) : Except Stop (Term × Nat) := do
  if bytes.length < position then
    throw (.failed (.decode (.positionBeyond position bytes.length)))
  let (t, offset) ←
    (Checked.readTag >>= Checked.readPayload codec member) bytes position
  let left := bytes.length - offset
  if left ≠ 0 then throw (.failed (.decode (.trailing left)))
  return (t, ← Machine.difference offset position)

/-- The term from a position of a byte string to its end, and the number of bytes it takes, as a
machine reads them. -/
def decodeChecked (codec : Codec) (bytes : Bytes) (position : Nat) : Except Stop (Term × Nat) :=
  codec.decodeWith (fun region =>
    if region.length < bytes.length then (codec.decodeChecked region 0).map Prod.fst
    else .error .endless) bytes position
termination_by bytes.length

end Codec

end RdfIndex
