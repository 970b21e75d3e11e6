import RdfIndex.Number.Numeral
import RdfIndex.Statement.Role
import RdfIndex.Term.Printer
import RdfIndex.Text.Hex
import RdfIndex.Text.Utf8

/-!
# Why bytes cannot be read

One cause for each way in which stored bytes go wrong, from a number cut short to a cell that
disagrees with itself, and the wording of each.

Some faults are found by libraries, which word them in more detail.  Such a cause carries what the
library was given, and the detail is a function of that.
-/

namespace RdfIndex

/-- A cause for which stored bytes cannot be read. -/
inductive DecodeError where
  /-- A number ends before its last byte, at the given byte of it. -/
  | numberTruncated (index : Nat)
  /-- A number takes more than 64 bits. -/
  | numberOverflow
  /-- A number goes on after its tenth byte. -/
  | numberTooLong
  /-- Reading starts after the end of the bytes. -/
  | positionBeyond (position size : Nat)
  /-- The end of what is to be read is beyond any position. -/
  | positionOverflow
  | truncated (need left : Nat)
  | trailing (count : Nat)
  /-- A text is not UTF-8. -/
  | text (fault : Utf8.Fault)
  | emptyValue
  | unknownTag (tag : UInt8)
  /-- A code stands for no start of an IRI. -/
  | unknownStart (code : Nat)
  | unknownNamespace (hash : UInt16)
  | unknownIdNamespace (hash : UInt16)
  | unknownIri (hash : UInt16)
  | unknownLanguage (hash : UInt16)
  /-- The bytes of a local name have the wrong number for its namespace. -/
  | localSize (size : Nat) (ns : String)
  | emptyLanguage
  | datatypeNotIri (t : Term)
  | predicateNotIri (t : Term)
  /-- Bytes are no compressed text. -/
  | compressed (bytes : Bytes)
  /-- The scale of a decimal is negative or too large. -/
  | decimalScale (scale : Int)
  /-- A zone offset is too large. -/
  | zoneOffset (minutes : Int)
  /-- A number of nanoseconds is a second or more. -/
  | nanoseconds (nanos : Nat)
  /-- A number of nanoseconds is a day or more. -/
  | timeOfDay (nanos : Nat)
  /-- The seconds of a date and time leave their range when the zone is applied. -/
  | secondsOverflow
  /-- A day number takes more than 32 bits. -/
  | julianDay (day : Int)
  /-- A day number is outside the calendar. -/
  | date (day : Int)
  /-- A year is not one that labels can have. -/
  | year (year : Int)
  /-- A text is not base64url. -/
  | base64 (text : String := "")
  /-- An identifier has the wrong number of bytes. -/
  | identifierSize (size expected : Nat)
  | unknownOrder (number : Nat)
  /-- The parts of an identifier have the wrong number of bytes together. -/
  | partSize (order : Order) (role : Role) (size expected : Nat)
  /-- A row has the wrong number of bytes or the wrong first byte. -/
  | row (order : Order) (size expected : Nat)
  /-- A qualifier has the wrong number of bytes. -/
  | qualifier (order : Order) (size : Nat)
  /-- No identifier stands in a cell for a role other than the context. -/
  | roleMissing (order : Order)
  /-- Only one of the identifiers and the value of a cell has a context. -/
  | context (order : Order)
deriving DecidableEq

/-- A hash of sixteen bits as it is shown. -/
def showHash (hash : UInt16) : String := "0x" ++ Hex.ofNat 4 hash.toNat

namespace DecodeError

/-- The wording of a cause, without the details that a library adds. -/
def message : DecodeError → String
  | numberTruncated index => s!"varint decode truncated at byte {index}"
  | numberOverflow => "varint overflow (more than 64 bits)"
  | numberTooLong => "varint too long (exceeded 10 bytes)"
  | positionBeyond position size => s!"position {position} beyond buffer of {size} bytes"
  | positionOverflow => "cursor offset overflow"
  | truncated need left => s!"payload truncated: need {need} bytes, remaining {left}"
  | trailing count => s!"{count} trailing bytes after encoded value"
  | text f => "invalid UTF-8: " ++ f.message
  | emptyValue => "empty encoded value"
  | unknownTag tag => "unknown type tag 0x" ++ Hex.ofNat 2 tag.toNat
  | unknownStart code => s!"unknown IRI prefix code {code}"
  | unknownNamespace hash => "unknown namespace hash " ++ showHash hash
  | unknownIdNamespace hash => "unknown identifier namespace hash " ++ showHash hash
  | unknownIri hash => "unknown well-known IRI hash " ++ showHash hash
  | unknownLanguage hash => "unknown language hash " ++ showHash hash
  | localSize size ns => s!"identifier of {size} bytes does not fit namespace {ns}"
  | emptyLanguage => "empty language tag"
  | datatypeNotIri t => "datatype is not an IRI: " ++ t.text
  | predicateNotIri t => "quoted triple predicate is not an IRI: " ++ t.text
  | compressed _ => "invalid compressed string"
  | decimalScale scale => "decimal scale " ++ Numeral.text scale ++ " out of range"
  | zoneOffset minutes => "zone offset " ++ Numeral.text minutes ++ " minutes out of range"
  | nanoseconds nanos => s!"nanoseconds {nanos} out of range"
  | timeOfDay nanos => s!"time of day {nanos}ns out of range"
  | secondsOverflow => "date-time seconds overflow"
  | julianDay day => "julian day " ++ Numeral.text day ++ " out of range"
  | date _ => "invalid date"
  | year y => "year " ++ Numeral.text y ++ " out of range"
  | base64 _ => "invalid base64url"
  | identifierSize size expected => s!"identifier of {size} bytes, expected {expected}"
  | unknownOrder number => s!"unknown index prefix {number}"
  | partSize order role size expected =>
    s!"{order.name} {role.name}: {size} identifier bytes, expected {expected}"
  | row order size expected =>
    s!"{order.name} row of {size} bytes, expected {expected} starting with {order.number}"
  | qualifier order size => s!"{order.name} qualifier of {size} bytes"
  | roleMissing order => s!"{order.name} cell misses a role"
  | context order => s!"{order.name} cell disagrees with its value about the context"

/-- How libraries word the faults that they find. -/
structure Details where
  /-- For bytes that are no compressed text. -/
  compressed : Bytes → String
  /-- For a day number outside the calendar. -/
  date : Int → String
  /-- For a text that is not base64url. -/
  base64 : String → String

/-- The detail of a cause that a library has found. -/
def detail? (details : Details) : DecodeError → Option String
  | compressed bytes => some (details.compressed bytes)
  | date day => some (details.date day)
  | base64 source => some (details.base64 source)
  | _ => none

/-- The wording of a cause.  Its detail follows a colon. -/
def fullMessage (details : Details) (e : DecodeError) : String :=
  match e.detail? details with
  | some detail => e.message ++ ": " ++ detail
  | none => e.message

end DecodeError

end RdfIndex
