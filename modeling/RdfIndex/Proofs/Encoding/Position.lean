import RdfIndex.Proofs.Bytes.Moves
import RdfIndex.Proofs.Encoding.Buffer
import RdfIndex.Proofs.Encoding.Checked

/-!
# The place of a term in a buffer

A term is read alike wherever it stands in a buffer, but for the lengths in it that are counted from
the start of the buffer.  These are the lengths of its own: of the language or the datatype of a
literal, of the subject of a triple, and of its predicate if the subject in front of it decodes.  If
it does not, reading ends with the error of the subject and never comes to the predicate.  All other
lengths are in regions that start anew.  So there is one length at the most that can reach beyond
the region (`Codec.overrun?`), and two cases:

* it has a position for its end, and the term is read alike (`moves_read`);
* it has none, and reading fails where the length is (`failsAt_read`).

`Codec.decode_append` puts them together for decoding from a position, and
`Codec.read_and_written_anywhere` adds what is written into a buffer.
-/

namespace RdfIndex

open Reader

variable {position : Nat} {c : Cursor}

/-! ## Forms -/

theorem moves_readIdentifierIri (h : c.Fits position) (v : Vocabulary) (slash : Bool) :
    Moves position c (v.readIdentifierIri slash) := by
  refine (moves_hash h).bind fun hash _ _ h => ?_
  refine (moves_found h _ _).bind fun n _ _ h => ?_
  refine (moves_rest h).bind fun bytes _ _ h => ?_
  exact (moves_pure h _).ite (moves_fail _)

theorem moves_readIri (h : c.Fits position) (v : Vocabulary) (form : IriForm) :
    Moves position c (v.readIri form) := by
  cases form with
  | whole => exact moves_text h
  | afterStart =>
    refine (moves_word h (by decide)).bind fun code _ _ h => ?_
    refine (moves_found h _ _).bind fun start _ _ h => ?_
    exact (moves_text h).ret (start ++ ·)
  | inNamespace =>
    refine (moves_hash h).bind fun hash _ _ h => ?_
    refine (moves_found h _ _).bind fun ns _ _ h => ?_
    exact (moves_text h).ret (ns ++ ·)
  | identifier => exact moves_readIdentifierIri h v false
  | identifierSlash => exact moves_readIdentifierIri h v true
  | wellKnown => exact (moves_hash h).bind fun hash _ _ h => moves_found h _ _

namespace Calendar

theorem moves_readZone (h : c.Fits position) : Moves position c readZone := by
  refine (moves_int h (by decide)).bind fun minutes _ _ h => ?_
  exact (moves_pure h _).ite ((moves_fail _).ite (moves_pure h _))

theorem moves_readDateTime (h : c.Fits position) : Moves position c DateTime.read := by
  refine (moves_int h (by decide)).bind fun seconds _ _ h => ?_
  refine (moves_word h (by decide)).bind fun nanos _ _ h => ?_
  exact (moves_readZone h).bind fun zone _ _ h => moves_check h _

theorem moves_readZonedDate (h : c.Fits position) : Moves position c ZonedDate.read := by
  refine (moves_int h (by decide)).bind fun day _ _ h => ?_
  refine (moves_readZone h).bind fun zone _ _ h => ?_
  exact (moves_check h (dateOfDay day)).ret fun date => ZonedDate.mk date zone

theorem moves_readZonedTime (h : c.Fits position) : Moves position c ZonedTime.read := by
  refine (moves_word h (by decide)).bind fun nanos _ _ h => ?_
  refine (moves_check h (timeOfNanos nanos)).bind fun time _ _ h => ?_
  exact (moves_readZone h).ret (ZonedTime.mk time)

end Calendar

namespace Codec

open Calendar (moves_readDateTime moves_readZonedDate moves_readZonedTime)

theorem moves_readFixed (h : c.Fits position) {width : Nat} (hwidth : width ≤ 8)
    (datatype : String) : Moves position c (readFixed width datatype) :=
  (moves_int h hwidth).ret fun i => Literal.ofInt i datatype

theorem moves_readLabel (h : c.Fits position) (datatype : String) :
    Moves position c (readLabel datatype) :=
  (moves_text h).ret fun label => Literal.typed label datatype

theorem moves_readCompressed (h : c.Fits position) : Moves position c readCompressed := by
  refine (moves_rest h).bind fun compressed _ _ h => ?_
  refine (moves_found h _ _).bind fun bytes _ _ h => ?_
  exact (moves_check h (textOf bytes)).ret Literal.string

theorem moves_readTagged (h : c.Fits position)
    (hover : ∀ stop ∈ Reader.overrun? c, position + stop < positionLimit) :
    Moves position c readTagged := by
  refine (moves_withLength h hover).bind fun bytes _ _ h => ?_
  refine (moves_check h (textOf bytes)).bind fun language _ _ h => ?_
  exact (moves_fail _).ite ((moves_text h).ret fun label => Literal.lang label language)

theorem moves_readTaggedHash (h : c.Fits position) (codec : Codec) :
    Moves position c codec.readTaggedHash := by
  refine (moves_hash h).bind fun hash _ _ h => ?_
  refine (moves_found h _ _).bind fun language _ _ h => ?_
  exact (moves_text h).ret fun label => Literal.lang label language

theorem moves_readDecimal (h : c.Fits position) : Moves position c readDecimal := by
  refine (moves_varintInt h).bind fun scale _ _ h => ?_
  refine (moves_fail _).ite ((moves_varintInt h).bind fun unscaled _ _ h => ?_)
  exact moves_pure h _

/-- The length in a literal is that of its language. -/
theorem moves_readLiteral (h : c.Fits position) (codec : Codec) (form : LiteralForm)
    (hover : form = .tagged → ∀ stop ∈ Reader.overrun? c, position + stop < positionLimit) :
    Moves position c (codec.readLiteral form) := by
  cases form with
  | string => exact moves_readLabel h Xsd.string
  | compressedString => exact moves_readCompressed h
  | tagged => exact moves_readTagged h (hover rfl)
  | taggedHash => exact moves_readTaggedHash h codec
  | xml => exact moves_readLabel h Rdf.xmlLiteral
  | wkt => exact moves_readLabel h Geo.wktLiteral
  | no => exact moves_pure h (Literal.ofBool false)
  | yes => exact moves_pure h (Literal.ofBool true)
  | byte => exact moves_readFixed h (by decide) Xsd.byte
  | short => exact moves_readFixed h (by decide) Xsd.short
  | int => exact moves_readFixed h (by decide) Xsd.int
  | long => exact moves_readFixed h (by decide) Xsd.long
  | float => exact (moves_word h (by decide)).ret Literal.float
  | double => exact (moves_word h (by decide)).ret Literal.double
  | integer2 => exact moves_readFixed h (by decide) Xsd.integer
  | integer4 => exact moves_readFixed h (by decide) Xsd.integer
  | integer8 => exact moves_readFixed h (by decide) Xsd.integer
  | integerText => exact moves_readLabel h Xsd.integer
  | decimal => exact moves_readDecimal h
  | decimalText => exact moves_readLabel h Xsd.decimal
  | dateTime => exact (moves_readDateTime h).ret Literal.ofDateTime
  | date => exact (moves_readZonedDate h).ret Literal.ofDate
  | time => exact (moves_readZonedTime h).ret Literal.ofTime

/-! ## Terms -/

theorem moves_readTag (h : c.Fits position) : Moves position c readTag :=
  (moves_word h (by decide)).bind fun b _ _ h => moves_check h (Tag.ofByte (UInt8.ofNat b))

/-- Where the length of the subject of a triple would end, if it reaches beyond the region, and else
where the length of the predicate would, which is read only after a subject that decodes. -/
def tripleOverrun? (codec : Codec) (c : Cursor) : Option Nat :=
  match withLength c with
  | (.ok subject, c) => (codec.readValue subject).toOption.bind fun _ => Reader.overrun? c
  | (.error _, _) => Reader.overrun? c

/-- Where a length after a tag that reaches beyond the region would end. -/
def payloadOverrun? (codec : Codec) (tag : Tag) (c : Cursor) : Option Nat :=
  match tag with
  | .literal .tagged => Reader.overrun? c
  | .datatyped => Reader.overrun? c
  | .triple => codec.tripleOverrun? c
  | _ => none

/-- Where the first length of a term that reaches beyond its region would end. -/
def overrun? (codec : Codec) (c : Cursor) : Option Nat :=
  match readTag c with
  | (.ok tag, c) => codec.payloadOverrun? tag c
  | (.error _, _) => none

variable {codec : Codec} {stop : Nat} {c' : Cursor}

theorem overrun?_of_readTag {tag : Tag} (h : readTag c = (.ok tag, c')) :
    codec.overrun? c = codec.payloadOverrun? tag c' := by
  rw [overrun?, h]

theorem tripleOverrun?_of_ok {bytes : Bytes} (h : withLength c = (.ok bytes, c')) :
    codec.tripleOverrun? c
      = (codec.readValue bytes).toOption.bind fun _ => Reader.overrun? c' := by
  rw [tripleOverrun?, h]

theorem tripleOverrun?_of_error {e : DecodeError} (h : withLength c = (.error e, c')) :
    codec.tripleOverrun? c = Reader.overrun? c := by
  rw [tripleOverrun?, h]

/-- Bytes that were taken with their length end inside the region. -/
theorem overrun?_of_withLength {bytes : Bytes} (h : withLength c = (.ok bytes, c')) :
    Reader.overrun? c = none := by
  cases hover : Reader.overrun? c with
  | none => rfl
  | some stop =>
    obtain ⟨e, c', hread, _⟩ := withLength_of_overrun hover
    rw [h] at hread
    cases hread

/-! ### Alike -/

theorem moves_readDatatyped (h : c.Fits position) {member : Bytes → Except DecodeError Term}
    (hover : ∀ stop ∈ Reader.overrun? c, position + stop < positionLimit) :
    Moves position c (readDatatyped member) := by
  refine (moves_withLength h hover).bind fun bytes _ _ h => ?_
  refine (moves_check h (member bytes)).bind fun datatype _ _ h => ?_
  refine (moves_check h (datatypeOf datatype)).bind fun datatype _ _ h => ?_
  exact (moves_text h).ret fun label => Term.literal (.typed label datatype)

/-- The length of the subject matters, and that of the predicate if there is a subject. -/
theorem moves_readTriple (h : c.Fits position)
    (hover : ∀ stop ∈ codec.tripleOverrun? c, position + stop < positionLimit) :
    Moves position c (readTriple codec.readValue) := by
  have hsubject : ∀ stop ∈ Reader.overrun? c, position + stop < positionLimit := by
    intro stop hstop
    obtain ⟨e, c', hread, _⟩ := withLength_of_overrun hstop
    exact hover stop (tripleOverrun?_of_error hread ▸ hstop)
  refine (moves_withLength h hsubject).bind fun bytes c' hbytes h => ?_
  refine (moves_check h (codec.readValue bytes)).bind fun subject c2 hchecked h => ?_
  obtain ⟨hread, rfl⟩ := Prod.mk.inj hchecked
  -- From here on the length is that of the predicate.
  rw [tripleOverrun?_of_ok hbytes, hread] at hover
  refine (moves_withLength h hover).bind fun bytes _ _ h => ?_
  refine (moves_check h (codec.readValue bytes)).bind fun predicate _ _ h => ?_
  refine (moves_rest h).bind fun bytes _ _ h => ?_
  refine (moves_check h (codec.readValue bytes)).bind fun object _ _ h => ?_
  exact (moves_check h (predicateOf predicate)).ret fun p => Term.triple subject p object

theorem moves_readPayload (h : c.Fits position) (tag : Tag)
    (hover : ∀ stop ∈ codec.payloadOverrun? tag c, position + stop < positionLimit) :
    Moves position c (codec.readPayload codec.readValue tag) := by
  cases tag with
  | iri form => exact (moves_readIri h codec.vocabulary form).map Term.iri
  | blank => exact (moves_text h).map Term.blank
  | literal form =>
    refine (moves_readLiteral h codec form ?_).map Term.literal
    rintro rfl
    exact hover
  | datatyped => exact moves_readDatatyped h hover
  | triple => exact moves_readTriple h hover

/-- A term is read alike, unless one of its lengths has no position for its end. -/
theorem moves_read (h : c.Fits position)
    (hover : ∀ stop ∈ codec.overrun? c, position + stop < positionLimit) :
    Moves position c codec.read := by
  have hmoves : Moves position c (readTag >>= codec.readPayload codec.readValue) := by
    refine (moves_readTag h).bind fun tag c' htag h => moves_readPayload h tag ?_
    rwa [← overrun?_of_readTag htag]
  rwa [Moves, ← read_eq, ← read_eq] at hmoves

/-! ### Refused -/

/-- A reader that comes to bytes with their length at a place of its region fails as they do,
wherever the region stands.  What comes after the bytes is not told. -/
def FailsAt (c c' : Cursor) (r : Reader Term) : Prop :=
  ∀ position, c.Fits position → c'.Fits position
    ∧ ∀ e c2, withLength (c'.after position) = (.error e, c2) →
      r (c.after position) = (.error e, c2)

theorem failsAt_readTriple (hover : codec.tripleOverrun? c = some stop) :
    ∃ c', Reader.overrun? c' = some stop ∧ FailsAt c c' (readTriple codec.readValue) := by
  cases hsubject : withLength c with
  | mk result c' =>
    cases result with
    | error e =>
      rw [tripleOverrun?_of_error hsubject] at hover
      exact ⟨c, hover, fun position h => ⟨h, fun e c2 herror => bind_error herror⟩⟩
    | ok bytes =>
      have hnone := overrun?_of_withLength hsubject
      rw [tripleOverrun?_of_ok hsubject] at hover
      cases hread : codec.readValue bytes with
      | error e =>
        rw [hread] at hover
        cases hover
      | ok subject =>
        -- The subject is inside the region, so it is read alike, and the predicate is not.
        rw [hread] at hover
        refine ⟨c', hover, fun position h => ?_⟩
        obtain ⟨hmoved, h⟩ := (moves_withLength h (by rw [hnone]; nofun)).of_ok hsubject
        refine ⟨h, fun e c2 herror => ?_⟩
        rw [readTriple, bind_ok hmoved, check_ok_bind hread]
        exact bind_error herror

theorem failsAt_readPayload {tag : Tag} (hover : codec.payloadOverrun? tag c = some stop) :
    ∃ c', Reader.overrun? c' = some stop
      ∧ FailsAt c c' (codec.readPayload codec.readValue tag) := by
  cases tag with
  | iri form => cases hover
  | blank => cases hover
  | literal form =>
    cases form with
    | tagged =>
      exact ⟨c, hover, fun position h => ⟨h, fun e c2 herror => bind_error (bind_error herror)⟩⟩
    | _ => cases hover
  | datatyped => exact ⟨c, hover, fun position h => ⟨h, fun e c2 herror => bind_error herror⟩⟩
  | triple => exact failsAt_readTriple hover

theorem failsAt_read (hover : codec.overrun? c = some stop) :
    ∃ c', Reader.overrun? c' = some stop ∧ FailsAt c c' codec.read := by
  cases htag : readTag c with
  | mk result c1 =>
    cases result with
    | error e =>
      rw [overrun?, htag] at hover
      cases hover
    | ok tag =>
      rw [overrun?_of_readTag htag] at hover
      obtain ⟨c', hover, hfails⟩ := failsAt_readPayload hover
      refine ⟨c', hover, fun position h => ?_⟩
      obtain ⟨hmoved, h⟩ := (moves_readTag h).of_ok htag
      refine ⟨(hfails position h).1, fun e c2 herror => ?_⟩
      rw [read_eq, bind_ok hmoved]
      exact (hfails position h).2 e c2 herror

/-! ## Decoding from a position -/

theorem finish_eq_of_matches {α : Type} {moved outcome : Except DecodeError α × Cursor}
    (h : Matches position moved outcome) : finish moved = finish outcome := by
  cases h with
  | read a h => rfl
  | refused e c c' => rfl

/-- A length of the term reaches beyond its region, and from the position on beyond all
positions. -/
def overruns (codec : Codec) (position : Nat) (bytes : Bytes) : Bool :=
  (codec.overrun? (.start bytes)).any fun stop => decide (positionLimit ≤ position + stop)

/-- The length of a predicate does not matter after a subject that does not decode. -/
example : Codec.standard.overruns 1
    [0x18, 1, 0xFF, 0xF4, 0xFF, 0xFF, 0xFF, 0xFF, 0xFF, 0xFF, 0xFF, 0xFF, 0x01] = false := by
  decide +kernel

theorem finish_read_after {bytes : Bytes} (h : (Cursor.start bytes).Fits position) :
    finish (codec.read ((Cursor.start bytes).after position))
      = if codec.overruns position bytes then .error .positionOverflow
        else codec.readValue bytes := by
  cases hover : codec.overruns position bytes with
  | true =>
    obtain ⟨stop, hstop, hlimit⟩ := (Option.any_eq_true _ _).1 hover
    obtain ⟨c', hfirst, hfails⟩ := failsAt_read hstop
    obtain ⟨h, hfails⟩ := hfails position h
    obtain ⟨c2, herror⟩ := withLength_after h hfirst (of_decide_eq_true hlimit)
    rw [hfails _ _ herror]
    rfl
  | false =>
    have hbelow : ∀ stop ∈ codec.overrun? (.start bytes), position + stop < positionLimit := by
      intro stop hstop
      rw [← Nat.not_le]
      intro hlimit
      rw [overruns, Option.mem_def.1 hstop, Option.any_some, decide_eq_true hlimit] at hover
      cases hover
    exact finish_eq_of_matches (moves_read h hbelow)

/-- What is decoded after some bytes is what is decoded without them, unless a length has no
position for its end. -/
theorem decode_append (codec : Codec) {before bytes : Bytes}
    (h : (before ++ bytes).length < sizeLimit) :
    codec.decode (before ++ bytes) before.length
      = if codec.overruns before.length bytes then .error .positionOverflow
        else codec.decode bytes 0 := by
  have hfits : (Cursor.start bytes).Fits before.length := by
    show before.length + (0 + bytes.length) < sizeLimit
    rwa [Nat.zero_add, ← List.length_append]
  have hafter : Cursor.at? (before ++ bytes) before.length
      = .ok ((Cursor.start bytes).after before.length) := by
    rw [Cursor.at?, if_neg (by rw [List.length_append]; omega), List.drop_left]
    rfl
  have hlength : (before ++ bytes).length - before.length = bytes.length := by
    rw [List.length_append, Nat.add_sub_cancel_left]
  rw [decode, hafter, ok_bind, finish_read_after hfits, hlength]
  cases codec.overruns before.length bytes with
  | true => rfl
  | false => rfl

/-- What is refused after some bytes because of a length is refused without them as well. -/
theorem decode_of_overruns {bytes : Bytes} (h : bytes.length < sizeLimit)
    (hover : codec.overruns position bytes = true) :
    ∃ e, codec.decode bytes 0 = .error e
      ∧ (e = .positionOverflow ∨ ∃ need left, e = .truncated need left) := by
  obtain ⟨stop, hstop, _⟩ := (Option.any_eq_true _ _).1 hover
  obtain ⟨c', hfirst, hfails⟩ := failsAt_read hstop
  have hfits : (Cursor.start bytes).Fits 0 := by
    show 0 + (0 + bytes.length) < sizeLimit
    omega
  have hsame : ∀ c : Cursor, c.after 0 = c :=
    fun c => congrArg (Cursor.mk · c.rest) (Nat.zero_add _)
  obtain ⟨e, c2, herror, hcause⟩ := withLength_of_overrun hfirst
  obtain ⟨_, hfails⟩ := hfails 0 hfits
  rw [hsame, hsame] at hfails
  refine ⟨e, ?_, hcause⟩
  rw [decode, Cursor.at?, if_neg (Nat.not_lt_zero _), List.drop_zero, ok_bind]
  show (finish (codec.read (.start bytes)) >>= _) = _
  rw [hfails e c2 herror]
  rfl

/-- What is read and what is written does not depend on the place in a buffer, but for the error of
a length that leaves all positions.  For every vocabulary, all bytes before and every byte string
after them that a machine can hold together, decoding from the end of the first gives what decoding
the second alone gives, the same error with the same wording included, unless a length of the term
reaches beyond the bytes and from there beyond all positions.  The length of the predicate of a
triple counts only if the subject in front of it decodes.  Where there is such a length, it is the
error that is reported, and the second alone is refused as well, for that length.  For every term
and every buffer, writing the term into the buffer fails as encoding the term fails, and else leaves
the bytes of the buffer as they are, adds the encoded form of the term and gives its place. -/
theorem read_and_written_anywhere (codec : Codec) (before bytes : Bytes)
    (hlength : (before ++ bytes).length < sizeLimit) :
    codec.decode (before ++ bytes) before.length
        = (if codec.overruns before.length bytes then .error .positionOverflow
          else codec.decode bytes 0)
      ∧ codec.decodeChecked (before ++ bytes) before.length
        = (if codec.overruns before.length bytes then .error (.failed (.decode .positionOverflow))
          else codec.decodeChecked bytes 0)
      ∧ (∀ details, (codec.decode (before ++ bytes) before.length).mapError (·.fullMessage details)
        = if codec.overruns before.length bytes then .error "cursor offset overflow"
          else (codec.decode bytes 0).mapError (·.fullMessage details))
      ∧ (codec.overruns before.length bytes = true → ∃ e, codec.decode bytes 0 = .error e
        ∧ (e = .positionOverflow ∨ ∃ need left, e = .truncated need left))
      ∧ ∀ (t : Term) (buffer : Bytes), codec.encodeInto t buffer = (codec.encode t).map fun e =>
        (buffer ++ e.bytes, buffer.length, buffer.length + e.bytes.length) := by
  have hbytes : bytes.length < sizeLimit := by
    rw [List.length_append] at hlength
    omega
  have hlimit : ∀ {n : Nat}, n < sizeLimit → n < positionLimit :=
    fun h => Nat.lt_trans h (by decide)
  have hdecode := codec.decode_append hlength
  refine ⟨hdecode, ?_, fun details => ?_, decode_of_overruns hbytes, codec.encodeInto_eq⟩
  · rw [codec.decodeChecked_eq (hlimit hlength), codec.decodeChecked_eq (hlimit hbytes), hdecode]
    cases codec.overruns before.length bytes with
    | true => rfl
    | false => rfl
  · rw [hdecode]
    cases codec.overruns before.length bytes with
    | true => rfl
    | false => rfl

/-- A triple whose subject has a length that leaves it the greatest of all positions for its end. -/
def endlessTriple : Bytes :=
  [0x18, 0xF4, 0xFF, 0xFF, 0xFF, 0xFF, 0xFF, 0xFF, 0xFF, 0xFF, 0x01]

/-- A length that ends at the greatest position is refused for the bytes that are missing, and one
byte later for its end. -/
theorem decode_endlessTriple :
    Codec.standard.decode endlessTriple 0 = .error (.truncated 18446744073709551604 0)
      ∧ Codec.standard.decode ([0] ++ endlessTriple) 1 = .error .positionOverflow
      ∧ DecodeError.message (.truncated 18446744073709551604 0)
        ≠ DecodeError.message .positionOverflow := by
  have htag : readTag (.start endlessTriple) = (.ok .triple, ⟨1, endlessTriple.tail⟩) := rfl
  have hlength : withLength ⟨1, endlessTriple.tail⟩
      = (.error (.truncated 18446744073709551604 0), ⟨11, []⟩) := rfl
  have hread : Codec.standard.read (.start endlessTriple)
      = (.error (.truncated 18446744073709551604 0), ⟨11, []⟩) := by
    rw [read_eq, bind_ok htag]
    exact bind_error hlength
  have hover : Codec.standard.overruns 1 endlessTriple = true := by decide +kernel
  refine ⟨?_, (Codec.standard.decode_append (by decide)).trans (if_pos hover), by decide +kernel⟩
  rw [decode, Cursor.at?, if_neg (Nat.not_lt_zero _), ok_bind]
  exact congrArg (fun outcome => finish outcome >>= _) hread

/-- A triple is read after a byte that does not belong to it as it is read without it, a length that
ends after all positions is refused there, and a blank node is written after two bytes. -/
theorem read_and_written_anywhere_triple :
    (Codec.standard.decode ([0] ++ [0x18, 2, 0x10, 0x62, 3, 0x02, 0x06, 0x70, 0x10, 0x6F])
        1).toOption = some (.triple (.blank "b") "urn:p" (.blank "o"), 10)
      ∧ Codec.standard.decodeChecked ([0] ++ endlessTriple) 1
        = .error (.failed (.decode .positionOverflow))
      ∧ Codec.standard.encodeInto (.blank "b") [0, 1] = .ok ([0, 1, 0x10, 0x62], 2, 4) := by
  obtain ⟨hread, _, _, _, hwritten⟩ := Codec.standard.read_and_written_anywhere [0]
    [0x18, 2, 0x10, 0x62, 3, 0x02, 0x06, 0x70, 0x10, 0x6F] (by decide)
  obtain ⟨_, hrefused, _⟩ :=
    Codec.standard.read_and_written_anywhere [0] endlessTriple (by decide)
  refine ⟨(congrArg Except.toOption hread).trans (by decide +kernel), hrefused.trans ?_,
    (hwritten _ _).trans rfl⟩
  exact if_pos (by decide +kernel)

end Codec

end RdfIndex
