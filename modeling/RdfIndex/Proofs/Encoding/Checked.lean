import RdfIndex.Encoding.Checked
import RdfIndex.Proofs.Bytes.Checked
import RdfIndex.Proofs.Encoding.Moment

/-!
# A machine decodes without a fault

Decoding with the numbers of a machine does what decoding does (`decodeChecked_eq`): each form is
mirrored, and so is a term whose members are read in regions of their own, since these are shorter
than the region they are in.  So a machine decodes every byte string to a value that takes all bytes
from the position on, or reports an error of decoding (`decodeChecked_total`): no number overflows,
nothing outside a region is read, no region is read without end, and no triple is refused as an
error of use.

What the forms compute stays in range because of what was checked before: the offset of a zone is
one that labels can have, so the seconds that it stands for are few; seconds in eight bytes make a
day number that is far below the limit; nanoseconds are those of one day.
-/

namespace RdfIndex

namespace Checked

open Calendar

variable {region : Bytes} {offset : Nat}

/-! ## IRIs -/

theorem mirrors_hash (h : Inside region offset) : Mirrors region offset hash Reader.hash :=
  (mirrors_word h 2).ret UInt16.ofNat

theorem mirrors_readIdentifierIri (h : Inside region offset) (v : Vocabulary) (slash : Bool) :
    Mirrors region offset (readIdentifierIri v slash) (v.readIdentifierIri slash) := by
  refine (mirrors_hash h).bind fun hash _ _ h => ?_
  refine (mirrors_found h _ _).bind fun n _ _ h => ?_
  refine (mirrors_rest h).bind fun bytes _ _ h => ?_
  exact (mirrors_pure h _).ite (mirrors_fail h _)

theorem mirrors_readIri (h : Inside region offset) (v : Vocabulary) (form : IriForm) :
    Mirrors region offset (readIri v form) (v.readIri form) := by
  cases form with
  | whole => exact mirrors_text h
  | afterStart =>
    refine (mirrors_byte h).bind fun code _ _ h => ?_
    refine (mirrors_found h _ _).bind fun start _ _ h => ?_
    exact (mirrors_text h).ret (start ++ ·)
  | inNamespace =>
    refine (mirrors_hash h).bind fun hash _ _ h => ?_
    refine (mirrors_found h _ _).bind fun ns _ _ h => ?_
    exact (mirrors_text h).ret (ns ++ ·)
  | identifier => exact mirrors_readIdentifierIri h v false
  | identifierSlash => exact mirrors_readIdentifierIri h v true
  | wellKnown => exact (mirrors_hash h).bind fun hash _ _ h => mirrors_found h _ _

/-! ## Dates and times -/

theorem mirrors_readZone (h : Inside region offset) :
    Mirrors region offset readZone Calendar.readZone := by
  refine (mirrors_int h 2).bind fun minutes _ _ h => ?_
  exact (mirrors_pure h _).ite ((mirrors_fail h _).ite (mirrors_pure h _))

/-- The fields of a time of day fit one byte each, and its nanoseconds four. -/
theorem timeOfNanos_eq (nanos : Nat) :
    timeOfNanos nanos = Stop.ofDecode (Calendar.timeOfNanos nanos) := by
  have hnano : nanos % nanosPerSecond < nanosPerSecond := Nat.mod_lt _ (by decide)
  rw [timeOfNanos, Calendar.timeOfNanos, TimeOfDay.ofNanos?]
  generalize nanos / nanosPerSecond = seconds
  generalize nanos % nanosPerSecond = nano at hnano ⊢
  rw [nanosPerSecond] at hnano
  by_cases hday : secondsPerDay ≤ seconds
  · have hnone : TimeOfDay.of? (seconds / 3600) (seconds / 60 % 60) (seconds % 60) nano = none := by
      rw [secondsPerDay] at hday
      have hhour : ¬ seconds / 3600 < 24 := by omega
      refine dif_neg ?_
      simp [isTimeOfDay, hhour]
    simp only [hnone, if_pos hday]
    rfl
  · rw [secondsPerDay] at hday
    have hhour : seconds / 3600 % 256 = seconds / 3600 := Nat.mod_eq_of_lt (by omega)
    have hminute : seconds / 60 % 60 % 256 = seconds / 60 % 60 := Nat.mod_eq_of_lt (by omega)
    have hsecond : seconds % 60 % 256 = seconds % 60 := Nat.mod_eq_of_lt (by omega)
    have hfour : nano % Nat.pow 256 4 = nano := Nat.mod_eq_of_lt (by rw [Nat.pow_eq]; omega)
    simp only [hhour, hminute, hsecond, hfour, secondsPerDay, if_neg hday]
    cases TimeOfDay.of? (seconds / 3600) (seconds / 60 % 60) (seconds % 60) nano <;> rfl

theorem isZone_of_readZone {c c' : Cursor} {zone : Option Int}
    (h : Calendar.readZone c = (.ok zone, c')) : IsZone zone := by
  obtain ⟨minutes, c1, _, h⟩ := Reader.of_bind_ok h
  intro m hm
  cases hm
  split at h
  · cases h
  · split at h
    · cases h
    · next hsmall =>
      cases h
      exact Int.not_lt.1 hsmall

/-- The seconds of an offset are in range. -/
theorem signed_zone {zone : Option Int} (h : IsZone zone) :
    Machine.signed 8 (zone.getD 0 * 60) = .ok (zone.getD 0 * 60) := by
  have hbounds := offset_bounds h
  exact if_pos (fits_eight (by omega) (by omega))

/-- The number of a day is in range if the seconds are. -/
theorem signed_day {seconds : Int} (h : Integer.fits 8 seconds = true) :
    Machine.signed 8 (seconds / secondsPerDay + epochDay)
      = .ok (seconds / secondsPerDay + epochDay) := by
  have hpow : Nat.pow 256 8 = 18446744073709551616 := rfl
  simp only [Integer.fits, Bool.and_eq_true, decide_eq_true_eq, hpow] at h
  refine if_pos ?_
  simp only [Integer.fits, Bool.and_eq_true, decide_eq_true_eq, hpow, secondsPerDay, epochDay]
  omega

/-- The nanoseconds of a day are in range. -/
theorem unsigned_nanos {nanos : Nat} (h : ¬ nanosPerSecond ≤ nanos) (seconds : Int) :
    ∃ whole, Machine.unsigned 8 ((seconds % secondsPerDay).toNat * nanosPerSecond) = .ok whole
      ∧ Machine.unsigned 8 (whole + nanos)
        = .ok ((seconds % secondsPerDay).toNat * nanosPerSecond + nanos) := by
  have hpow : Nat.pow 256 8 = 18446744073709551616 := rfl
  have hday : (seconds % secondsPerDay).toNat < 86400 := by
    rw [secondsPerDay]
    omega
  rw [nanosPerSecond] at h ⊢
  exact ⟨_, if_pos (by omega), if_pos (by omega)⟩

theorem dateTimeOf_eq {seconds : Int} {nanos : Nat} {zone : Option Int} (hzone : IsZone zone) :
    dateTimeOf seconds nanos zone = Stop.ofDecode (Calendar.dateTimeOf seconds nanos zone) := by
  rw [dateTimeOf, Calendar.dateTimeOf]
  by_cases hnanos : nanosPerSecond ≤ nanos
  · simp only [if_pos hnanos]
    rfl
  · simp only [if_neg hnanos, signed_zone hzone]
    show (if !Integer.fits 8 (seconds + zone.getD 0 * 60) then _ else _ : Except Stop DateTime)
      = Stop.ofDecode (if !Integer.fits 8 (seconds + zone.getD 0 * 60) then _ else _)
    generalize seconds + zone.getD 0 * 60 = inZone
    cases hfits : Integer.fits 8 inZone with
    | false => rfl
    | true =>
      obtain ⟨whole, hwhole, hsum⟩ := unsigned_nanos hnanos inZone
      show Except.bind _ _ = Stop.ofDecode (_ >>= _)
      rw [Stop.ofDecode_bind, signed_day hfits]
      refine congrArg (Stop.ofDecode (dateOfDay (inZone / secondsPerDay + epochDay)) >>= ·) ?_
      funext date
      rw [hwhole, ok_bind, hsum, ok_bind, timeOfNanos_eq, Stop.ofDecode_bind]
      rfl

theorem mirrors_readDateTime (h : Inside region offset) :
    Mirrors region offset readDateTime DateTime.read := by
  refine (mirrors_int h 8).bind fun seconds _ _ h => ?_
  refine (mirrors_word h 4).bind fun nanos _ _ h => ?_
  refine (mirrors_readZone h).bind fun zone _ hzone h => ?_
  exact mirrors_step h (dateTimeOf_eq (isZone_of_readZone hzone))

theorem mirrors_readZonedDate (h : Inside region offset) :
    Mirrors region offset readZonedDate ZonedDate.read := by
  refine (mirrors_int h 4).bind fun day _ _ h => ?_
  refine (mirrors_readZone h).bind fun zone _ _ h => ?_
  exact (mirrors_check h (dateOfDay day)).ret fun date => ZonedDate.mk date zone

theorem mirrors_readZonedTime (h : Inside region offset) :
    Mirrors region offset readZonedTime ZonedTime.read := by
  refine (mirrors_word h 8).bind fun nanos _ _ h => ?_
  refine (mirrors_step h (timeOfNanos_eq nanos)).bind fun time _ _ h => ?_
  exact (mirrors_readZone h).ret (ZonedTime.mk time)

/-! ## Literals -/

/-- The digits are cut between the first and the last of them. -/
theorem decimalParts_eq (d : Decimal) : decimalParts d = .ok d.parts := by
  rw [decimalParts, Decimal.parts]
  by_cases hscale : d.scale < (Numeral.digits d.unscaled.natAbs).length
  · have hsplit := Nat.sub_le (Numeral.digits d.unscaled.natAbs).length d.scale
    have hdifference : Machine.difference (Numeral.digits d.unscaled.natAbs).length d.scale
        = .ok ((Numeral.digits d.unscaled.natAbs).length - d.scale) := if_pos (Nat.le_of_lt hscale)
    simp only [if_pos hscale]
    rw [hdifference, ok_bind, slice_eq (Nat.zero_le _) hsplit, ok_bind,
      slice_eq hsplit (Nat.le_refl _), ok_bind, List.drop_zero, List.take_length]
    rfl
  · simp only [if_neg hscale]
    rfl

theorem decimalText_eq (d : Decimal) : decimalText d = .ok d.text := by
  rw [decimalText, decimalParts_eq]
  rfl

theorem mirrors_readFixed (h : Inside region offset) (width : Nat) (datatype : String) :
    Mirrors region offset (readFixed width datatype) (Codec.readFixed width datatype) :=
  (mirrors_int h width).ret fun i => Literal.ofInt i datatype

theorem mirrors_readLabel (h : Inside region offset) (datatype : String) :
    Mirrors region offset (readLabel datatype) (Codec.readLabel datatype) :=
  (mirrors_text h).ret fun label => Literal.typed label datatype

theorem mirrors_readCompressed (h : Inside region offset) :
    Mirrors region offset readCompressed Codec.readCompressed := by
  refine (mirrors_rest h).bind fun compressed _ _ h => ?_
  refine (mirrors_found h _ _).bind fun bytes _ _ h => ?_
  exact (mirrors_check h (Reader.textOf bytes)).ret Literal.string

theorem mirrors_readTagged (h : Inside region offset) :
    Mirrors region offset readTagged Codec.readTagged := by
  refine (mirrors_withLength h).bind fun bytes _ _ h => ?_
  refine (mirrors_check h (Reader.textOf bytes)).bind fun language _ _ h => ?_
  exact (mirrors_fail h _).ite ((mirrors_text h).ret fun label => Literal.lang label language)

theorem mirrors_readTaggedHash (h : Inside region offset) (codec : Codec) :
    Mirrors region offset (readTaggedHash codec) codec.readTaggedHash := by
  refine (mirrors_hash h).bind fun hash _ _ h => ?_
  refine (mirrors_found h _ _).bind fun language _ _ h => ?_
  exact (mirrors_text h).ret fun label => Literal.lang label language

theorem mirrors_readDecimal (h : Inside region offset) :
    Mirrors region offset readDecimal Codec.readDecimal := by
  refine (mirrors_varintInt h).bind fun scale _ _ h => ?_
  refine (mirrors_fail h _).ite ((mirrors_varintInt h).bind fun unscaled _ _ h => ?_)
  rw [decimalText_eq]
  exact .read (Literal.decimal ⟨unscaled, scale.toNat⟩) h

theorem mirrors_readLiteral (h : Inside region offset) (codec : Codec) (form : LiteralForm) :
    Mirrors region offset (readLiteral codec form) (codec.readLiteral form) := by
  cases form with
  | string => exact mirrors_readLabel h Xsd.string
  | compressedString => exact mirrors_readCompressed h
  | tagged => exact mirrors_readTagged h
  | taggedHash => exact mirrors_readTaggedHash h codec
  | xml => exact mirrors_readLabel h Rdf.xmlLiteral
  | wkt => exact mirrors_readLabel h Geo.wktLiteral
  | no => exact mirrors_pure h (Literal.ofBool false)
  | yes => exact mirrors_pure h (Literal.ofBool true)
  | byte => exact mirrors_readFixed h 1 Xsd.byte
  | short => exact mirrors_readFixed h 2 Xsd.short
  | int => exact mirrors_readFixed h 4 Xsd.int
  | long => exact mirrors_readFixed h 8 Xsd.long
  | float => exact (mirrors_word h 4).ret Literal.float
  | double => exact (mirrors_word h 8).ret Literal.double
  | integer2 => exact mirrors_readFixed h 2 Xsd.integer
  | integer4 => exact mirrors_readFixed h 4 Xsd.integer
  | integer8 => exact mirrors_readFixed h 8 Xsd.integer
  | integerText => exact mirrors_readLabel h Xsd.integer
  | decimal => exact mirrors_readDecimal h
  | decimalText => exact mirrors_readLabel h Xsd.decimal
  | dateTime => exact (mirrors_readDateTime h).ret Literal.ofDateTime
  | date => exact (mirrors_readZonedDate h).ret Literal.ofDate
  | time => exact (mirrors_readZonedTime h).ret Literal.ofTime

/-! ## Terms -/

theorem mirrors_readTag (h : Inside region offset) :
    Mirrors region offset readTag Codec.readTag :=
  (mirrors_byte h).bind fun b _ _ h => mirrors_check h (Tag.ofByte (UInt8.ofNat b))

/-- A region that is taken with its length is shorter than the one it is in, and so is what is left
after it. -/
theorem length_of_withLength {next : Nat} {bytes : Bytes}
    (h : Reader.withLength (.within region offset) = (.ok bytes, .within region next)) :
    bytes.length < region.length ∧ region.length - next < region.length := by
  have hlength := Reader.length_of_withLength h
  rw [length_within, length_within] at hlength
  omega

/-- A triple is made only of a predicate that is an IRI, so that making it succeeds. -/
theorem mirrors_triple (h : Inside region offset) (subject predicate object : Term) :
    Mirrors region offset
      (check (Codec.predicateOf predicate) >>= fun _ =>
        step ((Term.ofTriple subject predicate object).mapError fun e => .failed (.usage e)))
      (Reader.check (Codec.predicateOf predicate) >>= fun p =>
        Pure.pure (.triple subject p object)) := by
  refine mirrors_step_bind rfl fun p hp => ?_
  cases predicate with
  | iri text =>
    cases hp
    exact .read _ h
  | blank label => cases hp
  | literal l => cases hp
  | triple s p o => cases hp

section Members

variable {member : Bytes → Except Stop Term} {expected : Bytes → Except DecodeError Term}
  (hmember : ∀ bytes, bytes.length < region.length → member bytes = Stop.ofDecode (expected bytes))

include hmember

theorem mirrors_readDatatyped (h : Inside region offset) :
    Mirrors region offset (readDatatyped member) (Codec.readDatatyped expected) := by
  refine (mirrors_withLength h).bind fun bytes _ hbytes h => ?_
  refine mirrors_step_bind (hmember bytes (length_of_withLength hbytes).1) fun datatype _ => ?_
  refine mirrors_step_bind rfl fun datatype _ => ?_
  exact (mirrors_text h).ret fun label => Term.literal (.typed label datatype)

theorem mirrors_readTriple (h : Inside region offset) :
    Mirrors region offset (readTriple member) (Codec.readTriple expected) := by
  refine (mirrors_withLength h).bind fun bytes _ hbytes h => ?_
  refine mirrors_step_bind (hmember bytes (length_of_withLength hbytes).1) fun subject _ => ?_
  refine (mirrors_withLength h).bind fun bytes next hbytes h => ?_
  obtain ⟨hpredicate, hobject⟩ := length_of_withLength hbytes
  refine mirrors_step_bind (hmember bytes hpredicate) fun predicate _ => ?_
  refine (mirrors_rest h).bind fun bytes _ hbytes h => ?_
  have hrest : region.drop next = bytes := Except.ok.inj (Prod.mk.inj hbytes).1
  rw [← List.length_drop, hrest] at hobject
  exact mirrors_step_bind (hmember bytes hobject) fun object _ =>
    mirrors_triple h subject predicate object

theorem mirrors_readPayload (h : Inside region offset) (codec : Codec) (tag : Tag) :
    Mirrors region offset (readPayload codec member tag) (codec.readPayload expected tag) := by
  cases tag with
  | iri form => exact (mirrors_readIri h codec.vocabulary form).map Term.iri
  | blank => exact (mirrors_text h).map Term.blank
  | literal form => exact (mirrors_readLiteral h codec form).map Term.literal
  | datatyped => exact mirrors_readDatatyped hmember h
  | triple => exact mirrors_readTriple hmember h

end Members

end Checked

namespace Codec

open Checked

theorem readValue_eq_decode (codec : Codec) (bytes : Bytes) :
    codec.readValue bytes = (codec.decode bytes 0).map Prod.fst := by
  rw [readValue, decode, Cursor.at?, if_neg (Nat.not_lt_zero _)]
  show finish (codec.read (.start bytes)) = (finish (codec.read (.start bytes)) >>= _).map _
  cases finish (codec.read (.start bytes)) <;> rfl

/-- A machine that reads the members as they are read decodes what is decoded. -/
theorem decodeWith_eq (codec : Codec) {bytes : Bytes} {member : Bytes → Except Stop Term}
    (hbytes : bytes.length < positionLimit)
    (hmember : ∀ region, region.length < bytes.length →
      member region = Stop.ofDecode (codec.readValue region)) (position : Nat) :
    codec.decodeWith member bytes position = Stop.ofDecode (codec.decode bytes position) := by
  rw [decodeWith, decode, Cursor.at?]
  by_cases hposition : bytes.length < position
  · rw [if_pos hposition, if_pos hposition]
    rfl
  · have hinside : Inside bytes position := ⟨Nat.not_lt.1 hposition, hbytes⟩
    have hread := (mirrors_readTag hinside).bind (f := Checked.readPayload codec member)
      (g := codec.readPayload codec.readValue)
      fun tag _ _ h => mirrors_readPayload hmember h codec tag
    rw [Mirrors, ← codec.read_eq] at hread
    rw [if_neg hposition, if_neg hposition, ok_bind]
    show _ = Stop.ofDecode (finish (codec.read (.within bytes position)) >>= _)
    generalize codec.read (.within bytes position) = outcome at hread ⊢
    generalize (Checked.readTag >>= Checked.readPayload codec member) bytes position = checked
      at hread ⊢
    cases hread with
    | refused e c => rfl
    | @read t next hnext =>
      have hend := hnext.offset_le
      have hlength := length_within bytes next
      by_cases hleft : bytes.length - next = 0
      · have hrest : (Cursor.within bytes next).rest = [] :=
          List.length_eq_zero_iff.1 (hlength.trans hleft)
        have hsize : next = bytes.length := by omega
        have hconsumed : Machine.difference next position = .ok (bytes.length - position) := by
          rw [hsize]
          exact if_pos hinside.offset_le
        rw [finish, if_pos hrest]
        simp only [ok_bind, hleft, hconsumed]
        rfl
      · have hrest : (Cursor.within bytes next).rest ≠ [] := by
          rw [← List.length_pos_iff, hlength]
          omega
        rw [finish, if_neg hrest, hlength]
        simp only [ok_bind, if_pos hleft]
        rfl

/-- Decoding with the numbers of a machine does what decoding does. -/
theorem decodeChecked_eq (codec : Codec) {bytes : Bytes} (hbytes : bytes.length < positionLimit)
    (position : Nat) :
    codec.decodeChecked bytes position = Stop.ofDecode (codec.decode bytes position) := by
  rw [decodeChecked]
  refine decodeWith_eq codec hbytes (fun region hregion => ?_) position
  rw [if_pos hregion, codec.decodeChecked_eq (Nat.lt_trans hregion hbytes) 0,
    readValue_eq_decode]
  cases codec.decode region 0 <;> rfl
termination_by bytes.length

/-- Decoding is total with a single kind of error.  For every vocabulary, every byte string that a
machine can hold and every position, a machine that decodes from the position either gives a value
and the number of all bytes from there on, or reports an error of decoding.  Both are what decoding
with numbers of any size gives. -/
theorem decodeChecked_total (codec : Codec) (bytes : Bytes) (position : Nat)
    (hbytes : bytes.length < positionLimit) :
    (∃ t, codec.decodeChecked bytes position = .ok (t, bytes.length - position)
      ∧ position ≤ bytes.length
      ∧ codec.decode bytes position = .ok (t, bytes.length - position))
    ∨ ∃ e : DecodeError, codec.decodeChecked bytes position = .error (.failed (.decode e))
      ∧ codec.decode bytes position = .error e := by
  rw [codec.decodeChecked_eq hbytes]
  cases hdecode : codec.decode bytes position with
  | error e => exact .inr ⟨e, rfl, rfl⟩
  | ok read =>
    obtain ⟨c, hc, hread⟩ := ok_of_bind hdecode
    obtain ⟨t, _, hread⟩ := ok_of_bind hread
    cases hread
    have hposition : ¬ bytes.length < position := by
      intro hbeyond
      rw [Cursor.at?, if_pos hbeyond] at hc
      cases hc
    exact .inl ⟨t, rfl, Nat.not_lt.1 hposition, rfl⟩

/-- A quoted triple whose predicate is a blank node, after a byte that does not belong to it, and
the last instant of eight bytes in the zone that is furthest to the east. -/
theorem decodeChecked_total_extremes :
    (∃ e : DecodeError, Codec.standard.decodeChecked
      [0, 0x18, 2, 0x10, 0x61, 2, 0x10, 0x62, 0x10, 0x63] 1 = .error (.failed (.decode e)))
    ∧ ∃ e : DecodeError, Codec.standard.decodeChecked
      [0x40, 0x7F, 0xFF, 0xFF, 0xFF, 0xFF, 0xFF, 0xFF, 0xFF, 0, 0, 0, 0, 0x03, 0x48] 0
        = .error (.failed (.decode e)) := by
  have hrefused : ∀ {bytes : Bytes} {position : Nat}, bytes.length < positionLimit →
      (Codec.standard.decode bytes position).toOption = none →
      ∃ e : DecodeError, Codec.standard.decodeChecked bytes position
        = .error (.failed (.decode e)) := by
    intro bytes position hbytes hnone
    rcases decodeChecked_total Codec.standard bytes position hbytes with
      ⟨t, _, _, hread⟩ | ⟨e, hchecked, _⟩
    · rw [hread] at hnone
      cases hnone
    · exact ⟨e, hchecked⟩
  exact ⟨hrefused (by decide) (by decide +kernel), hrefused (by decide) (by decide +kernel)⟩

end Codec

end RdfIndex
