import RdfIndex.Proofs.Bytes.Order
import RdfIndex.Proofs.Calendar.Labels
import RdfIndex.Proofs.Encoding.Extension
import RdfIndex.Proofs.Encoding.RoundTrip
import RdfIndex.Proofs.Encoding.Tags

/-!
# Stored dates and times are canonical

A date, a time, and a date with a time are each stored in one way: what is read off some bytes is
encoded as these very bytes (`Codec.readValue_moment`).  So the bytes that are read are those that
are written, for every year from one on, every time of day and every zone of at most fourteen hours
(`Moment.IsWritten`).

A reader takes no more than the bytes of what it reads (`rest_of_word`, `rest_of_int`,
`rest_of_readZone`), and what it checks is that a label can denote the value.  The label that the
value is then written as is read as the value again, so the encoder finds it canonical.
-/

namespace RdfIndex

/-! ## What was read -/

namespace Reader

variable {c c' : Cursor} {width : Nat}

theorem rest_of_take {bytes : Bytes} (h : take width c = (.ok bytes, c')) :
    bytes.length = width ∧ c.rest = bytes ++ c'.rest := by
  rw [take] at h
  split at h
  · cases h
  split at h
  · cases h
  · next hlength =>
    cases h
    exact ⟨List.length_take_of_le (Nat.not_lt.1 hlength), (List.take_append_drop width c.rest).symm⟩

theorem rest_of_word {n : Nat} (h : word width c = (.ok n, c')) :
    c.rest = Bytes.toBigEndian width n ++ c'.rest := by
  obtain ⟨bytes, c1, htake, h⟩ := of_bind_ok h
  cases h
  obtain ⟨rfl, hrest⟩ := rest_of_take htake
  rwa [Bytes.toBigEndian_ofBigEndian]

theorem rest_of_int {i : Int} (h : int width c = (.ok i, c')) :
    c.rest = Bytes.ofInt width i ++ c'.rest := by
  obtain ⟨bytes, c1, htake, h⟩ := of_bind_ok h
  cases h
  obtain ⟨rfl, hrest⟩ := rest_of_take htake
  rwa [Bytes.ofInt_toInt]

end Reader

namespace Calendar

open Reader (of_bind_ok of_check_bind_ok rest_of_word rest_of_int)

variable {c c' : Cursor}

theorem rest_of_readZone {offset : Option Int} (h : readZone c = (.ok offset, c')) :
    IsZone offset ∧ c.rest = zoneBytes offset ++ c'.rest := by
  obtain ⟨i, c1, hi, h⟩ := of_bind_ok h
  have hrest := rest_of_int hi
  split at h
  · next hnone =>
    cases h
    subst hnone
    exact ⟨isZone_none, hrest⟩
  split at h
  · cases h
  · next hlimit =>
    cases h
    refine ⟨fun m hm => ?_, hrest⟩
    cases hm
    exact Int.not_lt.1 hlimit

theorem of_dateOfDay {day : Int} {d : Date} (h : dateOfDay day = .ok d) :
    d.julianDay = day ∧ 1 ≤ d.year := by
  rw [dateOfDay] at h
  split at h
  · cases h
  split at h
  · cases h
  · next date hdate =>
    split at h
    · next hyear =>
      cases h
      exact ⟨Date.ofJulianDay?_eq_some_iff.1 hdate, hyear⟩
    · cases h

theorem nanos_of_timeOfNanos {nanos : Nat} {t : TimeOfDay} (h : timeOfNanos nanos = .ok t) :
    t.nanos = nanos := by
  rw [timeOfNanos] at h
  split at h
  · next htime =>
    cases h
    exact TimeOfDay.ofNanos?_eq_some_iff.1 htime
  · cases h

/-- Whole seconds and nanoseconds are told apart. -/
theorem seconds_of_nanos {t : TimeOfDay} {seconds nanos : Nat} (hnanos : nanos < nanosPerSecond)
    (h : t.nanos = seconds * nanosPerSecond + nanos) : t.seconds = seconds ∧ t.nano = nanos := by
  have hnano := t.bounds.2.2.2
  unfold TimeOfDay.nanos at h
  unfold nanosPerSecond at *
  omega

/-- The instant of a date and time that was found is the one that was looked for. -/
theorem of_dateTimeOf {seconds : Int} {nanos : Nat} {offset : Option Int} {v : DateTime}
    (h : dateTimeOf seconds nanos offset = .ok v) :
    v.offset = offset ∧ v.time.nano = nanos ∧ v.localSeconds = seconds + offset.getD 0 * 60
      ∧ 1 ≤ v.date.year := by
  rw [dateTimeOf] at h
  by_cases hnanos : nanosPerSecond ≤ nanos
  · rw [if_pos hnanos] at h
    cases h
  rw [if_neg hnanos] at h
  simp only at h
  split at h
  · cases h
  obtain ⟨date, hdate, h⟩ := ok_of_bind h
  obtain ⟨time, htime, h⟩ := ok_of_bind h
  cases h
  obtain ⟨hday, hyear⟩ := of_dateOfDay hdate
  obtain ⟨hsecond, hnano⟩ :=
    seconds_of_nanos (Nat.lt_of_not_le hnanos) (nanos_of_timeOfNanos htime)
  refine ⟨rfl, hnano, ?_, hyear⟩
  rw [DateTime.localSeconds, hday, hsecond]
  unfold secondsPerDay
  omega

theorem rest_of_dateTime {v : DateTime} (h : DateTime.read c = (.ok v, c')) :
    (1 ≤ v.date.year ∧ IsZone v.offset) ∧ c.rest = v.bytes ++ c'.rest := by
  obtain ⟨seconds, c1, hseconds, h⟩ := of_bind_ok h
  obtain ⟨nanos, c2, hnanos, h⟩ := of_bind_ok h
  obtain ⟨offset, c3, hoffset, h⟩ := of_bind_ok h
  obtain ⟨hv, hc⟩ := Prod.mk.inj h
  subst hc
  obtain ⟨rfl, rfl, hlocal, hyear⟩ := of_dateTimeOf hv
  obtain ⟨hzone, hrest⟩ := rest_of_readZone hoffset
  refine ⟨⟨hyear, hzone⟩, ?_⟩
  rw [rest_of_int hseconds, rest_of_word hnanos, hrest, DateTime.bytes, hlocal,
    Int.add_sub_cancel, List.append_assoc, List.append_assoc]

theorem rest_of_zonedDate {v : ZonedDate} (h : ZonedDate.read c = (.ok v, c')) :
    (1 ≤ v.date.year ∧ IsZone v.offset) ∧ c.rest = v.bytes ++ c'.rest := by
  obtain ⟨day, c1, hday, h⟩ := of_bind_ok h
  obtain ⟨offset, c2, hoffset, h⟩ := of_bind_ok h
  obtain ⟨date, hdate, h⟩ := of_check_bind_ok h
  cases h
  obtain ⟨rfl, hyear⟩ := of_dateOfDay hdate
  obtain ⟨hzone, hrest⟩ := rest_of_readZone hoffset
  refine ⟨⟨hyear, hzone⟩, ?_⟩
  rw [rest_of_int hday, hrest, ZonedDate.bytes, List.append_assoc]

theorem rest_of_zonedTime {v : ZonedTime} (h : ZonedTime.read c = (.ok v, c')) :
    IsZone v.offset ∧ c.rest = v.bytes ++ c'.rest := by
  obtain ⟨nanos, c1, hnanos, h⟩ := of_bind_ok h
  obtain ⟨time, htime, h⟩ := of_check_bind_ok h
  obtain ⟨offset, c2, hoffset, h⟩ := of_bind_ok h
  cases h
  obtain rfl := nanos_of_timeOfNanos htime
  obtain ⟨hzone, hrest⟩ := rest_of_readZone hoffset
  refine ⟨hzone, ?_⟩
  rw [rest_of_word hnanos, hrest, ZonedTime.bytes, List.append_assoc]

end Calendar

/-! ## Dates and times as literals -/

open Calendar

/-- A date with a time, a date, or a time, each with its zone. -/
inductive Moment where
  | dateTime (v : DateTime)
  | date (v : ZonedDate)
  | time (v : ZonedTime)

namespace Moment

/-- The forms of dates and times. -/
def forms : List LiteralForm := [.dateTime, .date, .time]

def form : Moment → LiteralForm
  | .dateTime _ => .dateTime
  | .date _ => .date
  | .time _ => .time

/-- The stored form without its tag. -/
def payload : Moment → Bytes
  | .dateTime v => v.bytes
  | .date v => v.bytes
  | .time v => v.bytes

/-- The stored form. -/
def encoded (m : Moment) : Encoded := ⟨.literal m.form, m.payload⟩

def literal : Moment → Literal
  | .dateTime v => .ofDateTime v
  | .date v => .ofDate v
  | .time v => .ofTime v

/-- Labels can have the year, which is after zero, and the zone, of at most fourteen hours. -/
def IsWritten : Moment → Prop
  | .dateTime v => 1 ≤ v.date.year ∧ IsZone v.offset
  | .date v => 1 ≤ v.date.year ∧ IsZone v.offset
  | .time v => IsZone v.offset

variable {codec : Codec} {c c' : Cursor}

/-- A label that its native datatype has a form for is stored in that form. -/
theorem encodeLiteral_typed (type : NativeType) {label : String} {e : Encoded}
    (h : Encoded.ofNative? codec.threshold type label = .ok (some e)) :
    codec.encodeLiteral (.typed label type.iri) = .ok e :=
  Codec.encodeLiteral_native h

/-- A value that is read off its own label passes the comparison with the label. -/
theorem checked_ok {α : Type} {result : Except InsideCharacter (Option α)} {a : α}
    (text : α → String) (stored : α → Encoded) (h : result = .ok (some a)) :
    (do let v ← result; return (v.filter (text · == text a)).map stored)
      = (.ok (some (stored a)) : Except InsideCharacter (Option Encoded)) := by
  subst h
  have hself : (some a).filter (text · == text a) = some a :=
    Option.filter_eq_some_iff.2 ⟨rfl, beq_self_eq_true (text a)⟩
  rw [ok_bind, hself]
  rfl

theorem encodeLiteral_literal (codec : Codec) {m : Moment} (h : m.IsWritten) :
    codec.encodeLiteral m.literal = .ok m.encoded := by
  cases m with
  | dateTime v =>
    exact encodeLiteral_typed .dateTime (checked_ok DateTime.text
      (fun v => ⟨.literal .dateTime, v.bytes⟩) (DateTime.read?_text h.1 h.2))
  | date v =>
    exact encodeLiteral_typed .date (checked_ok ZonedDate.text
      (fun v => ⟨.literal .date, v.bytes⟩) (ZonedDate.read?_text h.1 h.2))
  | time v =>
    exact encodeLiteral_typed .time (checked_ok ZonedTime.text
      (fun v => ⟨.literal .time, v.bytes⟩) (ZonedTime.read?_text h))

/-- A literal of one of the forms is read off the stored form of its value. -/
theorem of_readLiteral {form : LiteralForm} (hform : form ∈ forms) {l : Literal}
    (h : codec.readLiteral form c = (.ok l, c')) :
    ∃ m : Moment, m.IsWritten ∧ m.form = form ∧ l = m.literal ∧ c.rest = m.payload ++ c'.rest := by
  simp only [forms, List.mem_cons, List.not_mem_nil, or_false] at hform
  rcases hform with rfl | rfl | rfl
  · obtain ⟨v, c1, hv, h⟩ := Reader.of_bind_ok h
    cases h
    obtain ⟨hwritten, hrest⟩ := rest_of_dateTime hv
    exact ⟨.dateTime v, hwritten, rfl, rfl, hrest⟩
  · obtain ⟨v, c1, hv, h⟩ := Reader.of_bind_ok h
    cases h
    obtain ⟨hwritten, hrest⟩ := rest_of_zonedDate hv
    exact ⟨.date v, hwritten, rfl, rfl, hrest⟩
  · obtain ⟨v, c1, hv, h⟩ := Reader.of_bind_ok h
    cases h
    obtain ⟨hwritten, hrest⟩ := rest_of_zonedTime hv
    exact ⟨.time v, hwritten, rfl, rfl, hrest⟩

theorem length_encoded_le (m : Moment) : m.encoded.bytes.length ≤ 15 := by
  rw [Encoded.bytes, List.length_cons]
  cases m with
  | dateTime v =>
    show v.bytes.length + 1 ≤ 15
    rw [DateTime.bytes, zoneBytes]
    simp
  | date v =>
    show v.bytes.length + 1 ≤ 15
    rw [ZonedDate.bytes, zoneBytes]
    simp
  | time v =>
    show v.bytes.length + 1 ≤ 15
    rw [ZonedTime.bytes, zoneBytes]
    simp

end Moment

namespace Codec

variable {codec : Codec} {t : Term} {e : Encoded} {form : LiteralForm}

/-- What is stored in a form of a native datatype is a label of that datatype. -/
theorem native_of_encode {type : NativeType} (h : codec.encode t = .ok e)
    (htag : e.tag = .literal form) (htype : form.type? = some type) : ∃ label,
    t = .literal (.typed label type.iri)
      ∧ Encoded.ofNative? codec.threshold type label = .ok (some e) := by
  cases t with
  | iri text =>
    cases h
    obtain ⟨form', htag', _⟩ := codec.vocabulary.readsIri_encodeIri text
    rw [encodeIri, htag'] at htag
    cases htag
  | blank label =>
    cases h
    cases htag
  | triple s p o =>
    obtain ⟨_, _, h⟩ := ok_of_bind h
    obtain ⟨_, _, h⟩ := ok_of_bind h
    cases h
    cases htag
  | literal l =>
    cases l with
    | tagged label language hne =>
      cases h
      rw [encodeTagged] at htag
      split at htag
      · cases htag
        cases htype
      · cases htag
        cases htype
    | typed label datatype =>
      have h : codec.encodeLiteral (.typed label datatype) = .ok e := h
      rw [encodeLiteral] at h
      split at h
      · next type' htype' =>
        obtain ⟨native, hnative, h⟩ := ok_of_bind h
        cases h
        cases native with
        | none => cases htag
        | some e =>
          obtain ⟨form', htag', hform'⟩ := Encoded.isOfType_ofNative? hnative
          have hforms := htag'.symm.trans htag
          cases hforms
          obtain rfl := Option.some.inj (hform'.symm.trans htype)
          rw [← NativeType.iri_of_ofIri? htype']
          exact ⟨label, rfl, hnative⟩
      · cases h
        cases htag

/-- What is stored in one of the forms is a date or a time with the label that it is written as. -/
theorem moment_of_encode (h : codec.encode t = .ok e) (htag : e.tag = .literal form)
    (hform : form ∈ Moment.forms) :
    ∃ m : Moment, m.IsWritten ∧ e = m.encoded ∧ t = .literal m.literal := by
  simp only [Moment.forms, List.mem_cons, List.not_mem_nil, or_false] at hform
  rcases hform with rfl | rfl | rfl
  · obtain ⟨label, rfl, hnative⟩ := native_of_encode h htag rfl
    obtain ⟨v, hread, rfl, rfl⟩ := of_checked_ok hnative
    exact ⟨.dateTime v, DateTime.of_read? hread, rfl, rfl⟩
  · obtain ⟨label, rfl, hnative⟩ := native_of_encode h htag rfl
    obtain ⟨v, hread, rfl, rfl⟩ := of_checked_ok hnative
    exact ⟨.date v, ZonedDate.of_read? hread, rfl, rfl⟩
  · obtain ⟨label, rfl, hnative⟩ := native_of_encode h htag rfl
    obtain ⟨v, hread, rfl, rfl⟩ := of_checked_ok hnative
    exact ⟨.time v, ZonedTime.of_read? hread, rfl, rfl⟩

/-- What is read off some bytes with the tag of one of the forms is what these bytes store. -/
theorem moment_of_readValue {payload : Bytes} (hform : form ∈ Moment.forms)
    (h : codec.readValue ((Tag.literal form).byte :: payload) = .ok t) :
    ∃ m : Moment, m.IsWritten ∧ m.form = form ∧ m.payload = payload ∧ t = .literal m.literal := by
  obtain ⟨c, hread, hend⟩ := finish_eq_ok_iff.1 h
  have htag := reads_readTag (.literal form) 0 payload (show 0 + 1 < positionLimit by decide)
  rw [List.singleton_append] at htag
  rw [Cursor.start, read_literal htag] at hread
  obtain ⟨l, c', hl, hpure⟩ := Reader.of_bind_ok hread
  cases hpure
  obtain ⟨m, hwritten, hm, rfl, hrest⟩ := Moment.of_readLiteral hform hl
  rw [hend, List.append_nil] at hrest
  exact ⟨m, hwritten, hm, hrest.symm, rfl⟩

theorem encode_moment (codec : Codec) {m : Moment} (h : m.IsWritten) :
    codec.encode (.literal m.literal) = .ok m.encoded :=
  Moment.encodeLiteral_literal codec h

theorem readValue_encoded (codec : Codec) {m : Moment} (h : m.IsWritten) :
    codec.readValue m.encoded.bytes = .ok (.literal m.literal) :=
  readValue_bytes (codec.encode_moment h)
    (Nat.lt_of_le_of_lt m.length_encoded_le (by decide))

theorem readValue_eq_ok_iff_moment (hform : form ∈ Moment.forms) {payload : Bytes} :
    codec.readValue ((Tag.literal form).byte :: payload) = .ok t
      ↔ ∃ m : Moment, m.IsWritten ∧ m.encoded = ⟨.literal form, payload⟩
        ∧ t = .literal m.literal := by
  constructor
  · intro h
    obtain ⟨m, hwritten, rfl, rfl, rfl⟩ := moment_of_readValue hform h
    exact ⟨m, hwritten, rfl, rfl⟩
  · rintro ⟨m, hwritten, hm, rfl⟩
    have hread := codec.readValue_encoded hwritten
    rwa [hm] at hread

/-- What is read and what is written both are the dates and times of labels. -/
theorem readValue_eq_ok_iff_encode (hform : form ∈ Moment.forms) {payload : Bytes} :
    codec.readValue ((Tag.literal form).byte :: payload) = .ok t
      ↔ codec.encode t = .ok ⟨.literal form, payload⟩ := by
  rw [readValue_eq_ok_iff_moment hform]
  constructor
  · rintro ⟨m, hwritten, hm, rfl⟩
    rw [codec.encode_moment hwritten, hm]
  · intro h
    obtain ⟨m, hwritten, hm, ht⟩ := moment_of_encode h rfl hform
    exact ⟨m, hwritten, hm.symm, ht⟩

/-- The bytes of dates and times are canonical.  A byte string that starts with the tag of one of
their forms is read as a term if and only if the term is encoded as this very byte string.  It is
read if and only if it stores a date or time of a year and a zone that labels can have, and then as
the literal of that.  Two such byte strings that are read as one term are the same. -/
theorem readValue_moment (codec : Codec) (form : LiteralForm) (hform : form ∈ Moment.forms)
    (payload : Bytes) :
    (∀ t, codec.readValue ((Tag.literal form).byte :: payload) = .ok t
      ↔ codec.encode t = .ok ⟨.literal form, payload⟩)
    ∧ (∀ t, codec.readValue ((Tag.literal form).byte :: payload) = .ok t
      ↔ ∃ m : Moment, m.IsWritten ∧ m.encoded = ⟨.literal form, payload⟩ ∧ t = .literal m.literal)
    ∧ ∀ form' ∈ Moment.forms, ∀ payload' t,
      codec.readValue ((Tag.literal form).byte :: payload) = .ok t →
      codec.readValue ((Tag.literal form').byte :: payload') = .ok t →
      form = form' ∧ payload = payload' := by
  refine ⟨fun t => readValue_eq_ok_iff_encode hform, fun t => readValue_eq_ok_iff_moment hform, ?_⟩
  intro form' hform' payload' t h h'
  rw [readValue_eq_ok_iff_encode hform] at h
  rw [readValue_eq_ok_iff_encode hform', h] at h'
  cases h'
  exact ⟨rfl, rfl⟩

/-- A moment before 1970 that its zone moves to the start of 1970. -/
def eve : Bytes := [0, 0, 0, 0, 0, 0, 0, 0, 0x1D, 0xCD, 0x65, 0, 0xFF, 0xE2]

theorem readValue_moment_eve :
    bare.readValue ((Tag.literal .dateTime).byte :: eve)
        = .ok (.literal (.typed "1969-12-31T23:30:00.5-00:30" Xsd.dateTime))
      ∧ bare.encode (.literal (.typed "1969-12-31T23:30:00.5-00:30" Xsd.dateTime))
        = .ok ⟨.literal .dateTime, eve⟩
      ∧ ∀ payload, bare.readValue ((Tag.literal .dateTime).byte :: payload)
        = .ok (.literal (.typed "1969-12-31T23:30:00.5-00:30" Xsd.dateTime)) → eve = payload := by
  have hform : LiteralForm.dateTime ∈ Moment.forms := by decide
  have hread : bare.readValue ((Tag.literal .dateTime).byte :: eve)
      = .ok (.literal (.typed "1969-12-31T23:30:00.5-00:30" Xsd.dateTime)) :=
    ok_of_toOption (by decide +kernel)
  obtain ⟨hencode, _, hsame⟩ := readValue_moment bare .dateTime hform eve
  exact ⟨hread, (hencode _).1 hread, fun payload h => (hsame .dateTime hform payload _ hread h).2⟩

end Codec

end RdfIndex
