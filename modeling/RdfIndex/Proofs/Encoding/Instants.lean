import RdfIndex.Calendar.ZoneOffset
import RdfIndex.Proofs.Encoding.Canonical

/-!
# Instants of constructed dates and times

A local date and time with an offset is an instant.  The literal of it has the same local date and
time, and the offset without its seconds (`ZoneOffset.wholeMinutes`), which is all that the zone of
a label can have.  So the instant of the literal is later by the seconds of the offset
(`DateTime.instant_wholeMinutes`), and it is the same if and only if there are none
(`Codec.dateTime_instant`).
-/

namespace RdfIndex

/-! ## Offsets in seconds -/

namespace ZoneOffset

variable {o : ZoneOffset} {hours minutes seconds : Int}

/-- The seconds by which the local time is ahead. -/
def wholeSeconds (o : ZoneOffset) : Int := o.hours * 3600 + o.minutes * 60 + o.seconds

/-- An offset that lies between the greatest ones of labels. -/
def IsWithinLimit (o : ZoneOffset) : Prop := (o.wholeSeconds.natAbs : Int) ≤ Calendar.maxOffset * 60

/-- The parts of an offset have one sign, and its seconds are less than a minute. -/
theorem sign_of_of? (h : of? hours minutes seconds = some o) :
    (0 ≤ o.wholeMinutes ∧ 0 ≤ o.seconds ∨ o.wholeMinutes ≤ 0 ∧ o.seconds ≤ 0)
      ∧ o.seconds.natAbs < 60 := by
  rw [of?, Option.ite_none_right_eq_some, isZoneOffset] at h
  simp only [Bool.and_eq_true, decide_eq_true_eq, Option.some.injEq] at h
  obtain ⟨⟨_, hseconds⟩, rfl⟩ := h
  generalize (if hours ≠ 0 then hours else if minutes ≠ 0 then minutes else seconds) = sign
  unfold wholeMinutes withSign
  simp only
  split <;> omega

theorem wholeSeconds_eq (o : ZoneOffset) : o.wholeSeconds = o.wholeMinutes * 60 + o.seconds := by
  unfold wholeSeconds wholeMinutes
  omega

/-- Without its seconds an offset is nearer to zero. -/
theorem isZone_wholeMinutes (h : of? hours minutes seconds = some o) (hlimit : o.IsWithinLimit) :
    Calendar.IsZone (some o.wholeMinutes) := by
  obtain ⟨hsign, _⟩ := sign_of_of? h
  intro m hm
  cases hm
  unfold IsWithinLimit at hlimit
  rw [wholeSeconds_eq] at hlimit
  omega

end ZoneOffset

/-! ## Instants -/

namespace Calendar.DateTime

/-- The nanoseconds since 1970 of a local date and time that is ahead by some seconds. -/
def instantAhead (date : Date) (time : TimeOfDay) (ahead : Int) : Int :=
  ((DateTime.mk date time none).localSeconds - ahead) * nanosPerSecond + time.nano

/-- The instant of a date and time, with no zone as with the one of offset zero. -/
def instant (v : DateTime) : Int := instantAhead v.date v.time (v.offset.getD 0 * 60)

variable {date : Date} {time : TimeOfDay}

theorem instantAhead_eq_iff {ahead ahead' : Int} :
    instantAhead date time ahead = instantAhead date time ahead' ↔ ahead = ahead' := by
  unfold instantAhead nanosPerSecond
  omega

/-- The seconds that an offset is left without are those by which the instant is later. -/
theorem instant_wholeMinutes (date : Date) (time : TimeOfDay) (o : ZoneOffset) :
    instant ⟨date, time, some o.wholeMinutes⟩
      = instantAhead date time o.wholeSeconds + o.seconds * nanosPerSecond := by
  show instantAhead date time (o.wholeMinutes * 60) = _
  rw [ZoneOffset.wholeSeconds_eq]
  unfold instantAhead nanosPerSecond
  omega

/-- A zone of whole minutes makes the instant of a local date and time if and only if the offset has
no seconds. -/
theorem exists_instant_iff {hours minutes seconds : Int} {o : ZoneOffset}
    (h : ZoneOffset.of? hours minutes seconds = some o) :
    (∃ zone : Int, instant ⟨date, time, some zone⟩ = instantAhead date time o.wholeSeconds)
      ↔ o.seconds = 0 := by
  obtain ⟨_, hseconds⟩ := ZoneOffset.sign_of_of? h
  simp only [instant, Option.getD_some, instantAhead_eq_iff, ZoneOffset.wholeSeconds_eq]
  constructor
  · rintro ⟨zone, hzone⟩
    omega
  · intro hzero
    exact ⟨o.wholeMinutes, by omega⟩

end Calendar.DateTime

/-! ## Constructed literals -/

namespace Codec

open Calendar

/-- The literal of a local date and time with an offset, for every date from year one on, every time
and every offset between the greatest ones of labels.  Its label is read as the same local date and
time with the offset without its seconds.  It is stored in the form of dates with times, and what is
stored is read as the literal.  The instant of the label is later than the one that was given by the
seconds of the offset, so that it is kept if and only if there are none; and then only does any zone
of a label keep it. -/
theorem dateTime_instant (codec : Codec) (date : Date) (time : TimeOfDay)
    {hours minutes seconds : Int} {o : ZoneOffset}
    (hoffset : ZoneOffset.of? hours minutes seconds = some o) (hyear : 1 ≤ date.year)
    (hlimit : o.IsWithinLimit) :
    ∃ v : DateTime, DateTime.read? (Literal.dateTime date time o).label = .ok (some v)
      ∧ v.date = date ∧ v.time = time ∧ v.offset = some o.wholeMinutes
      ∧ codec.encode (.literal (Literal.dateTime date time o)) = .ok ⟨.literal .dateTime, v.bytes⟩
      ∧ codec.readValue (Encoded.bytes ⟨.literal .dateTime, v.bytes⟩)
        = .ok (.literal (Literal.dateTime date time o))
      ∧ v.instant = DateTime.instantAhead date time o.wholeSeconds + o.seconds * nanosPerSecond
      ∧ (v.instant = DateTime.instantAhead date time o.wholeSeconds ↔ o.seconds = 0)
      ∧ ((∃ zone : Int, DateTime.instant ⟨date, time, some zone⟩
        = DateTime.instantAhead date time o.wholeSeconds) ↔ o.seconds = 0) := by
  have hzone := ZoneOffset.isZone_wholeMinutes hoffset hlimit
  have hwritten : (Moment.dateTime ⟨date, time, some o.wholeMinutes⟩).IsWritten := ⟨hyear, hzone⟩
  have hinstant := DateTime.instant_wholeMinutes date time o
  refine ⟨⟨date, time, some o.wholeMinutes⟩, DateTime.read?_text hyear hzone, rfl, rfl, rfl,
    codec.encode_moment hwritten, codec.readValue_encoded hwritten, hinstant, ?_,
    DateTime.exists_instant_iff hoffset⟩
  rw [hinstant]
  unfold nanosPerSecond
  omega

/-- The last second of the years that labels can have, far west of the first meridian. -/
theorem dateTime_instant_last :
    ∃ v : DateTime, DateTime.read? "9999-12-31T23:59:59-13:59" = .ok (some v)
      ∧ v.instant
        = DateTime.instantAhead ⟨9999, 12, 31, by decide⟩ ⟨23, 59, 59, 0, by decide⟩ (-50340)
      ∧ bare.encode (.literal (.typed "9999-12-31T23:59:59-13:59" Xsd.dateTime))
        = .ok ⟨.literal .dateTime, v.bytes⟩ := by
  have hoffset : ZoneOffset.of? (-13) 59 0 = some ⟨-13, -59, 0⟩ := by decide
  obtain ⟨v, hread, _, _, _, hencode, _, _, hinstant, _⟩ :=
    dateTime_instant bare ⟨9999, 12, 31, by decide⟩ ⟨23, 59, 59, 0, by decide⟩ hoffset (by decide)
      (by unfold ZoneOffset.IsWithinLimit; decide)
  have hlabel : Literal.dateTime ⟨9999, 12, 31, by decide⟩ ⟨23, 59, 59, 0, by decide⟩ ⟨-13, -59, 0⟩
      = .typed "9999-12-31T23:59:59-13:59" Xsd.dateTime := by decide +kernel
  rw [hlabel] at hread hencode
  exact ⟨v, hread, hinstant.2 rfl, hencode⟩

/-- Midnight at an offset of half a minute is labelled as midnight at offset zero, which is half a
minute later. -/
theorem dateTime_instant_shifted :
    ZoneOffset.of? 0 0 30 = some ⟨0, 0, 30⟩
      ∧ DateTime.instantAhead ⟨2021, 3, 4, by decide⟩ ⟨0, 0, 0, 0, by decide⟩
        (ZoneOffset.wholeSeconds ⟨0, 0, 30⟩) = 1614815970000000000
      ∧ ∃ v : DateTime, DateTime.read? (Literal.dateTime ⟨2021, 3, 4, by decide⟩
          ⟨0, 0, 0, 0, by decide⟩ ⟨0, 0, 30⟩).label = .ok (some v)
        ∧ v.instant = 1614816000000000000 := by
  refine ⟨by decide, by decide +kernel,
    ⟨⟨2021, 3, 4, by decide⟩, ⟨0, 0, 0, 0, by decide⟩, some 0⟩, ?_, by decide +kernel⟩
  exact DateTime.read?_text (by decide) (by unfold IsZone; decide)

end Codec

end RdfIndex
