import RdfIndex.Encoding.Moment
import RdfIndex.Proofs.Bytes.Reads
import RdfIndex.Proofs.Calendar.Days
import RdfIndex.Proofs.Results

/-!
# Dates and times read back

A date, a time, and a date with a time come back from their stored bytes, if labels can denote them:
the year is after zero and the offset of the zone is at most fourteen hours (`IsZone`).  What is
read off a label is such.
-/

namespace RdfIndex.Calendar

open Reader (Reads reads_pure reads_check reads_int reads_word)

/-- An offset that labels can have, or no zone. -/
def IsZone (offset : Option Int) : Prop := ∀ m ∈ offset, (m.natAbs : Int) ≤ maxOffset

/-! ## What labels denote -/

/-- Labels denote dates from year one on. -/
theorem year_of_readDate? {bytes : Bytes} {d : Date} (h : readDate? bytes = some d) :
    1 ≤ d.year := by
  rw [readDate?] at h
  split at h
  · obtain ⟨year, _, h⟩ := Option.bind_eq_some_iff.1 h
    by_cases hyear : year = 0
    · rw [if_pos hyear] at h
      cases h
    · rw [if_neg hyear] at h
      obtain ⟨month, _, h⟩ := Option.bind_eq_some_iff.1 h
      obtain ⟨day, _, h⟩ := Option.bind_eq_some_iff.1 h
      rw [Date.of?] at h
      split at h
      · cases h
        show (1 : Int) ≤ year
        omega
      · cases h
  · cases h

theorem isZone_of_readZone? {zone : Bytes} {offset : Int}
    (h : readZone? zone = some (some offset)) : IsZone (some offset) := by
  rw [readZone?] at h
  split at h
  · obtain ⟨hours, _, h⟩ := Option.bind_eq_some_iff.1 (Option.some.inj h)
    obtain ⟨minutes, _, h⟩ := Option.bind_eq_some_iff.1 h
    by_cases hminutes : 60 ≤ minutes
    · simp only [if_pos hminutes] at h
      cases h
    · simp only [if_neg hminutes] at h
      by_cases htotal : maxOffset < ((hours * 60 + minutes : Nat) : Int)
      · rw [if_pos htotal] at h
        cases h
      · rw [if_neg htotal] at h
        intro m hm
        cases hm
        split at h <;> cases h <;> omega
  · cases h

theorem isZone_none : IsZone none := fun m hm => by cases hm

theorem isZone_of_splitZone? {bytes body : Bytes} {offset : Option Int}
    (h : splitZone? bytes = .ok (some (body, offset))) : IsZone offset := by
  rw [splitZone?] at h
  split at h
  · cases h
    intro m hm
    cases hm
    decide
  split at h
  · simp only at h
    split at h
    · split at h
      · cases h
        exact isZone_none
      · cases h
      · next hzone =>
        cases h
        exact isZone_of_readZone? hzone
    · cases h
  · cases h
    exact isZone_none

/-- The date of a label has a year and a zone that labels can have. -/
theorem ZonedDate.of_read? {label : String} {v : ZonedDate}
    (h : ZonedDate.read? label = .ok (some v)) : 1 ≤ v.date.year ∧ IsZone v.offset := by
  obtain ⟨parts, hsplit, h⟩ := ok_of_bind h
  cases parts with
  | none => cases h
  | some part =>
    obtain ⟨date, hdate, rfl⟩ := Option.map_eq_some_iff.1 (Except.ok.inj h)
    exact ⟨year_of_readDate? hdate, isZone_of_splitZone? hsplit⟩

theorem ZonedTime.of_read? {label : String} {v : ZonedTime}
    (h : ZonedTime.read? label = .ok (some v)) : IsZone v.offset := by
  obtain ⟨parts, hsplit, h⟩ := ok_of_bind h
  cases parts with
  | none => cases h
  | some part =>
    obtain ⟨time?, _, h⟩ := ok_of_bind h
    obtain ⟨time, _, rfl⟩ := Option.map_eq_some_iff.1 (Except.ok.inj h)
    exact isZone_of_splitZone? hsplit

/-- The date of a label with a time has a year and a zone that labels can have. -/
theorem DateTime.of_read? {label : String} {v : DateTime}
    (h : DateTime.read? label = .ok (some v)) : 1 ≤ v.date.year ∧ IsZone v.offset := by
  obtain ⟨parts, hsplit, h⟩ := ok_of_bind h
  cases parts with
  | none => cases h
  | some part =>
    simp only at h
    split at h
    · cases h
    split at h
    · cases h
    · next date hdate =>
      obtain ⟨time?, _, h⟩ := ok_of_bind h
      obtain ⟨time, _, rfl⟩ := Option.map_eq_some_iff.1 (Except.ok.inj h)
      exact ⟨year_of_readDate? hdate, isZone_of_splitZone? hsplit⟩

/-! ## Stored forms -/

theorem reads_readZone {offset : Option Int} (h : IsZone offset) :
    Reads readZone (zoneBytes offset) offset := by
  unfold readZone
  cases offset with
  | none =>
    refine Reads.last (reads_int (i := noZone) (by decide)) ?_
    rw [if_pos rfl]
    exact reads_pure none
  | some m =>
    have hm : (m.natAbs : Int) ≤ 14 * 60 := h m rfl
    have hpow : Nat.pow 256 2 = 65536 := by decide
    have hfits : Integer.fits 2 m = true := by
      simp only [Integer.fits, Bool.and_eq_true, decide_eq_true_eq, hpow]
      omega
    have hzone : m ≠ noZone := by
      unfold noZone
      omega
    refine Reads.last (a := m) (reads_int hfits) ?_
    rw [if_neg hzone, if_neg (Int.not_lt.2 (h m rfl))]
    exact reads_pure (some m)

theorem fits_julianDay (d : Date) : Integer.fits 4 d.julianDay = true := by
  have hb := d.julianDay_bounds
  have hpow : Nat.pow 256 4 = 4294967296 := by decide
  simp only [Integer.fits, Bool.and_eq_true, decide_eq_true_eq, hpow]
  omega

theorem dateOfDay_julianDay {d : Date} (h : 1 ≤ d.year) : dateOfDay d.julianDay = .ok d := by
  rw [dateOfDay, fits_julianDay]
  simp only [Bool.not_true, Bool.false_eq_true, if_false, Date.ofJulianDay?_julianDay, if_pos h]

theorem timeOfNanos_nanos (t : TimeOfDay) : timeOfNanos t.nanos = .ok t := by
  rw [timeOfNanos, TimeOfDay.ofNanos?_nanos]

/-- The seconds of a date and time are far from the ends of eight bytes. -/
theorem localSeconds_bounds (v : DateTime) :
    -(10 ^ 12 : Int) < v.localSeconds ∧ v.localSeconds < 10 ^ 12 := by
  have hd := v.date.julianDay_bounds
  have ht := v.time.seconds_lt
  unfold DateTime.localSeconds
  unfold epochDay secondsPerDay at *
  omega

theorem offset_bounds {offset : Option Int} (h : IsZone offset) :
    -840 ≤ offset.getD 0 ∧ offset.getD 0 ≤ 840 := by
  cases offset with
  | none => exact ⟨by decide, by decide⟩
  | some m =>
    have hm : (m.natAbs : Int) ≤ 14 * 60 := h m rfl
    show -840 ≤ m ∧ m ≤ 840
    omega

theorem fits_eight {i : Int} (hlow : -(10 ^ 13 : Int) < i) (hhigh : i < 10 ^ 13) :
    Integer.fits 8 i = true := by
  have hpow : Nat.pow 256 8 = 18446744073709551616 := by decide
  simp only [Integer.fits, Bool.and_eq_true, decide_eq_true_eq, hpow]
  omega

/-- The instant of a date and time gives them back with their zone. -/
theorem dateTimeOf_instant {v : DateTime} (hyear : 1 ≤ v.date.year) :
    dateTimeOf (v.localSeconds - v.offset.getD 0 * 60) v.time.nano v.offset = .ok v := by
  have hb := localSeconds_bounds v
  have hs := v.time.seconds_lt
  have hday : v.localSeconds / secondsPerDay + epochDay = v.date.julianDay := by
    unfold DateTime.localSeconds
    unfold secondsPerDay at hs ⊢
    omega
  have hsecond : (v.localSeconds % secondsPerDay).toNat = v.time.seconds := by
    unfold DateTime.localSeconds
    unfold secondsPerDay at hs ⊢
    omega
  have hnano : ¬ nanosPerSecond ≤ v.time.nano := Nat.not_le.2 v.time.bounds.2.2.2
  have htime := timeOfNanos_nanos v.time
  rw [TimeOfDay.nanos] at htime
  unfold dateTimeOf
  simp only [if_neg hnano, Int.sub_add_cancel,
    fits_eight (i := v.localSeconds) (by omega) (by omega), hday, hsecond,
    dateOfDay_julianDay hyear, htime]
  rfl

theorem reads_dateTime {v : DateTime} (hyear : 1 ≤ v.date.year) (hzone : IsZone v.offset) :
    Reads DateTime.read v.bytes v := by
  have hb := localSeconds_bounds v
  have ho := offset_bounds hzone
  have hseconds : Integer.fits 8 (v.localSeconds - v.offset.getD 0 * 60) = true :=
    fits_eight (by omega) (by omega)
  have hnano : v.time.nano < Nat.pow 256 4 := Nat.lt_trans v.time.bounds.2.2.2 (by decide)
  unfold DateTime.read DateTime.bytes
  rw [List.append_assoc]
  refine Reads.bind (reads_int hseconds) ?_
  refine Reads.bind (reads_word _ hnano) ?_
  exact Reads.last (reads_readZone hzone) (reads_check (dateTimeOf_instant hyear))

theorem reads_zonedDate {v : ZonedDate} (hyear : 1 ≤ v.date.year) (hzone : IsZone v.offset) :
    Reads ZonedDate.read v.bytes v := by
  refine Reads.bind (reads_int (fits_julianDay v.date)) ?_
  refine Reads.last (reads_readZone hzone) ?_
  exact Reads.last (reads_check (dateOfDay_julianDay hyear)) (reads_pure v)

theorem reads_zonedTime {v : ZonedTime} (hzone : IsZone v.offset) :
    Reads ZonedTime.read v.bytes v := by
  have hnanos : v.time.nanos < Nat.pow 256 8 := Nat.lt_trans v.time.nanos_lt (by decide)
  refine Reads.bind (reads_word _ hnanos) ?_
  exact (reads_check (timeOfNanos_nanos v.time)).bind ((reads_readZone hzone).last (reads_pure v))

end RdfIndex.Calendar
