import RdfIndex.Calendar.Date
import RdfIndex.Calendar.TimeOfDay

/-!
# Days and nanoseconds count back

A date comes back from its Julian day number, `Date.ofJulianDay?_julianDay`, and a time of day from
its nanoseconds, `TimeOfDay.ofNanos?_nanos`.  For a date the year is found first: the estimate is
off by one at most, since the days before a year differ from the mean by less than two days
(`daysBeforeYear_bounds`).  Then the months are gone through one after the other.
-/

namespace RdfIndex

namespace Date

/-! ## Years -/

theorem isLeapYear_iff {year : Int} :
    isLeapYear year = true ↔ year % 4 = 0 ∧ (year % 100 ≠ 0 ∨ year % 400 = 0) := by
  simp [isLeapYear]

theorem daysBeforeYear_eq (year : Int) : daysBeforeYear year
    = 365 * (year - 1) + (year - 1) / 4 - (year - 1) / 100 + (year - 1) / 400 := rfl

/-- A year is followed by the next one after its days. -/
theorem daysBeforeYear_succ (year : Int) :
    daysBeforeYear (year + 1) = daysBeforeYear year + if isLeapYear year then 366 else 365 := by
  rw [daysBeforeYear_eq, daysBeforeYear_eq]
  by_cases h : isLeapYear year = true
  · rw [if_pos h]
    rw [isLeapYear_iff] at h
    omega
  · rw [if_neg h]
    rw [isLeapYear_iff] at h
    omega

theorem daysBeforeYear_lt_succ (year : Int) : daysBeforeYear year < daysBeforeYear (year + 1) := by
  rw [daysBeforeYear_succ]
  split <;> omega

/-- The days before a year are about 146097 for each 400 years. -/
theorem daysBeforeYear_bounds (year : Int) :
    146097 * (year - 1) - 699 ≤ 400 * daysBeforeYear year
      ∧ 400 * daysBeforeYear year ≤ 146097 * (year - 1) + 396 := by
  rw [daysBeforeYear_eq]
  omega

/-- The year of a day is the one whose days it is among. -/
theorem yearOfDay_eq {n year : Int} (hlow : daysBeforeYear year ≤ n)
    (hhigh : n < daysBeforeYear (year + 1)) : yearOfDay n = year := by
  have hb := daysBeforeYear_bounds year
  have hb' := daysBeforeYear_bounds (year + 1)
  have hbefore := daysBeforeYear_lt_succ (year - 1)
  rw [Int.sub_add_cancel] at hbefore
  have hestimate : n * 400 / 146097 + 1 = year - 1 ∨ n * 400 / 146097 + 1 = year
      ∨ n * 400 / 146097 + 1 = year + 1 := by omega
  unfold yearOfDay
  rcases hestimate with h | h | h
  · have hnext : year - 1 + 1 = year := Int.sub_add_cancel year 1
    simp only [h, hnext]
    rw [if_neg (by omega), if_pos hlow]
  · simp only [h]
    rw [if_neg (by omega), if_neg (by omega)]
  · simp only [h]
    rw [if_pos hhigh]
    omega

/-! ## Months -/

theorem daysBeforeMonth_le {year : Int} {k m : Nat} (h : k ≤ m) :
    daysBeforeMonth year k ≤ daysBeforeMonth year m := by
  induction h with
  | refl => exact Nat.le_refl _
  | step _ ih => exact Nat.le_trans ih (Nat.le_add_right _ _)

/-- Going through the months finds the one that holds a day. -/
theorem monthOfDay_eq {year : Int} {m day : Nat} (hday : day < daysInMonth year m) :
    ∀ {fuel k n : Nat}, k ≤ m → m ≤ k + fuel →
      n + daysBeforeMonth year k = daysBeforeMonth year m + day →
      monthOfDay year fuel k n = (m, day + 1)
  | 0, k, n, hle, hfuel, hn => by
    have hk : k = m := by omega
    subst hk
    rw [monthOfDay, show n = day by omega]
  | fuel + 1, k, n, hle, hfuel, hn => by
    rw [monthOfDay]
    by_cases hk : k = m
    · subst hk
      have hnd : n = day := by omega
      rw [if_pos (by omega), hnd]
    · have hnext : daysBeforeMonth year k + daysInMonth year k ≤ daysBeforeMonth year m :=
        daysBeforeMonth_le (k := k + 1) (by omega)
      have hstep : daysBeforeMonth year (k + 1) = daysBeforeMonth year k + daysInMonth year k := rfl
      rw [if_neg (by omega)]
      exact monthOfDay_eq hday (by omega) (by omega) (by omega)

/-- Only twelve months have days. -/
theorem month_bounds {year : Int} {month : Nat} (h : 0 < daysInMonth year month) :
    1 ≤ month ∧ month ≤ 12 := by
  unfold daysInMonth at h
  split at h <;> first | exact ⟨by decide, by decide⟩ | exact absurd h (Nat.lt_irrefl 0)

theorem daysBeforeMonth_one (year : Int) : daysBeforeMonth year 1 = 0 := rfl

/-- The days of twelve months are the days of a year. -/
theorem daysBeforeMonth_thirteen (year : Int) :
    (daysBeforeMonth year 13 : Int) = if isLeapYear year then 366 else 365 := by
  simp only [daysBeforeMonth, daysInMonth]
  split <;> rfl

/-! ## Dates -/

theorem bounds (d : Date) : -9999 ≤ d.year ∧ d.year ≤ 9999 ∧ 1 ≤ d.day
    ∧ d.day ≤ daysInMonth d.year d.month := by
  have h := d.exists_
  simpa only [isDate, Bool.and_eq_true, decide_eq_true_eq, and_assoc] using h

theorem of?_self (d : Date) : of? d.year d.month d.day = some d := by
  rw [of?, dif_pos d.exists_]

/-- A day of a month is before the first day of the month after it. -/
theorem dayOfYear_lt (d : Date) :
    (daysBeforeMonth d.year d.month : Int) + (d.day - 1)
      < if isLeapYear d.year then 366 else 365 := by
  obtain ⟨_, _, hfirst, hlast⟩ := d.bounds
  have hdays : 0 < daysInMonth d.year d.month := by omega
  obtain ⟨_, htwelve⟩ := month_bounds hdays
  have hnext : daysBeforeMonth d.year d.month + daysInMonth d.year d.month
      ≤ daysBeforeMonth d.year 13 := daysBeforeMonth_le (k := d.month + 1) (by omega)
  rw [← daysBeforeMonth_thirteen]
  omega

/-- A date comes back from its Julian day number. -/
theorem ofJulianDay?_julianDay (d : Date) : ofJulianDay? d.julianDay = some d := by
  obtain ⟨_, _, hfirst, hlast⟩ := d.bounds
  have hdays : 0 < daysInMonth d.year d.month := by omega
  obtain ⟨hone, htwelve⟩ := month_bounds hdays
  have hlt := d.dayOfYear_lt
  rw [← Int.add_lt_add_iff_left (daysBeforeYear d.year), ← daysBeforeYear_succ] at hlt
  have hn : d.julianDay - epoch
      = daysBeforeYear d.year + (daysBeforeMonth d.year d.month + (d.day - 1)) := by
    unfold julianDay
    omega
  have hyear : yearOfDay (d.julianDay - epoch) = d.year := by
    rw [hn]
    exact yearOfDay_eq (by omega) hlt
  have hrest : (d.julianDay - epoch - daysBeforeYear d.year).toNat
      = daysBeforeMonth d.year d.month + (d.day - 1) := by omega
  have hmonth : monthOfDay d.year 11 1 (daysBeforeMonth d.year d.month + (d.day - 1))
      = (d.month, d.day) := by
    have hday : d.day - 1 < daysInMonth d.year d.month := by omega
    rw [monthOfDay_eq hday hone (by omega) (by rw [daysBeforeMonth_one, Nat.add_zero]),
      Nat.sub_add_cancel hfirst]
  unfold ofJulianDay?
  simp only [hyear, hrest, hmonth]
  exact of?_self d

/-- A day is not before the first day of the year that is found for it. -/
theorem daysBeforeYear_yearOfDay_le (n : Int) : daysBeforeYear (yearOfDay n) ≤ n := by
  unfold yearOfDay
  simp only
  split
  · -- The estimate is after the day.  The year before it is not, since it is two days off at most.
    have hb := daysBeforeYear_bounds (n * 400 / 146097 + 1 - 1)
    omega
  split
  · next h => exact h
  · next h _ => exact Int.not_lt.1 h

/-- The days before the month that is found and the day in it make up what was looked for. -/
theorem daysBeforeMonth_monthOfDay (year : Int) : ∀ fuel k n : Nat,
    daysBeforeMonth year (monthOfDay year fuel k n).1 + (monthOfDay year fuel k n).2
      = daysBeforeMonth year k + (n + 1)
  | 0, k, n => rfl
  | fuel + 1, k, n => by
    rw [monthOfDay]
    split
    · rfl
    · rw [daysBeforeMonth_monthOfDay year fuel, daysBeforeMonth]
      omega

theorem eq_of_of? {year : Int} {month day : Nat} {d : Date} (h : of? year month day = some d) :
    d.year = year ∧ d.month = month ∧ d.day = day := by
  rw [of?] at h
  split at h
  · cases h
    exact ⟨rfl, rfl, rfl⟩
  · cases h

/-- Dates and their Julian day numbers belong together. -/
theorem ofJulianDay?_eq_some_iff {julian : Int} {d : Date} :
    ofJulianDay? julian = some d ↔ d.julianDay = julian := by
  constructor
  · intro h
    have hle := daysBeforeYear_yearOfDay_le (julian - epoch)
    rw [ofJulianDay?] at h
    generalize yearOfDay (julian - epoch) = year at h hle
    have hfound :=
      daysBeforeMonth_monthOfDay year 11 1 (julian - epoch - daysBeforeYear year).toNat
    generalize monthOfDay year 11 1 _ = found at h hfound
    obtain ⟨month, day⟩ := found
    obtain ⟨rfl, rfl, rfl⟩ := eq_of_of? h
    simp only [daysBeforeMonth_one] at hfound
    unfold julianDay
    omega
  · rintro rfl
    exact ofJulianDay?_julianDay d

/-- Julian day numbers of dates have less than eight digits. -/
theorem julianDay_bounds (d : Date) : -2000000 < d.julianDay ∧ d.julianDay < 6000000 := by
  obtain ⟨hlow, hhigh, _, _⟩ := d.bounds
  have hlt := d.dayOfYear_lt
  have hb := daysBeforeYear_bounds d.year
  have hle : (if isLeapYear d.year then (366 : Int) else 365) ≤ 366 := by split <;> omega
  unfold julianDay epoch
  omega

end Date

/-! ## Times of day -/

namespace TimeOfDay

theorem bounds (t : TimeOfDay) :
    t.hour < 24 ∧ t.minute < 60 ∧ t.second < 60 ∧ t.nano < nanosPerSecond := by
  have h := t.exists_
  simpa only [isTimeOfDay, Bool.and_eq_true, decide_eq_true_eq, and_assoc] using h

theorem seconds_lt (t : TimeOfDay) : t.seconds < secondsPerDay := by
  have h := t.bounds
  unfold seconds secondsPerDay
  omega

theorem nanos_lt (t : TimeOfDay) : t.nanos < secondsPerDay * nanosPerSecond := by
  have hs := t.seconds_lt
  have hn := t.bounds.2.2.2
  unfold nanos
  unfold nanosPerSecond at hn ⊢
  omega

/-- A time of day comes back from its nanoseconds. -/
theorem ofNanos?_nanos (t : TimeOfDay) : ofNanos? t.nanos = some t := by
  obtain ⟨_, hminute, hsecond, hnano⟩ := t.bounds
  have hdiv : t.nanos / nanosPerSecond = t.seconds := by
    unfold nanos
    unfold nanosPerSecond at hnano ⊢
    omega
  have hmod : t.nanos % nanosPerSecond = t.nano := by
    unfold nanos
    unfold nanosPerSecond at hnano ⊢
    omega
  have hh : t.seconds / 3600 = t.hour := by
    unfold seconds
    omega
  have hm : t.seconds / 60 % 60 = t.minute := by
    unfold seconds
    omega
  have hs : t.seconds % 60 = t.second := by
    unfold seconds
    omega
  unfold ofNanos?
  simp only [hdiv, hmod, hh, hm, hs]
  rw [of?, dif_pos t.exists_]

/-- Times of day and their nanoseconds belong together. -/
theorem ofNanos?_eq_some_iff {n : Nat} {t : TimeOfDay} : ofNanos? n = some t ↔ t.nanos = n := by
  constructor
  · intro h
    rw [ofNanos?] at h
    simp only [of?] at h
    split at h
    · cases h
      have hseconds : n / nanosPerSecond / 3600 * 3600 + n / nanosPerSecond / 60 % 60 * 60
          + n / nanosPerSecond % 60 = n / nanosPerSecond := by omega
      rw [nanos, seconds, hseconds]
      exact Nat.div_add_mod' n nanosPerSecond
    · cases h
  · rintro rfl
    exact ofNanos?_nanos t

end TimeOfDay

end RdfIndex
