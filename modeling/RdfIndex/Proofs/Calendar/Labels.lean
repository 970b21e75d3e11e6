import RdfIndex.Proofs.Calendar.Cuts
import RdfIndex.Proofs.Encoding.Moment
import RdfIndex.Proofs.Number.Scientific

/-!
# Labels of dates and times are read back

The label that a date, a time, or a date with a time is written as is read as the value, together
with its zone: `ZonedDate.read?_text`, `ZonedTime.read?_text`, `DateTime.read?_text`.

Every number but the fraction has a width of its own, so it is read from where it is written
(`digits?_slice`).  The zone is cut off before anything else is looked at.  That goes well since a
label without a zone does not end like one: a date has hyphens and no colons, a time has colons and
no signs (`HasNoZone`).
-/

namespace RdfIndex.Calendar

open Utf8 (encode encode_append encode_cons encode_nil length_encode_of_ascii)

/-! ## Numbers -/

theorem toNat_lt_of_isDigit {c : Char} (h : Numeral.isDigit c = true) : c.toNat < 0x80 := by
  obtain ⟨_, hhigh⟩ := Numeral.toNat_of_isDigit h
  omega

theorem length_encode_padded {width n : Nat} (hwidth : 0 < width) (hn : n < 10 ^ width) :
    (encode (Numeral.padded width n)).length = width := by
  have hall := List.all_eq_true.1 (Numeral.all_padded width n)
  rw [length_encode_of_ascii fun c hc => toNat_lt_of_isDigit (hall c hc),
    Numeral.length_padded hwidth hn]

/-- A number of fixed width is read from where it stands. -/
theorem digits?_slice (front back : List Char) {cs : List Char} {width n start : Nat}
    (hcs : cs = front ++ (Numeral.padded width n ++ back)) (hstart : (encode front).length = start)
    (hwidth : 0 < width) (hn : n < 10 ^ width) :
    digits? width (slice (encode cs) start width) = some n := by
  subst hcs hstart
  have hslice := slice_append (encode front) (encode (Numeral.padded width n)) (encode back)
  rw [length_encode_padded hwidth hn, ← encode_append, ← encode_append] at hslice
  rw [hslice, digits?_encode_eq_some_iff]
  exact ⟨⟨Numeral.length_padded hwidth hn, Numeral.all_padded width n⟩,
    Numeral.value_padded width n⟩

/-- A number of two digits and a character after it. -/
theorem length_encode_pair {n : Nat} (hn : n < 100) {c : Char} (hc : c.toNat < 0x80) :
    (encode (Numeral.padded 2 n ++ [c])).length = 3 := by
  rw [encode_append, List.length_append, length_encode_padded (by decide) hn, encode_cons,
    Utf8.encodeChar_of_lt hc]
  rfl

theorem mem_padded {width n : Nat} {c : Char} (h : c ∈ Numeral.padded width n) :
    Numeral.isDigit c = true :=
  List.all_eq_true.1 (Numeral.all_padded width n) c h

/-! ## Dates -/

theorem daysInMonth_le (year : Int) (month : Nat) : daysInMonth year month ≤ 31 := by
  unfold daysInMonth
  split
  case h_2 => split <;> decide
  all_goals decide

/-- The numbers of a date fit their places. -/
theorem date_lt (d : Date) : d.year.natAbs < 10 ^ 4 ∧ d.month < 100 ∧ d.day < 100 := by
  obtain ⟨hlow, hhigh, hfirst, hlast⟩ := d.bounds
  have hdays := daysInMonth_le d.year d.month
  have hpositive : 0 < daysInMonth d.year d.month := by omega
  obtain ⟨_, hmonth⟩ := Date.month_bounds hpositive
  omega

theorem dateChars_eq {d : Date} (hyear : 1 ≤ d.year) : dateChars d
    = Numeral.padded 4 d.year.natAbs ++ '-' :: (Numeral.padded 2 d.month
      ++ '-' :: Numeral.padded 2 d.day) := by
  rw [dateChars, Numeral.paddedInt, if_neg (by omega), List.append_assoc, List.cons_append]

theorem mem_dateChars {d : Date} (hyear : 1 ≤ d.year) {c : Char} (h : c ∈ dateChars d) :
    Numeral.isDigit c = true ∨ c = '-' := by
  rw [dateChars_eq hyear] at h
  simp only [List.mem_append, List.mem_cons] at h
  rcases h with h | h | h | h | h
  · exact .inl (mem_padded h)
  · exact .inr h
  · exact .inl (mem_padded h)
  · exact .inr h
  · exact .inl (mem_padded h)

theorem not_mem_dateChars {d : Date} (hyear : 1 ≤ d.year) {c : Char}
    (hdigit : Numeral.isDigit c = false) (hhyphen : c ≠ '-') : c ∉ dateChars d := by
  intro h
  rcases mem_dateChars hyear h with h | h
  · exact Bool.eq_false_iff.1 hdigit h
  · exact hhyphen h

theorem length_encode_year (d : Date) : (encode (Numeral.padded 4 d.year.natAbs)).length = 4 :=
  length_encode_padded (by decide) (date_lt d).1

/-- A date has ten bytes, with hyphens in their places. -/
theorem shape_dateChars {d : Date} (hyear : 1 ≤ d.year) : (encode (dateChars d)).length = 10
    ∧ hasAt (encode (dateChars d)) 4 '-' = true ∧ hasAt (encode (dateChars d)) 7 '-' = true := by
  obtain ⟨_, hm, hd⟩ := date_lt d
  have hchars := dateChars_eq hyear
  have hseven : (encode (Numeral.padded 4 d.year.natAbs ++ '-' :: Numeral.padded 2 d.month)).length
      = 7 := by
    rw [encode_append, encode_cons, List.length_append, List.length_append, length_encode_year,
      length_encode_padded (by decide) hm]
    rfl
  have hsplit : dateChars d = (Numeral.padded 4 d.year.natAbs ++ '-' :: Numeral.padded 2 d.month)
      ++ '-' :: Numeral.padded 2 d.day := by
    rw [hchars, List.append_assoc, List.cons_append]
  refine ⟨?_, (hasAt_encode_iff (by decide)).2 ⟨_, _, hchars, length_encode_year d⟩,
    (hasAt_encode_iff (by decide)).2 ⟨_, _, hsplit, hseven⟩⟩
  rw [hsplit, encode_append, encode_cons, List.length_append, List.length_append, hseven,
    length_encode_padded (by decide) hd]
  rfl

theorem readDate?_dateChars {d : Date} (hyear : 1 ≤ d.year) :
    readDate? (encode (dateChars d)) = some d := by
  obtain ⟨hy, hm, hd⟩ := date_lt d
  have hchars := dateChars_eq hyear
  have hfive : (encode (Numeral.padded 4 d.year.natAbs ++ ['-'])).length = 5 := by
    rw [encode_append, List.length_append, length_encode_year]
    rfl
  have height : (encode (Numeral.padded 4 d.year.natAbs
      ++ '-' :: (Numeral.padded 2 d.month ++ ['-']))).length = 8 := by
    rw [encode_append, encode_cons, List.length_append, List.length_append, length_encode_year,
      length_encode_pair hm (by decide)]
    rfl
  have hyear' : digits? 4 (slice (encode (dateChars d)) 0 4) = some d.year.natAbs :=
    digits?_slice [] _ hchars rfl (by decide) hy
  have hmonth : digits? 2 (slice (encode (dateChars d)) 5 2) = some d.month :=
    digits?_slice _ ('-' :: Numeral.padded 2 d.day) (by rw [hchars]; simp) hfive (by decide) hm
  have hday : digits? 2 (slice (encode (dateChars d)) 8 2) = some d.day :=
    digits?_slice _ [] (by rw [hchars]; simp) height (by decide) hd
  have hpositive : ¬ d.year.natAbs = 0 := by omega
  have hself : Date.of? (d.year.natAbs : Int) d.month d.day = some d := by
    rw [Int.natAbs_of_nonneg (by omega)]
    exact d.of?_self
  rw [readDate?, if_pos (shape_dateChars hyear), hyear', hmonth, hday]
  simp only [Option.bind_eq_bind, Option.bind_some, if_neg hpositive]
  exact hself

/-! ## Times -/

/-- A fraction is the first digits of the nanoseconds, up to the last one that is not zero. -/
theorem fractionChars_eq {nano : Nat} (hne : nano ≠ 0) (h : nano < nanosPerSecond) :
    ∃ ds, fractionChars nano = '.' :: ds ∧ ds ≠ [] ∧ ds.all Numeral.isDigit = true
      ∧ ds.length ≤ 9 ∧ Numeral.value ds * 10 ^ (9 - ds.length) = nano := by
  obtain ⟨n, hzeros⟩ := Numeral.dropZeros_append (Numeral.padded 9 nano)
  rw [fractionChars, if_neg hne]
  generalize ((Numeral.padded 9 nano).reverse.dropWhile (· == '0')).reverse = ds at hzeros ⊢
  have hlength := Numeral.length_padded (show 0 < 9 by decide) h
  have hall := Numeral.all_padded 9 nano
  rw [← hzeros, List.length_append, List.length_replicate] at hlength
  rw [← hzeros, List.all_append, Bool.and_eq_true] at hall
  have hvalue : Numeral.value ds * 10 ^ (9 - ds.length) = nano := by
    rw [← Numeral.value_padded 9 nano, ← hzeros, Numeral.value_append_zeros]
    congr 2
    omega
  refine ⟨ds, rfl, ?_, hall.1, by omega, hvalue⟩
  rintro rfl
  exact hne (hvalue ▸ Nat.zero_mul _)

theorem readFraction?_fractionChars {nano : Nat} (h : nano < nanosPerSecond) :
    readFraction? (encode (fractionChars nano)) = some nano := by
  by_cases hzero : nano = 0
  · subst hzero
    rfl
  · obtain ⟨ds, hchars, hnil, hall, hnine, hvalue⟩ := fractionChars_eq hzero h
    have hbytes : (encode ds).length = ds.length :=
      length_encode_of_ascii fun c hc => toNat_lt_of_isDigit (List.all_eq_true.1 hall c hc)
    have hbytesNe : encode ds ≠ [] := fun heq => hnil (Utf8.encode_eq_nil_iff.1 heq)
    rw [hchars]
    show readFraction? (0x2E :: encode ds) = some nano
    rw [readFraction?]
    simp only [hbytes]
    rw [if_pos ⟨trivial, hbytesNe, hnine⟩, digits?_encode hall, Option.map_some]
    exact congrArg some hvalue

theorem timeChars_eq (t : TimeOfDay) : timeChars t
    = Numeral.padded 2 t.hour ++ ':' :: (Numeral.padded 2 t.minute
      ++ ':' :: (Numeral.padded 2 t.second ++ fractionChars t.nano)) := by
  simp only [timeChars, List.append_assoc, List.cons_append]

theorem mem_fractionChars {nano : Nat} (h : nano < nanosPerSecond) {c : Char}
    (hc : c ∈ fractionChars nano) : Numeral.isDigit c = true ∨ c = '.' := by
  by_cases hzero : nano = 0
  · subst hzero
    cases hc
  · obtain ⟨ds, hchars, _, hall, _⟩ := fractionChars_eq hzero h
    rw [hchars] at hc
    rcases List.mem_cons.1 hc with hc | hc
    · exact .inr hc
    · exact .inl (List.all_eq_true.1 hall c hc)

theorem mem_timeChars {t : TimeOfDay} {c : Char} (h : c ∈ timeChars t) :
    Numeral.isDigit c = true ∨ c = ':' ∨ c = '.' := by
  rw [timeChars_eq] at h
  simp only [List.mem_append, List.mem_cons] at h
  rcases h with h | h | h | h | h | h
  · exact .inl (mem_padded h)
  · exact .inr (.inl h)
  · exact .inl (mem_padded h)
  · exact .inr (.inl h)
  · exact .inl (mem_padded h)
  · rcases mem_fractionChars t.bounds.2.2.2 h with h | h
    · exact .inl h
    · exact .inr (.inr h)

theorem not_mem_timeChars {t : TimeOfDay} {c : Char} (hdigit : Numeral.isDigit c = false)
    (hcolon : c ≠ ':') (hpoint : c ≠ '.') : c ∉ timeChars t := by
  intro h
  rcases mem_timeChars h with h | h | h
  · exact Bool.eq_false_iff.1 hdigit h
  · exact hcolon h
  · exact hpoint h

theorem hasTimeShape_timeChars (t : TimeOfDay) : HasTimeShape (timeChars t) := by
  obtain ⟨hh, hm, hs, _⟩ := t.bounds
  have hpair : ∀ {n : Nat}, n < 60 → (encode (Numeral.padded 2 n)).length = 2 := fun h =>
    length_encode_padded (by decide) (by omega)
  refine ⟨_, _, _, timeChars_eq t, hpair (by omega), hpair hm, ?_⟩
  rw [encode_append, List.length_append, hpair hs]
  omega

/-- The hour and the minute, each with its colon. -/
theorem length_encode_minutes (t : TimeOfDay) : (encode (Numeral.padded 2 t.hour ++ [':']
    ++ (Numeral.padded 2 t.minute ++ [':']))).length = 6 := by
  obtain ⟨hh, hm, _, _⟩ := t.bounds
  rw [encode_append, List.length_append, length_encode_pair (by omega) (by decide),
    length_encode_pair (by omega) (by decide)]

theorem digits?_timeChars (t : TimeOfDay) :
    digits? 2 (slice (encode (timeChars t)) 0 2) = some t.hour
      ∧ digits? 2 (slice (encode (timeChars t)) 3 2) = some t.minute
      ∧ digits? 2 (slice (encode (timeChars t)) 6 2) = some t.second := by
  obtain ⟨hh, hm, hs, _⟩ := t.bounds
  have hchars := timeChars_eq t
  refine ⟨digits?_slice [] _ hchars rfl (by decide) (by omega), ?_, ?_⟩
  · exact digits?_slice (Numeral.padded 2 t.hour ++ [':'])
      (':' :: (Numeral.padded 2 t.second ++ fractionChars t.nano)) (by rw [hchars]; simp)
      (length_encode_pair (by omega) (by decide)) (by decide) (by omega)
  · exact digits?_slice _ (fractionChars t.nano) (by rw [hchars]; simp) (length_encode_minutes t)
      (by decide) (by omega)

/-- The fraction starts after the eighth byte, where a time can be cut. -/
theorem fraction_timeChars (t : TimeOfDay) : isBoundary (encode (timeChars t)) 8 = true
    ∧ (encode (timeChars t)).drop 8 = encode (fractionChars t.nano) := by
  obtain ⟨_, _, hs, _⟩ := t.bounds
  have hlength : (encode (Numeral.padded 2 t.hour ++ [':'] ++ (Numeral.padded 2 t.minute ++ [':'])
      ++ Numeral.padded 2 t.second)).length = 8 := by
    rw [encode_append, List.length_append, length_encode_minutes,
      length_encode_padded (by decide) (by omega)]
  have hsplit : timeChars t = (Numeral.padded 2 t.hour ++ [':'] ++ (Numeral.padded 2 t.minute
      ++ [':']) ++ Numeral.padded 2 t.second) ++ fractionChars t.nano := by
    rw [timeChars_eq]
    simp
  constructor
  · refine (isBoundary_encode_iff ?_).2 ⟨_, _, hsplit, hlength⟩
    rw [hsplit, encode_append, List.length_append, hlength]
    omega
  · rw [hsplit, encode_append, ← hlength, List.drop_left]

theorem readTime?_timeChars (t : TimeOfDay) :
    readTime? (encode (timeChars t)) = .ok (some t) := by
  obtain ⟨hhour, hminute, hsecond⟩ := digits?_timeChars t
  obtain ⟨hboundary, hdrop⟩ := fraction_timeChars t
  have hself : TimeOfDay.of? t.hour t.minute t.second t.nano = some t := dif_pos t.exists_
  rw [readTime?, if_pos (hasTimeShape_iff.2 (hasTimeShape_timeChars t)), hhour, hminute]
  simp only [hboundary, if_true, hsecond, hdrop, readFraction?_fractionChars t.bounds.2.2.2,
    Option.bind_eq_bind, Option.bind_some, hself]

/-! ## Zones -/

theorem isSign_ite (m : Int) : IsSign (if m < 0 then '-' else '+') := by
  split
  · exact .inr rfl
  · exact .inl rfl

theorem zoneChars_eq {m : Int} (h : m ≠ 0) : zoneChars (some m)
    = (if m < 0 then '-' else '+') :: (Numeral.padded 2 (m.natAbs / 60)
      ++ ':' :: Numeral.padded 2 (m.natAbs % 60)) := by
  rw [zoneChars, if_neg h]
  rfl

/-- The hours and minutes of an offset fit their places. -/
theorem offset_lt {m : Int} (h : IsZone (some m)) : m.natAbs / 60 < 100 ∧ m.natAbs % 60 < 60 := by
  have hm : (m.natAbs : Int) ≤ 14 * 60 := h m rfl
  omega

theorem isPair_padded {n : Nat} (h : n < 100) : IsPair (Numeral.padded 2 n) :=
  ⟨Numeral.length_padded (by decide) h, Numeral.all_padded 2 n⟩

theorem isOffset_zoneChars {m : Int} (hne : m ≠ 0) (h : IsZone (some m)) :
    IsOffset (zoneChars (some m)) := by
  obtain ⟨hhours, hminutes⟩ := offset_lt h
  refine ⟨_, _, _, zoneChars_eq hne, isSign_ite m, isPair_padded hhours,
    isPair_padded (by omega), ?_, ?_⟩
  · rwa [Numeral.value_padded]
  · rw [Numeral.value_padded, Numeral.value_padded, Nat.div_add_mod']
    exact h m rfl

theorem readZone?_zoneChars {m : Int} (hne : m ≠ 0) (h : IsZone (some m)) :
    readZone? (encode (zoneChars (some m))) = some (some m) := by
  obtain ⟨hhours, hminutes⟩ := offset_lt h
  have hoffset := isOffset_zoneChars hne h
  have hsix := hoffset.hasZoneShape.length_encode
  have hchars := zoneChars_eq hne
  generalize hsign : (if m < 0 then '-' else '+') = sign at hchars
  have hs : IsSign sign := hsign ▸ isSign_ite m
  have hfront : ∀ cs, (encode (sign :: cs)).length = (encode cs).length + 1 := fun cs => by
    rw [encode_cons, hs.encodeChar, List.length_append, List.length_singleton, Nat.add_comm]
  have hhour : digits? 2 (slice (encode (zoneChars (some m))) 1 2) = some (m.natAbs / 60) :=
    digits?_slice [sign] _ hchars (hfront []) (by decide) hhours
  have hminute : digits? 2 (slice (encode (zoneChars (some m))) 4 2) = some (m.natAbs % 60) := by
    refine digits?_slice (sign :: (Numeral.padded 2 (m.natAbs / 60) ++ [':'])) []
      (by rw [hchars]; simp) ?_ (by decide) (by omega)
    rw [hfront, length_encode_pair hhours (by decide)]
  have hnegative : (hasAt (encode (zoneChars (some m))) 0 '-' = true) ↔ m < 0 := by
    rw [hchars, encode_zone hs, ← hsign]
    split <;> simp_all [hasAt]
  have hlimit : ¬ maxOffset < (m.natAbs : Int) := Int.not_lt.2 (h m rfl)
  rw [readZone?, if_pos ((hasZoneShape_iff hsix).2 hoffset.hasZoneShape), hhour, hminute]
  simp only [Option.bind_eq_bind, Option.bind_some, if_neg (Nat.not_le.2 hminutes),
    Nat.div_add_mod', if_neg hlimit, hnegative, Option.some.injEq]
  split
  · exact congrArg some (by omega)
  · exact congrArg some (by omega)

/-- A text that does not end like a label with a zone. -/
structure HasNoZone (front : List Char) : Prop where
  ascii : ∀ c ∈ front, c.toNat < 0x80
  not_utc : 'Z' ∉ front
  not_zone : ∀ before zone, front = before ++ zone → ¬ HasZoneShape zone

/-- The zone of a label is cut off as it was written, whatever stands before it. -/
theorem splitZone?_zoneChars {front : List Char} {offset : Option Int} (hfront : HasNoZone front)
    (hzone : IsZone offset) :
    splitZone? (encode (front ++ zoneChars offset)) = .ok (some (encode front, offset)) := by
  cases offset with
  | none =>
    have hcut : ¬ CutsZone front := fun ⟨_, _, hplace⟩ => hplace
      (Utf8.isPlace_of_ascii hfront.ascii
        (by rw [← length_encode_of_ascii hfront.ascii]; exact Nat.sub_le _ _))
    have hlast : front.getLast? ≠ some 'Z' := fun h => hfront.not_utc (List.mem_of_getLast? h)
    rw [zoneChars, List.append_nil]
    exact splitZone?_whole hcut hlast hfront.not_zone
  | some m =>
    by_cases hm : m = 0
    · subst hm
      exact splitZone?_utc front
    · have hoffset := isOffset_zoneChars hm hzone
      rw [splitZone?_six (hoffset.getLast?_ne front) hoffset.hasZoneShape.length_encode,
        readZone?_zoneChars hm hzone]

theorem HasZoneShape.mem {zone : List Char} (h : HasZoneShape zone) :
    ':' ∈ zone ∧ ∃ sign ∈ zone, IsSign sign := by
  obtain ⟨sign, hours, minutes, rfl, hsign, _⟩ := h
  exact ⟨by simp, sign, List.mem_cons_self, hsign⟩

/-- A date has no colon. -/
theorem hasNoZone_dateChars {d : Date} (hyear : 1 ≤ d.year) : HasNoZone (dateChars d) where
  ascii c hc := by
    rcases mem_dateChars hyear hc with h | rfl
    · exact toNat_lt_of_isDigit h
    · decide
  not_utc := not_mem_dateChars hyear (by decide) (by decide)
  not_zone before zone heq hshape := by
    have hcolon := List.mem_append_right before hshape.mem.1
    rw [← heq] at hcolon
    exact not_mem_dateChars hyear (by decide) (by decide) hcolon

/-- A time has no sign. -/
theorem hasNoZone_timeChars (t : TimeOfDay) : HasNoZone (timeChars t) where
  ascii c hc := by
    rcases mem_timeChars hc with h | rfl | rfl
    · exact toNat_lt_of_isDigit h
    · decide
    · decide
  not_utc := not_mem_timeChars (by decide) (by decide) (by decide)
  not_zone before zone heq hshape := by
    obtain ⟨_, sign, hmem, hsign⟩ := hshape.mem
    have hmem := List.mem_append_right before hmem
    rw [← heq] at hmem
    rcases hsign with rfl | rfl
    · exact not_mem_timeChars (by decide) (by decide) (by decide) hmem
    · exact not_mem_timeChars (by decide) (by decide) (by decide) hmem

/-- A zone is shorter than a time, so the end of a date with a time is the end of the time. -/
theorem hasNoZone_dateTime {d : Date} (hyear : 1 ≤ d.year) (t : TimeOfDay) :
    HasNoZone (dateChars d ++ 'T' :: timeChars t) where
  ascii c hc := by
    rcases List.mem_append.1 hc with hc | hc
    · exact (hasNoZone_dateChars hyear).ascii c hc
    rcases List.mem_cons.1 hc with rfl | hc
    · decide
    · exact (hasNoZone_timeChars t).ascii c hc
  not_utc hmem := by
    rcases List.mem_append.1 hmem with hmem | hmem
    · exact (hasNoZone_dateChars hyear).not_utc hmem
    rcases List.mem_cons.1 hmem with h | hmem
    · exact absurd h (by decide)
    · exact (hasNoZone_timeChars t).not_utc hmem
  not_zone before zone heq hshape := by
    rw [List.append_cons, List.append_eq_append_iff] at heq
    rcases heq with ⟨middle, _, htime⟩ | ⟨middle, _, hzone⟩
    · exact (hasNoZone_timeChars t).not_zone middle zone htime hshape
    · have hlong := (hasTimeShape_iff.2 (hasTimeShape_timeChars t)).1
      have hsix := hshape.length_encode
      rw [hzone, encode_append, List.length_append] at hsix
      omega

/-! ## Whole labels -/

theorem ZonedDate.read?_text {v : ZonedDate} (hyear : 1 ≤ v.date.year) (hzone : IsZone v.offset) :
    ZonedDate.read? v.text = .ok (some v) := by
  rw [ZonedDate.read?, Utf8.bytes, text, String.toList_ofList,
    splitZone?_zoneChars (hasNoZone_dateChars hyear) hzone, ok_bind]
  simp only [readDate?_dateChars hyear]
  rfl

theorem ZonedTime.read?_text {v : ZonedTime} (hzone : IsZone v.offset) :
    ZonedTime.read? v.text = .ok (some v) := by
  rw [ZonedTime.read?, Utf8.bytes, text, String.toList_ofList,
    splitZone?_zoneChars (hasNoZone_timeChars v.time) hzone, ok_bind]
  simp only [readTime?_timeChars]
  rfl

theorem DateTime.read?_text {v : DateTime} (hyear : 1 ≤ v.date.year) (hzone : IsZone v.offset) :
    DateTime.read? v.text = .ok (some v) := by
  have hmem : 'T' ∉ dateChars v.date := not_mem_dateChars hyear (by decide) (by decide)
  have hsplit := splitAtT?_encode_eq_some_iff.2
    ⟨dateChars v.date, timeChars v.time, rfl, hmem, rfl, rfl⟩
  rw [DateTime.read?, Utf8.bytes, text, String.toList_ofList, splitZone?_zoneChars
    (hasNoZone_dateTime hyear v.time) hzone, ok_bind]
  simp only [hsplit, readDate?_dateChars hyear, readTime?_timeChars]
  rfl

end RdfIndex.Calendar
