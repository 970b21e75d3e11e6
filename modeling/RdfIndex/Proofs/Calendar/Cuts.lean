import RdfIndex.Proofs.Calendar.Characters
import RdfIndex.Proofs.Results

/-!
# Labels that are cut inside a character

The readers of dates and times cut a label by its bytes, at two places.  The zone is cut off before
it is known that the last six bytes are those of a zone, or of whole characters at all (`CutsZone`).
The seconds are cut off after the colons, the hour and the minute are seen, but before it is known
that the two bytes after them are digits (`CutsSeconds`).

Nothing else makes a reader fail.  The bytes of a text can be cut next to a character of ASCII, so
the parts that are cut at a colon, at a sign or at the `T` are texts again.  What is read of a label
is therefore said by its characters here: what stands before the zone is `Before`, and
`ZonedDate.read?_ok_iff`, `ZonedTime.read?_ok_iff` and `DateTime.read?_ok_iff` give the labels on
which a reader does not fail.
-/

namespace RdfIndex.Calendar

open Utf8 (IsPlace encode encode_append encode_cons of_encode_eq_append)

/-! ## The zone -/

/-- The sign of an offset. -/
def IsSign (c : Char) : Prop := c = '+' ∨ c = '-'

/-- A sign, two bytes, a colon and two bytes: what is taken for a zone. -/
def HasZoneShape (zone : List Char) : Prop :=
  ∃ sign hours minutes, zone = sign :: (hours ++ ':' :: minutes) ∧ IsSign sign
    ∧ (encode hours).length = 2 ∧ (encode minutes).length = 2

/-- A sign, with the hours and minutes of an offset of at most fourteen hours. -/
def IsOffset (zone : List Char) : Prop :=
  ∃ sign hours minutes, zone = sign :: (hours ++ ':' :: minutes) ∧ IsSign sign ∧ IsPair hours
    ∧ IsPair minutes ∧ Numeral.value minutes < 60
    ∧ ((Numeral.value hours * 60 + Numeral.value minutes : Nat) : Int) ≤ maxOffset

/-- The last six bytes of a label that does not end with `Z` start inside a character. -/
def CutsZone (label : List Char) : Prop :=
  label.getLast? ≠ some 'Z' ∧ 6 ≤ (encode label).length
    ∧ ¬ IsPlace label ((encode label).length - 6)

/-- What stands before the zone of a label. -/
inductive Before (label : List Char) : List Char → Prop
  | utc {front : List Char} (h : label = front ++ ['Z']) : Before label front
  | offset {front zone : List Char} (h : label = front ++ zone) (hzone : IsOffset zone) :
      Before label front
  | whole (hutc : label.getLast? ≠ some 'Z')
      (hzone : ∀ front zone, label = front ++ zone → ¬ HasZoneShape zone) : Before label label

theorem IsSign.encodeChar {c : Char} (h : IsSign c) :
    Utf8.encodeChar c = [UInt8.ofNat c.toNat] := by
  rcases h with rfl | rfl <;> rfl

theorem IsOffset.hasZoneShape {zone : List Char} (h : IsOffset zone) : HasZoneShape zone := by
  obtain ⟨sign, hours, minutes, rfl, hsign, hhours, hminutes, _⟩ := h
  exact ⟨sign, hours, minutes, rfl, hsign, hhours.length_encode, hminutes.length_encode⟩

/-- An offset ends with a digit. -/
theorem IsOffset.getLast?_ne {zone : List Char} (h : IsOffset zone) (front : List Char) :
    (front ++ zone).getLast? ≠ some 'Z' := by
  obtain ⟨sign, hours, minutes, rfl, _, _, ⟨hlength, hdigits⟩, _⟩ := h
  have hne : minutes ≠ [] := List.ne_nil_of_length_pos (by omega)
  have happend : front ++ sign :: (hours ++ ':' :: minutes)
      = (front ++ sign :: (hours ++ [':'])) ++ minutes := by simp
  rw [happend, List.getLast?_append, List.getLast?_eq_some_getLast hne, Option.some_or]
  intro hlast
  have hdigit := List.all_eq_true.1 hdigits _ (List.getLast_mem hne)
  rw [Option.some.inj hlast] at hdigit
  cases hdigit

theorem encode_zone {sign : Char} (hsign : IsSign sign) (hours minutes : List Char) :
    encode (sign :: (hours ++ ':' :: minutes))
      = UInt8.ofNat sign.toNat :: (encode hours ++ 0x3A :: encode minutes) := by
  rw [encode_cons, hsign.encodeChar, encode_append, encode_cons]
  rfl

theorem HasZoneShape.length_encode {zone : List Char} (h : HasZoneShape zone) :
    (encode zone).length = 6 := by
  obtain ⟨sign, hours, minutes, rfl, hsign, hhours, hminutes⟩ := h
  rw [encode_zone hsign, List.length_cons, List.length_append, List.length_cons, hhours, hminutes]

/-- Six bytes with a sign first and a colon in the fourth place are those of such a text. -/
theorem hasZoneShape_iff {zone : List Char} (h : (encode zone).length = 6) :
    ((hasAt (encode zone) 0 '+' ∨ hasAt (encode zone) 0 '-') ∧ hasAt (encode zone) 3 ':')
      ↔ HasZoneShape zone := by
  constructor
  · rintro ⟨hfirst, hcolon⟩
    obtain ⟨sign, rest, rfl, hsign⟩ : ∃ sign rest, zone = sign :: rest ∧ IsSign sign := by
      rcases hfirst with hfirst | hfirst
      all_goals
        obtain ⟨front, rest, hzone, hfront⟩ := (hasAt_encode_iff (by decide)).1 hfirst
        obtain rfl := Utf8.encode_eq_nil_iff.1 (List.length_eq_zero_iff.1 hfront)
      · exact ⟨'+', rest, hzone, .inl rfl⟩
      · exact ⟨'-', rest, hzone, .inr rfl⟩
    obtain ⟨front, minutes, hzone, hfront⟩ := (hasAt_encode_iff (by decide)).1 hcolon
    cases front with
    | nil => cases hfront
    | cons c hours =>
      rw [List.cons_append] at hzone
      obtain ⟨rfl, rfl⟩ := List.cons.inj hzone
      rw [encode_cons, hsign.encodeChar, List.singleton_append, List.length_cons] at hfront
      rw [encode_zone hsign, List.length_cons, List.length_append, List.length_cons] at h
      exact ⟨sign, hours, minutes, rfl, hsign, by omega, by omega⟩
  · rintro ⟨sign, hours, minutes, rfl, hsign, hhours, _⟩
    rw [encode_zone hsign]
    refine ⟨?_, hasAt_iff.2 ⟨UInt8.ofNat sign.toNat :: encode hours, encode minutes, rfl, ?_⟩⟩
    · rcases hsign with rfl | rfl
      · exact .inl rfl
      · exact .inr rfl
    · rw [List.length_cons, hhours]

/-- What is read off the shape of a zone. -/
theorem readZone?_encode {sign : Char} {hours minutes : List Char} (hsign : IsSign sign)
    (hhours : (encode hours).length = 2) (hminutes : (encode minutes).length = 2) :
    (∃ offset, readZone? (encode (sign :: (hours ++ ':' :: minutes))) = some (some offset))
      ↔ IsPair hours ∧ IsPair minutes ∧ Numeral.value minutes < 60
        ∧ ((Numeral.value hours * 60 + Numeral.value minutes : Nat) : Int) ≤ maxOffset := by
  have hshape : HasZoneShape (sign :: (hours ++ ':' :: minutes)) :=
    ⟨sign, hours, minutes, rfl, hsign, hhours, hminutes⟩
  have hsliceHours : slice (encode (sign :: (hours ++ ':' :: minutes))) 1 2 = encode hours := by
    have h := slice_append [UInt8.ofNat sign.toNat] (encode hours) (0x3A :: encode minutes)
    rw [hhours] at h
    rw [encode_zone hsign]
    exact h
  have hsliceMinutes :
      slice (encode (sign :: (hours ++ ':' :: minutes))) 4 2 = encode minutes := by
    have h := slice_append (UInt8.ofNat sign.toNat :: (encode hours ++ [0x3A])) (encode minutes) []
    rw [hminutes, List.length_cons, List.length_append, hhours, List.append_nil, List.cons_append,
      List.append_assoc] at h
    rw [encode_zone hsign]
    exact h
  rw [readZone?, if_pos ((hasZoneShape_iff hshape.length_encode).2 hshape), hsliceHours,
    hsliceMinutes]
  constructor
  · rintro ⟨offset, h⟩
    obtain ⟨hour, hhour, h⟩ := Option.bind_eq_some_iff.1 (Option.some.inj h)
    obtain ⟨minute, hminute, h⟩ := Option.bind_eq_some_iff.1 h
    obtain ⟨hpairHours, rfl⟩ := digits?_encode_eq_some_iff.1 hhour
    obtain ⟨hpairMinutes, rfl⟩ := digits?_encode_eq_some_iff.1 hminute
    by_cases hsixty : 60 ≤ Numeral.value minutes
    · simp only [if_pos hsixty] at h
      cases h
    · simp only [if_neg hsixty] at h
      by_cases htotal : maxOffset < ((Numeral.value hours * 60 + Numeral.value minutes : Nat) : Int)
      · rw [if_pos htotal] at h
        cases h
      · exact ⟨hpairHours, hpairMinutes, Nat.lt_of_not_le hsixty, Int.not_lt.1 htotal⟩
  · rintro ⟨hpairHours, hpairMinutes, hsixty, htotal⟩
    rw [digits?_encode_eq_some_iff.2 ⟨hpairHours, rfl⟩,
      digits?_encode_eq_some_iff.2 ⟨hpairMinutes, rfl⟩]
    simp only [Option.bind_eq_bind, Option.bind_some, if_neg (Nat.not_le.2 hsixty),
      if_neg (Int.not_lt.2 htotal)]
    split
    · exact ⟨_, rfl⟩
    · exact ⟨_, rfl⟩

theorem readZone?_eq_none_iff {zone : List Char} (h : (encode zone).length = 6) :
    readZone? (encode zone) = none ↔ ¬ HasZoneShape zone := by
  rw [← hasZoneShape_iff h, readZone?]
  split
  · next hshape => exact ⟨nofun, fun hnot => absurd hshape hnot⟩
  · next hshape => exact ⟨fun _ => hshape, fun _ => rfl⟩

/-- The six bytes of a zone that is accepted are those of its offset. -/
theorem readZone?_eq_some_iff {zone : List Char} (h : (encode zone).length = 6) :
    (∃ offset, readZone? (encode zone) = some (some offset)) ↔ IsOffset zone := by
  constructor
  · rintro ⟨offset, hread⟩
    have hshape : HasZoneShape zone := by
      refine Classical.byContradiction fun hnot => ?_
      rw [(readZone?_eq_none_iff h).2 hnot] at hread
      cases hread
    obtain ⟨sign, hours, minutes, rfl, hsign, hhours, hminutes⟩ := hshape
    obtain ⟨hpairHours, hpairMinutes, hlimits⟩ :=
      (readZone?_encode hsign hhours hminutes).1 ⟨offset, hread⟩
    exact ⟨sign, hours, minutes, rfl, hsign, hpairHours, hpairMinutes, hlimits⟩
  · rintro ⟨sign, hours, minutes, rfl, hsign, hhours, hminutes, hlimits⟩
    exact (readZone?_encode hsign hhours.length_encode hminutes.length_encode).2
      ⟨hhours, hminutes, hlimits⟩

theorem getLast?_encode_utc {label : List Char} :
    (encode label).getLast? = some 0x5A ↔ label.getLast? = some 'Z' :=
  Utf8.getLast?_encode_eq_some_iff (c := 'Z') (by decide)

theorem splitZone?_utc (front : List Char) :
    splitZone? (encode (front ++ ['Z'])) = .ok (some (encode front, some 0)) := by
  have hutc := getLast?_encode_utc.2 (List.getLast?_concat (l := front) (a := 'Z'))
  rw [splitZone?, if_pos hutc, encode_append]
  show Except.ok (some ((encode front ++ [0x5A]).dropLast, some (0 : Int))) = _
  rw [List.dropLast_concat]

theorem splitZone?_short {label : List Char} (hutc : label.getLast? ≠ some 'Z')
    (h : (encode label).length < 6) :
    splitZone? (encode label) = .ok (some (encode label, none)) := by
  rw [splitZone?, if_neg (fun hlast => hutc (getLast?_encode_utc.1 hlast)),
    if_neg (Nat.not_le.2 h)]

theorem splitZone?_cut {label : List Char} (h : CutsZone label) :
    splitZone? (encode label) = .error ⟨(encode label).length - 6⟩ := by
  obtain ⟨hutc, hsix, hplace⟩ := h
  have hboundary : ¬ isBoundary (encode label) ((encode label).length - 6) = true :=
    fun hb => hplace ((isBoundary_encode_iff (Nat.sub_le _ _)).1 hb)
  rw [splitZone?, if_neg (fun hlast => hutc (getLast?_encode_utc.1 hlast)), if_pos hsix]
  simp only [if_neg hboundary]

theorem splitZone?_six {front zone : List Char} (hutc : (front ++ zone).getLast? ≠ some 'Z')
    (hsix : (encode zone).length = 6) : splitZone? (encode (front ++ zone))
      = match readZone? (encode zone) with
        | none => .ok (some (encode (front ++ zone), none))
        | some none => .ok none
        | some (some offset) => .ok (some (encode front, some offset)) := by
  have hlength : (encode (front ++ zone)).length = (encode front).length + 6 := by
    rw [encode_append, List.length_append, hsix]
  have hstart : (encode (front ++ zone)).length - 6 = (encode front).length := by
    rw [hlength, Nat.add_sub_cancel]
  have hboundary : isBoundary (encode (front ++ zone)) (encode front).length = true :=
    (isBoundary_encode_iff (by omega)).2 ⟨front, zone, rfl, rfl⟩
  have hsplit : splitZone? (encode (front ++ zone))
      = match readZone? ((encode (front ++ zone)).drop (encode front).length) with
        | none => .ok (some (encode (front ++ zone), none))
        | some none => .ok none
        | some (some offset) =>
          .ok (some ((encode (front ++ zone)).take (encode front).length, some offset)) := by
    rw [splitZone?, if_neg (fun hlast => hutc (getLast?_encode_utc.1 hlast)), if_pos (by omega)]
    simp only [hstart]
    exact if_pos hboundary
  rw [hsplit, encode_append, List.drop_left, List.take_left]

/-- How a label ends that can be cut. -/
theorem ending_of_not_cutsZone {label : List Char} (h : ¬ CutsZone label) :
    (∃ front, label = front ++ ['Z']) ∨ label.getLast? ≠ some 'Z' ∧ ((encode label).length < 6
      ∨ ∃ front zone, label = front ++ zone ∧ (encode zone).length = 6) := by
  by_cases hutc : label.getLast? = some 'Z'
  · exact .inl (List.getLast?_eq_some_iff.1 hutc)
  refine .inr ⟨hutc, ?_⟩
  rcases Nat.lt_or_ge (encode label).length 6 with hlt | hge
  · exact .inl hlt
  obtain ⟨front, zone, rfl, hfront⟩ : IsPlace label ((encode label).length - 6) :=
    Classical.byContradiction fun hplace => h ⟨hutc, hge, hplace⟩
  refine .inr ⟨front, zone, rfl, ?_⟩
  rw [encode_append, List.length_append] at hfront hge
  omega

/-- The zone of a label can be cut off unless the last six bytes start inside a character. -/
theorem splitZone?_ok_iff {label : List Char} :
    (∃ v, splitZone? (encode label) = .ok v) ↔ ¬ CutsZone label := by
  constructor
  · rintro ⟨v, hv⟩ hcut
    rw [splitZone?_cut hcut] at hv
    cases hv
  · intro h
    rcases ending_of_not_cutsZone h with ⟨front, rfl⟩ | ⟨hutc, hshort | ⟨front, zone, rfl, hsix⟩⟩
    · exact ⟨_, splitZone?_utc front⟩
    · exact ⟨_, splitZone?_short hutc hshort⟩
    · rw [splitZone?_six hutc hsix]
      split <;> exact ⟨_, rfl⟩

/-- A label that does not end like a zone has none. -/
theorem splitZone?_whole {label : List Char} (h : ¬ CutsZone label)
    (hutc : label.getLast? ≠ some 'Z')
    (hzone : ∀ front zone, label = front ++ zone → ¬ HasZoneShape zone) :
    splitZone? (encode label) = .ok (some (encode label, none)) := by
  rcases ending_of_not_cutsZone h with ⟨front, rfl⟩ | ⟨_, hshort | ⟨front, zone, rfl, hsix⟩⟩
  · exact absurd List.getLast?_concat hutc
  · exact splitZone?_short hutc hshort
  · rw [splitZone?_six hutc hsix, (readZone?_eq_none_iff hsix).2 (hzone front zone rfl)]

/-- What is left when the zone is cut off is what stands before it. -/
theorem splitZone?_eq_some_iff {label : List Char} {body : Bytes} (h : ¬ CutsZone label) :
    (∃ offset, splitZone? (encode label) = .ok (some (body, offset)))
      ↔ ∃ front, body = encode front ∧ Before label front := by
  constructor
  · rintro ⟨offset, hsplit⟩
    rcases ending_of_not_cutsZone h with ⟨front, rfl⟩ | ⟨hutc, hshort | ⟨front, zone, rfl, hsix⟩⟩
    · rw [splitZone?_utc] at hsplit
      cases hsplit
      exact ⟨front, rfl, .utc rfl⟩
    · rw [splitZone?_short hutc hshort] at hsplit
      cases hsplit
      refine ⟨label, rfl, .whole hutc ?_⟩
      rintro front zone rfl hshape
      rw [encode_append, List.length_append, hshape.length_encode] at hshort
      omega
    · rw [splitZone?_six hutc hsix] at hsplit
      split at hsplit
      · next hzone =>
        cases hsplit
        refine ⟨_, rfl, .whole hutc ?_⟩
        intro front' zone' heq hshape
        obtain ⟨_, rfl⟩ := Utf8.eq_of_append_eq heq (hsix.trans hshape.length_encode.symm)
        exact (readZone?_eq_none_iff hsix).1 hzone hshape
      · cases hsplit
      · next offset hzone =>
        cases hsplit
        exact ⟨front, rfl, .offset rfl ((readZone?_eq_some_iff hsix).1 ⟨_, hzone⟩)⟩
  · rintro ⟨front, rfl, hbefore⟩
    cases hbefore with
    | utc heq =>
      subst heq
      exact ⟨_, splitZone?_utc front⟩
    | offset heq hzone =>
      subst heq
      obtain ⟨offset, hread⟩ := (readZone?_eq_some_iff hzone.hasZoneShape.length_encode).2 hzone
      rw [splitZone?_six (hzone.getLast?_ne front) hzone.hasZoneShape.length_encode, hread]
      exact ⟨offset, rfl⟩
    | whole hutc hzone => exact ⟨none, splitZone?_whole h hutc hzone⟩

/-! ## The seconds -/

/-- Two bytes, a colon, two bytes, a colon and two more bytes: what is taken for a time. -/
def HasTimeShape (time : List Char) : Prop :=
  ∃ hour minute rest, time = hour ++ ':' :: (minute ++ ':' :: rest) ∧ (encode hour).length = 2
    ∧ (encode minute).length = 2 ∧ 2 ≤ (encode rest).length

/-- After the hour and the minute of a time there are two bytes or more, and the second of them is
not the last one of a character. -/
def CutsSeconds (time : List Char) : Prop :=
  ∃ hour minute rest, time = hour ++ ':' :: (minute ++ ':' :: rest) ∧ IsPair hour ∧ IsPair minute
    ∧ 2 ≤ (encode rest).length ∧ ¬ IsPlace rest 2

theorem encode_time (hour minute rest : List Char) :
    encode (hour ++ ':' :: (minute ++ ':' :: rest))
      = (encode hour ++ [0x3A]) ++ ((encode minute ++ [0x3A]) ++ encode rest) := by
  rw [encode_append, encode_cons, encode_append, encode_cons, List.append_assoc, List.append_assoc]
  rfl

/-- Eight bytes or more with colons in the third and the sixth place are those of a text of that
shape. -/
theorem hasTimeShape_iff {time : List Char} :
    (8 ≤ (encode time).length ∧ hasAt (encode time) 2 ':' ∧ hasAt (encode time) 5 ':')
      ↔ HasTimeShape time := by
  constructor
  · rintro ⟨height, hfirst, hsecond⟩
    obtain ⟨hour, back, rfl, hhour⟩ := (hasAt_encode_iff (by decide)).1 hfirst
    have hback : encode (hour ++ ':' :: back) = (encode hour ++ [0x3A]) ++ encode back := by
      rw [encode_append, encode_cons, List.append_assoc]
      rfl
    have hfront : (encode hour ++ [0x3A]).length = 3 := by rw [List.length_append, hhour]; rfl
    have hshift := hasAt_append (encode hour ++ [0x3A]) (encode back) 2 ':'
    rw [hfront, ← hback, hsecond] at hshift
    obtain ⟨minute, rest, rfl, hminute⟩ := (hasAt_encode_iff (by decide)).1 hshift.symm
    refine ⟨hour, minute, rest, rfl, hhour, hminute, ?_⟩
    rw [encode_time] at height
    simp only [List.length_append, List.length_singleton, hhour, hminute] at height
    omega
  · rintro ⟨hour, minute, rest, rfl, hhour, hminute, hrest⟩
    refine ⟨?_, (hasAt_encode_iff (by decide)).2 ⟨hour, _, rfl, hhour⟩,
      (hasAt_encode_iff (by decide)).2 ⟨hour ++ ':' :: minute, rest, by simp, ?_⟩⟩
    · rw [encode_time]
      simp only [List.length_append, List.length_singleton, hhour, hminute]
      omega
    · rw [encode_append, encode_cons, List.length_append, List.length_append, hhour, hminute]
      rfl

/-- What is read off the shape of a time. -/
theorem readTime?_encode {hour minute rest : List Char} (hhour : (encode hour).length = 2)
    (hminute : (encode minute).length = 2) (hrest : 2 ≤ (encode rest).length) :
    (∃ v, readTime? (encode (hour ++ ':' :: (minute ++ ':' :: rest))) = .ok v)
      ↔ ¬ (IsPair hour ∧ IsPair minute ∧ ¬ IsPlace rest 2) := by
  have hshape : HasTimeShape (hour ++ ':' :: (minute ++ ':' :: rest)) :=
    ⟨hour, minute, rest, rfl, hhour, hminute, hrest⟩
  have hfront : (encode hour ++ [0x3A]).length = 3 := by rw [List.length_append, hhour]; rfl
  have hsliceHour :
      slice (encode (hour ++ ':' :: (minute ++ ':' :: rest))) 0 2 = encode hour := by
    have h := slice_append [] (encode hour) ([0x3A] ++ ((encode minute ++ [0x3A]) ++ encode rest))
    rw [hhour, List.nil_append, ← List.append_assoc, ← encode_time] at h
    exact h
  have hsliceMinute :
      slice (encode (hour ++ ':' :: (minute ++ ':' :: rest))) 3 2 = encode minute := by
    have h := slice_append (encode hour ++ [0x3A]) (encode minute) ([0x3A] ++ encode rest)
    rwa [hfront, hminute, ← List.append_assoc (encode minute), ← encode_time] at h
  have hboundary : isBoundary (encode (hour ++ ':' :: (minute ++ ':' :: rest))) 8 = true
      ↔ IsPlace rest 2 := by
    have h := isBoundary_append ((encode hour ++ [0x3A]) ++ (encode minute ++ [0x3A]))
      (encode rest) 2
    rw [List.append_assoc (encode hour ++ [0x3A]), ← encode_time, List.length_append, hfront,
      List.length_append, hminute] at h
    rw [← isBoundary_encode_iff hrest, ← h]
    rfl
  rw [readTime?, if_pos (hasTimeShape_iff.2 hshape), hsliceHour, hsliceMinute]
  split
  · next hours minutes hreadHour hreadMinute =>
    have hpairHour := (digits?_encode_eq_some_iff.1 hreadHour).1
    have hpairMinute := (digits?_encode_eq_some_iff.1 hreadMinute).1
    by_cases hplace : IsPlace rest 2
    · rw [if_pos (hboundary.2 hplace)]
      exact ⟨fun _ h => h.2.2 hplace, fun _ => ⟨_, rfl⟩⟩
    · rw [if_neg (fun h => hplace (hboundary.1 h))]
      exact ⟨fun ⟨_, h⟩ => (by cases h), fun h => absurd ⟨hpairHour, hpairMinute, hplace⟩ h⟩
  · next hnone =>
    refine ⟨fun _ h => ?_, fun _ => ⟨none, rfl⟩⟩
    exact hnone _ _ (digits?_encode_eq_some_iff.2 ⟨h.1, rfl⟩)
      (digits?_encode_eq_some_iff.2 ⟨h.2.1, rfl⟩)

/-- A time is read or refused unless its seconds end inside a character. -/
theorem readTime?_ok_iff {time : List Char} :
    (∃ v, readTime? (encode time) = .ok v) ↔ ¬ CutsSeconds time := by
  constructor
  · rintro hreturns ⟨hour, minute, rest, rfl, hhour, hminute, hrest, hplace⟩
    exact (readTime?_encode hhour.length_encode hminute.length_encode hrest).1 hreturns
      ⟨hhour, hminute, hplace⟩
  · intro hnot
    by_cases hshape : HasTimeShape time
    · obtain ⟨hour, minute, rest, rfl, hhour, hminute, hrest⟩ := hshape
      refine (readTime?_encode hhour hminute hrest).2 fun ⟨hpairHour, hpairMinute, hplace⟩ => ?_
      exact hnot ⟨hour, minute, rest, rfl, hpairHour, hpairMinute, hrest, hplace⟩
    · rw [readTime?, if_neg (fun h => hshape (hasTimeShape_iff.1 h))]
      exact ⟨none, rfl⟩

/-! ## Dates and times -/

theorem splitAtT?_eq_some_iff {bytes before after : Bytes} : splitAtT? bytes = some (before, after)
    ↔ bytes = before ++ 0x54 :: after ∧ 0x54 ∉ before := by
  have hsplit := List.takeWhile_append_dropWhile (p := (· != 0x54)) (l := bytes)
  have hhead := List.head?_dropWhile_not (· != 0x54) bytes
  have hfront := List.all_eq_true.1 (List.all_takeWhile (p := (· != 0x54)) (l := bytes))
  rw [splitAtT?]
  constructor
  · intro h
    split at h
    · next b rest hrest =>
      cases h
      rw [hrest] at hhead hsplit
      have hb : b = 0x54 := bne_eq_false_iff_eq.1 hhead
      rw [hb] at hsplit
      exact ⟨hsplit.symm, fun hmem => absurd (hfront _ hmem) (by decide)⟩
    · cases h
  · rintro ⟨rfl, hmem⟩
    have hall : ∀ b ∈ before, (b != 0x54) = true := fun b hb => bne_iff_ne.2 fun h => hmem (h ▸ hb)
    rw [List.dropWhile_append_of_pos hall, List.takeWhile_append_of_pos hall,
      List.dropWhile_cons_of_neg (by decide), List.takeWhile_cons_of_neg (by decide),
      List.append_nil]

/-- The bytes before and after the first `T` are those of the characters before and after it. -/
theorem splitAtT?_encode_eq_some_iff {text : List Char} {before after : Bytes} :
    splitAtT? (encode text) = some (before, after) ↔ ∃ front back, text = front ++ 'T' :: back
      ∧ 'T' ∉ front ∧ encode front = before ∧ encode back = after := by
  rw [splitAtT?_eq_some_iff]
  constructor
  · rintro ⟨htext, hmem⟩
    obtain ⟨front, back, rfl, rfl, rfl⟩ := of_encode_eq_append (c := 'T') (by decide) htext
    exact ⟨front, back, rfl, fun h => hmem ((Utf8.mem_encode_iff (by decide)).2 h), rfl, rfl⟩
  · rintro ⟨front, back, rfl, hmem, rfl, rfl⟩
    rw [encode_append, encode_cons]
    exact ⟨rfl, fun h => hmem ((Utf8.mem_encode_iff (c := 'T') (by decide)).1 h)⟩

/-- What makes the reading of a time fail. -/
def CutsTime (label : List Char) : Prop :=
  CutsZone label ∨ ∃ front, Before label front ∧ CutsSeconds front

/-- Before the first `T` there is a date, and the seconds of what comes after it end inside a
character. -/
def CutsTimeOfDay (text : List Char) : Prop :=
  ∃ date time, text = date ++ 'T' :: time ∧ 'T' ∉ date
    ∧ (readDate? (encode date)).isSome = true ∧ CutsSeconds time

/-- What makes the reading of a date with a time fail. -/
def CutsDateTime (label : List Char) : Prop :=
  CutsZone label ∨ ∃ front, Before label front ∧ CutsTimeOfDay front

theorem cutsTimeOfDay_iff {text date time : List Char}
    (h : splitAtT? (encode text) = some (encode date, encode time)) :
    CutsTimeOfDay text ↔ (readDate? (encode date)).isSome = true ∧ CutsSeconds time := by
  constructor
  · rintro ⟨date', time', rfl, hmem, hdate, htime⟩
    rw [splitAtT?_encode_eq_some_iff.2 ⟨date', time', rfl, hmem, rfl, rfl⟩, Option.some.injEq,
      Prod.mk.injEq] at h
    obtain rfl := Utf8.encode_inj h.1
    obtain rfl := Utf8.encode_inj h.2
    exact ⟨hdate, htime⟩
  · rintro ⟨hdate, htime⟩
    obtain ⟨front, back, rfl, hmem, hfront, hback⟩ := splitAtT?_encode_eq_some_iff.1 h
    obtain rfl := Utf8.encode_inj hfront
    obtain rfl := Utf8.encode_inj hback
    exact ⟨front, back, rfl, hmem, hdate, htime⟩

/-- A label is read after its zone is cut off: the reading fails if that does, or the reading of
what stands before the zone. -/
theorem splitZone?_bind_ok_iff {α : Type} {label : List Char}
    {read : Option (Bytes × Option Int) → Except InsideCharacter α} {P : List Char → Prop}
    (hnone : ∃ v, read none = .ok v)
    (hsome : ∀ front offset, (∃ v, read (some (encode front, offset)) = .ok v) ↔ ¬ P front) :
    (∃ v, (splitZone? (encode label) >>= read) = .ok v)
      ↔ ¬ (CutsZone label ∨ ∃ front, Before label front ∧ P front) := by
  by_cases hcut : CutsZone label
  · rw [splitZone?_cut hcut]
    exact ⟨fun ⟨_, h⟩ => (by cases h), fun h => absurd (.inl hcut) h⟩
  have hbefore : ∀ {front}, Before label front →
      ∃ offset, splitZone? (encode label) = .ok (some (encode front, offset)) :=
    fun h => (splitZone?_eq_some_iff hcut).2 ⟨_, rfl, h⟩
  obtain ⟨parts, hparts⟩ := splitZone?_ok_iff.2 hcut
  rw [hparts] at hbefore ⊢
  cases parts with
  | none =>
    refine ⟨fun _ h => ?_, fun _ => hnone⟩
    rcases h with h | ⟨front, hfront, _⟩
    · exact hcut h
    · obtain ⟨offset, h⟩ := hbefore hfront
      cases h
  | some part =>
    obtain ⟨body, offset⟩ := part
    obtain ⟨front, rfl, hfront⟩ := (splitZone?_eq_some_iff hcut).1 ⟨offset, hparts⟩
    show (∃ v, read (some (encode front, offset)) = .ok v) ↔ _
    rw [hsome front offset]
    refine not_congr ⟨fun h => .inr ⟨front, hfront, h⟩, ?_⟩
    rintro (h | ⟨front', hfront', h⟩)
    · exact absurd h hcut
    · obtain ⟨_, heq⟩ := hbefore hfront'
      rw [Except.ok.injEq, Option.some.injEq, Prod.mk.injEq] at heq
      exact Utf8.encode_inj heq.1 ▸ h

/-- A date is read or refused unless its last six bytes start inside a character. -/
theorem ZonedDate.read?_ok_iff (label : String) :
    (∃ v, ZonedDate.read? label = .ok v) ↔ ¬ CutsZone label.toList := by
  rw [ZonedDate.read?, Utf8.bytes, ← splitZone?_ok_iff]
  refine (exists_ok_bind_iff fun parts => ⟨fun _ => trivial, fun _ => ?_⟩).trans
    (iff_of_eq (and_true _))
  cases parts <;> exact ⟨_, rfl⟩

/-- A time is read or refused unless it is to be cut inside a character: at its zone, or at its
seconds. -/
theorem ZonedTime.read?_ok_iff (label : String) :
    (∃ v, ZonedTime.read? label = .ok v) ↔ ¬ CutsTime label.toList := by
  rw [ZonedTime.read?, Utf8.bytes]
  exact splitZone?_bind_ok_iff ⟨_, rfl⟩ fun front offset =>
    exists_ok_bind_pure_iff.trans readTime?_ok_iff

/-- A date with a time is read or refused unless it is to be cut inside a character: at its zone,
or, if the date is accepted, at its seconds. -/
theorem DateTime.read?_ok_iff (label : String) :
    (∃ v, DateTime.read? label = .ok v) ↔ ¬ CutsDateTime label.toList := by
  rw [DateTime.read?, Utf8.bytes]
  refine splitZone?_bind_ok_iff ⟨_, rfl⟩ fun front offset => ?_
  simp only
  split
  · next hsplit =>
    refine ⟨fun _ h => ?_, fun _ => ⟨_, rfl⟩⟩
    obtain ⟨date, time, rfl, hmem, _⟩ := h
    rw [splitAtT?_encode_eq_some_iff.2 ⟨date, time, rfl, hmem, rfl, rfl⟩] at hsplit
    cases hsplit
  · next before after hsplit =>
    obtain ⟨date, time, _, _, rfl, rfl⟩ := splitAtT?_encode_eq_some_iff.1 hsplit
    rw [cutsTimeOfDay_iff hsplit, not_and, ← readTime?_ok_iff]
    split
    · next hdate =>
      refine ⟨fun _ h => ?_, fun _ => ⟨_, rfl⟩⟩
      rw [hdate] at h
      cases h
    · next v hdate =>
      rw [hdate]
      exact exists_ok_bind_pure_iff.trans ⟨fun h _ => h, fun h => h rfl⟩

end RdfIndex.Calendar
