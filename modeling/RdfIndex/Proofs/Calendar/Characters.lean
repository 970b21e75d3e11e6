import RdfIndex.Calendar.Label
import RdfIndex.Proofs.Number.Labels
import RdfIndex.Proofs.Text.Places

/-!
# Labels of dates and times by their characters

The readers of dates and times look at bytes.  What they ask of the bytes of a text is said here of
its characters: which texts are read as a number (`digits?_encode_eq_some_iff`), where a character
of ASCII stands (`hasAt_encode_iff`), and where a text may be cut (`isBoundary_encode_iff`).
-/

namespace RdfIndex.Calendar

open Utf8 (IsPlace encode encode_append encode_cons encodeChar_of_lt of_encode_eq_append)

/-! ## Digits -/

/-- Two digits. -/
def IsPair (ds : List Char) : Prop := ds.length = 2 ∧ ds.all Numeral.isDigit = true

theorem encode_digits {ds : List Char} (h : ds.all Numeral.isDigit = true) :
    encode ds = ds.map fun c => UInt8.ofNat c.toNat := by
  induction ds with
  | nil => rfl
  | cons c ds ih =>
    rw [List.all_cons, Bool.and_eq_true] at h
    obtain ⟨_, hhigh⟩ := Numeral.toNat_of_isDigit h.1
    rw [encode_cons, encodeChar_of_lt (by omega), ih h.2]
    rfl

theorem exists_digits {bytes : Bytes} (h : bytes.all fun b => 0x30 ≤ b && b ≤ 0x39) :
    ∃ ds, bytes = encode ds ∧ ds.all Numeral.isDigit = true := by
  induction bytes with
  | nil => exact ⟨[], rfl, rfl⟩
  | cons b bytes ih =>
    rw [List.all_cons, Bool.and_eq_true] at h
    obtain ⟨ds, rfl, hds⟩ := ih h.2
    simp only [Bool.and_eq_true, decide_eq_true_eq, UInt8.le_iff_toNat_le, UInt8.reduceToNat] at h
    obtain ⟨⟨hlow, hhigh⟩, _⟩ := h
    have hc : (Char.ofNat b.toNat).toNat = b.toNat := by
      have hall : ∀ n < 0x80, (Char.ofNat n).toNat = n := by decide
      exact hall _ (by omega)
    refine ⟨Char.ofNat b.toNat :: ds, ?_, ?_⟩
    · rw [encode_cons, encodeChar_of_lt (by omega), hc, UInt8.ofNat_toNat]
      rfl
    · rw [List.all_cons, hds, Numeral.isDigit_iff.2 (by omega)]
      rfl

theorem foldl_digits {ds : List Char} (h : ds.all Numeral.isDigit = true) (m : Nat) :
    (ds.map fun c => UInt8.ofNat c.toNat).foldl (fun n b => n * 10 + (b.toNat - 0x30)) m
      = ds.foldl (fun n c => n * 10 + (c.toNat - 0x30)) m := by
  induction ds generalizing m with
  | nil => rfl
  | cons c ds ih =>
    rw [List.all_cons, Bool.and_eq_true] at h
    obtain ⟨_, hhigh⟩ := Numeral.toNat_of_isDigit h.1
    rw [List.map_cons, List.foldl_cons, List.foldl_cons, Utf8.toNat_byte (by omega), ih h.2]

theorem digits?_encode {ds : List Char} (h : ds.all Numeral.isDigit = true) :
    digits? ds.length (encode ds) = some (Numeral.value ds) := by
  have hall : (encode ds).all fun b => 0x30 ≤ b && b ≤ 0x39 := by
    rw [encode_digits h, List.all_map, List.all_eq_true]
    intro c hc
    obtain ⟨_, _⟩ := Numeral.toNat_of_isDigit (List.all_eq_true.1 h c hc)
    simp only [Function.comp_apply, Bool.and_eq_true, decide_eq_true_eq, UInt8.le_iff_toNat_le,
      Utf8.toNat_byte (show c.toNat < 0x100 by omega), UInt8.reduceToNat]
    omega
  rw [digits?, if_pos ⟨by rw [encode_digits h, List.length_map], hall⟩, encode_digits h,
    foldl_digits h]
  rfl

/-- The texts whose bytes are read as a number are those of digits. -/
theorem digits?_encode_eq_some_iff {count n : Nat} {ds : List Char} :
    digits? count (encode ds) = some n
      ↔ (ds.length = count ∧ ds.all Numeral.isDigit = true) ∧ Numeral.value ds = n := by
  constructor
  · intro h
    obtain ⟨⟨hlength, hall⟩, _⟩ := Option.ite_none_right_eq_some.1 h
    obtain ⟨ds', hbytes, hdigits⟩ := exists_digits hall
    obtain rfl := Utf8.encode_inj hbytes
    rw [encode_digits hdigits, List.length_map] at hlength
    rw [← hlength, digits?_encode hdigits] at h
    exact ⟨⟨hlength, hdigits⟩, Option.some.inj h⟩
  · rintro ⟨⟨rfl, hdigits⟩, rfl⟩
    exact digits?_encode hdigits

theorem IsPair.length_encode {ds : List Char} (h : IsPair ds) : (encode ds).length = 2 := by
  rw [encode_digits h.2, List.length_map, h.1]

/-! ## Parts of a label -/

theorem hasAt_iff {bytes : Bytes} {n : Nat} {c : Char} : hasAt bytes n c = true
    ↔ ∃ front back, bytes = front ++ UInt8.ofNat c.toNat :: back ∧ front.length = n := by
  rw [hasAt, beq_iff_eq]
  constructor
  · intro h
    obtain ⟨hlt, hbyte⟩ := List.getElem?_eq_some_iff.1 h
    refine ⟨bytes.take n, bytes.drop (n + 1), ?_, List.length_take_of_le (Nat.le_of_lt hlt)⟩
    rw [← hbyte, ← List.drop_eq_getElem_cons hlt, List.take_append_drop]
  · rintro ⟨front, back, rfl, rfl⟩
    rw [List.getElem?_append_right (Nat.le_refl _), Nat.sub_self, List.getElem?_cons_zero]

/-- A character of ASCII at a byte of a text stands after the characters of the bytes before. -/
theorem hasAt_encode_iff {cs : List Char} {n : Nat} {c : Char} (hc : c.toNat < 0x80) :
    hasAt (encode cs) n c = true ↔ ∃ front back, cs = front ++ c :: back
      ∧ (encode front).length = n := by
  constructor
  · intro h
    obtain ⟨before, after, hcs, hn⟩ := hasAt_iff.1 h
    obtain ⟨front, back, rfl, rfl, _⟩ := of_encode_eq_append hc hcs
    exact ⟨front, back, rfl, hn⟩
  · rintro ⟨front, back, rfl, rfl⟩
    refine hasAt_iff.2 ⟨encode front, encode back, ?_, rfl⟩
    rw [encode_append, encode_cons, encodeChar_of_lt hc]
    rfl

/-- Where a text may be cut. -/
theorem isBoundary_encode_iff {cs : List Char} {n : Nat} (h : n ≤ (encode cs).length) :
    isBoundary (encode cs) n = true ↔ IsPlace cs n := by
  rw [Utf8.isPlace_iff_getElem? h, ← List.head?_drop, isBoundary]
  cases (encode cs).drop n with
  | nil => exact ⟨fun _ => nofun, fun _ => rfl⟩
  | cons b rest =>
    rw [Bool.not_eq_true']
    exact ⟨fun hb _ h => Option.some.inj h ▸ hb, fun hall => hall b rfl⟩

theorem hasAt_append (front bytes : Bytes) (n : Nat) (c : Char) :
    hasAt (front ++ bytes) (front.length + n) c = hasAt bytes n c := by
  rw [hasAt, hasAt, List.getElem?_append_right (Nat.le_add_right _ _), Nat.add_sub_cancel_left]

theorem isBoundary_append (front bytes : Bytes) (n : Nat) :
    isBoundary (front ++ bytes) (front.length + n) = isBoundary bytes n := by
  rw [isBoundary, isBoundary, List.drop_length_add_append]

theorem slice_append (front part back : Bytes) :
    slice (front ++ (part ++ back)) front.length part.length = part := by
  rw [slice, List.drop_left, List.take_left]

end RdfIndex.Calendar
