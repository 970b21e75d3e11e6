import RdfIndex.Text.Utf8

/-!
# UTF-8 texts read back

Decoding takes encoding back: `decode_encode` for lists of characters and `text_bytes` for strings.
The step is `decodeFrom_encodeChar`, one character in front of any bytes, with one lemma for each
number of bytes that a character takes.  The lemmas give the bytes by their numbers, so that the
ranges of the first byte and of the ones after it are facts about natural numbers.
-/

namespace RdfIndex.Utf8

/-- A byte below 256 is the number it was made of. -/
theorem toNat_byte {n : Nat} (h : n < 0x100) : (UInt8.ofNat n).toNat = n := by
  simp only [UInt8.toNat_ofNat']
  omega

/-- A byte from `80` to `BF` is a continuation byte. -/
theorem isTail_byte {n : Nat} (h : n < 0x40) : isTail (UInt8.ofNat (0x80 + n)) = true := by
  have hn : (UInt8.ofNat (0x80 + n)).toNat = 0x80 + n := toNat_byte (by omega)
  simp only [isTail, Bool.and_eq_true, decide_eq_true_eq, UInt8.le_iff_toNat_le, hn]
  exact ⟨by simp, by simp; omega⟩

/-! ## One character -/

theorem decodeFrom_one {i n : Nat} {done : List Char} {rest : Bytes} (h : n < 0x80) :
    decodeFrom i done (UInt8.ofNat n :: rest) = decodeFrom (i + 1) (Char.ofNat n :: done) rest := by
  have hn : (UInt8.ofNat n).toNat = n := toNat_byte (by omega)
  have hlt : UInt8.ofNat n < 0x80 := by
    rw [UInt8.lt_iff_toNat_lt, hn]
    exact h
  rw [decodeFrom.eq_def]
  simp only [if_pos hlt, hn]

/-- A first byte from `C2` to `DF` and a continuation byte. -/
theorem decodeFrom_two {i p q : Nat} {done : List Char} {rest : Bytes} (hp : 2 ≤ p) (hp' : p < 0x20)
    (hq : q < 0x40) :
    decodeFrom i done (UInt8.ofNat (0xC0 + p) :: UInt8.ofNat (0x80 + q) :: rest)
      = decodeFrom (i + 2) (Char.ofNat (p * 0x40 + q) :: done) rest := by
  have ha : (UInt8.ofNat (0xC0 + p)).toNat = 0xC0 + p := toNat_byte (by omega)
  have hb : (UInt8.ofNat (0x80 + q)).toNat = 0x80 + q := toNat_byte (by omega)
  have hnot : ¬ UInt8.ofNat (0xC0 + p) < 0x80 := by
    simp only [UInt8.lt_iff_toNat_lt, ha, UInt8.reduceToNat]
    omega
  have hin : 0xC2 ≤ UInt8.ofNat (0xC0 + p) ∧ UInt8.ofNat (0xC0 + p) ≤ 0xDF := by
    simp only [UInt8.le_iff_toNat_le, ha, UInt8.reduceToNat]
    omega
  rw [decodeFrom.eq_def]
  simp only [if_neg hnot, if_pos hin, isTail_byte hq, if_true, charOfTwo, ha, hb,
    Nat.add_sub_cancel_left]

/-- A first byte from `E0` to `EF`, a second one in the range that belongs to it, and a continuation
byte. -/
theorem decodeFrom_three {i p q r : Nat} {done : List Char} {rest : Bytes} (hp : p < 0x10)
    (hq : q < 0x40) (hr : r < 0x40)
    (hsecond : secondOfThree (UInt8.ofNat (0xE0 + p)) (UInt8.ofNat (0x80 + q)) = true) :
    decodeFrom i done
        (UInt8.ofNat (0xE0 + p) :: UInt8.ofNat (0x80 + q) :: UInt8.ofNat (0x80 + r) :: rest)
      = decodeFrom (i + 3) (Char.ofNat ((p * 0x40 + q) * 0x40 + r) :: done) rest := by
  have ha : (UInt8.ofNat (0xE0 + p)).toNat = 0xE0 + p := toNat_byte (by omega)
  have hb : (UInt8.ofNat (0x80 + q)).toNat = 0x80 + q := toNat_byte (by omega)
  have hc : (UInt8.ofNat (0x80 + r)).toNat = 0x80 + r := toNat_byte (by omega)
  have hone : ¬ UInt8.ofNat (0xE0 + p) < 0x80 := by
    simp only [UInt8.lt_iff_toNat_lt, ha, UInt8.reduceToNat]
    omega
  have htwo : ¬ (0xC2 ≤ UInt8.ofNat (0xE0 + p) ∧ UInt8.ofNat (0xE0 + p) ≤ 0xDF) := by
    simp only [UInt8.le_iff_toNat_le, ha, UInt8.reduceToNat]
    omega
  have hin : 0xE0 ≤ UInt8.ofNat (0xE0 + p) ∧ UInt8.ofNat (0xE0 + p) ≤ 0xEF := by
    simp only [UInt8.le_iff_toNat_le, ha, UInt8.reduceToNat]
    omega
  rw [decodeFrom.eq_def]
  simp only [if_neg hone, if_neg htwo, if_pos hin, hsecond, isTail_byte hr, if_true, charOfThree,
    ha, hb, hc, Nat.add_sub_cancel_left]

/-- A first byte from `F0` to `F4`, a second one in the range that belongs to it, and two
continuation bytes. -/
theorem decodeFrom_four {i p q r s : Nat} {done : List Char} {rest : Bytes} (hp : p < 5)
    (hq : q < 0x40) (hr : r < 0x40) (hs : s < 0x40)
    (hsecond : secondOfFour (UInt8.ofNat (0xF0 + p)) (UInt8.ofNat (0x80 + q)) = true) :
    decodeFrom i done
        (UInt8.ofNat (0xF0 + p) :: UInt8.ofNat (0x80 + q) :: UInt8.ofNat (0x80 + r)
          :: UInt8.ofNat (0x80 + s) :: rest)
      = decodeFrom (i + 4) (Char.ofNat (((p * 0x40 + q) * 0x40 + r) * 0x40 + s) :: done) rest := by
  have ha : (UInt8.ofNat (0xF0 + p)).toNat = 0xF0 + p := toNat_byte (by omega)
  have hb : (UInt8.ofNat (0x80 + q)).toNat = 0x80 + q := toNat_byte (by omega)
  have hc : (UInt8.ofNat (0x80 + r)).toNat = 0x80 + r := toNat_byte (by omega)
  have hd : (UInt8.ofNat (0x80 + s)).toNat = 0x80 + s := toNat_byte (by omega)
  have hone : ¬ UInt8.ofNat (0xF0 + p) < 0x80 := by
    simp only [UInt8.lt_iff_toNat_lt, ha, UInt8.reduceToNat]
    omega
  have htwo : ¬ (0xC2 ≤ UInt8.ofNat (0xF0 + p) ∧ UInt8.ofNat (0xF0 + p) ≤ 0xDF) := by
    simp only [UInt8.le_iff_toNat_le, ha, UInt8.reduceToNat]
    omega
  have hthree : ¬ (0xE0 ≤ UInt8.ofNat (0xF0 + p) ∧ UInt8.ofNat (0xF0 + p) ≤ 0xEF) := by
    simp only [UInt8.le_iff_toNat_le, ha, UInt8.reduceToNat]
    omega
  have hin : 0xF0 ≤ UInt8.ofNat (0xF0 + p) ∧ UInt8.ofNat (0xF0 + p) ≤ 0xF4 := by
    simp only [UInt8.le_iff_toNat_le, ha, UInt8.reduceToNat]
    omega
  rw [decodeFrom.eq_def]
  simp only [if_neg hone, if_neg htwo, if_neg hthree, if_pos hin, hsecond, isTail_byte hr,
    isTail_byte hs, if_true, charOfFour, ha, hb, hc, hd, Nat.add_sub_cancel_left]

/-- A character is no surrogate. -/
theorem toNat_not_surrogate (c : Char) : ¬ (0xD800 ≤ c.toNat ∧ c.toNat < 0xE000) := by
  rcases c.valid with h | ⟨h, _⟩
  · exact fun hc => absurd hc.1 (Nat.not_le.2 h)
  · exact fun hc => absurd hc.2 (Nat.not_lt.2 (Nat.succ_le_of_lt h))

theorem toNat_lt (c : Char) : c.toNat < 0x110000 := by
  rcases c.valid with h | ⟨_, h⟩
  · exact Nat.lt_trans h (by decide)
  · exact h

/-- The second byte of a character of three bytes is in the range that its first byte asks for: the
character is not below `800`, and no surrogate. -/
theorem secondOfThree_byte {n : Nat} (hlow : 0x800 ≤ n) (hhigh : n < 0x10000)
    (hnot : ¬ (0xD800 ≤ n ∧ n < 0xE000)) :
    secondOfThree (UInt8.ofNat (0xE0 + n / 0x1000)) (UInt8.ofNat (0x80 + n / 0x40 % 0x40))
      = true := by
  have ha : (UInt8.ofNat (0xE0 + n / 0x1000)).toNat = 0xE0 + n / 0x1000 := toNat_byte (by omega)
  have hb : (UInt8.ofNat (0x80 + n / 0x40 % 0x40)).toNat = 0x80 + n / 0x40 % 0x40 :=
    toNat_byte (by omega)
  simp only [secondOfThree, isTail, UInt8.le_iff_toNat_le, ← UInt8.toNat_inj, ha, hb,
    UInt8.reduceToNat]
  split
  · simp only [Bool.and_eq_true, decide_eq_true_eq]
    omega
  split
  · simp only [Bool.and_eq_true, decide_eq_true_eq]
    omega
  · simp only [Bool.and_eq_true, decide_eq_true_eq]
    omega

/-- The second byte of a character of four bytes is in the range that its first byte asks for. -/
theorem secondOfFour_byte {n : Nat} (hlow : 0x10000 ≤ n) (hhigh : n < 0x110000) :
    secondOfFour (UInt8.ofNat (0xF0 + n / 0x40000)) (UInt8.ofNat (0x80 + n / 0x1000 % 0x40))
      = true := by
  have ha : (UInt8.ofNat (0xF0 + n / 0x40000)).toNat = 0xF0 + n / 0x40000 := toNat_byte (by omega)
  have hb : (UInt8.ofNat (0x80 + n / 0x1000 % 0x40)).toNat = 0x80 + n / 0x1000 % 0x40 :=
    toNat_byte (by omega)
  simp only [secondOfFour, isTail, UInt8.le_iff_toNat_le, ← UInt8.toNat_inj, ha, hb,
    UInt8.reduceToNat]
  split
  · simp only [Bool.and_eq_true, decide_eq_true_eq]
    omega
  split
  · simp only [Bool.and_eq_true, decide_eq_true_eq]
    omega
  · simp only [Bool.and_eq_true, decide_eq_true_eq]
    omega

/-- Reading one character takes exactly the bytes it is written in. -/
theorem decodeFrom_encodeChar (c : Char) (i : Nat) (done : List Char) (rest : Bytes) :
    decodeFrom i done (encodeChar c ++ rest) = decodeFrom (i + charSize c) (c :: done) rest := by
  have hlt := toNat_lt c
  have hnot := toNat_not_surrogate c
  have hback : ∀ n, n = c.toNat → Char.ofNat n = c := fun n hn => hn ▸ Char.ofNat_toNat c
  unfold encodeChar charSize
  simp only
  split
  · next h => rw [List.cons_append, List.nil_append, decodeFrom_one h, hback _ rfl]
  split
  · next h =>
    rw [List.cons_append, List.cons_append, List.nil_append,
      decodeFrom_two (by omega) (by omega) (by omega), hback _ (by omega)]
  split
  · next h =>
    rw [List.cons_append, List.cons_append, List.cons_append, List.nil_append,
      decodeFrom_three (by omega) (by omega) (by omega)
        (secondOfThree_byte (by omega) (by omega) hnot),
      hback _ (by omega)]
  · next h =>
    rw [List.cons_append, List.cons_append, List.cons_append, List.cons_append, List.nil_append,
      decodeFrom_four (by omega) (by omega) (by omega) (by omega)
        (secondOfFour_byte (by omega) hlt),
      hback _ (by omega)]

/-! ## Texts -/

theorem decodeFrom_encode (cs : List Char) (i : Nat) (done : List Char) :
    decodeFrom i done (encode cs) = .ok (done.reverse ++ cs) := by
  induction cs generalizing i done with
  | nil => simp [encode, decodeFrom]
  | cons c cs ih =>
    rw [encode, List.flatMap_cons, decodeFrom_encodeChar]
    rw [encode] at ih
    rw [ih, List.reverse_cons, List.append_assoc, List.singleton_append]

/-- Decoding takes encoding back. -/
theorem decode_encode (cs : List Char) : decode (encode cs) = .ok cs := by
  rw [decode, decodeFrom_encode, List.reverse_nil, List.nil_append]

/-- The text of the bytes of a string is the string. -/
theorem text_bytes (s : String) : text (bytes s) = .ok s := by
  rw [text, bytes, decode_encode, Except.map, String.ofList_toList]

/-- Strings with the same bytes are the same. -/
theorem bytes_inj {s t : String} (h : bytes s = bytes t) : s = t := by
  have := (text_bytes s).symm.trans ((congrArg text h).trans (text_bytes t))
  exact Except.ok.inj this

end RdfIndex.Utf8
