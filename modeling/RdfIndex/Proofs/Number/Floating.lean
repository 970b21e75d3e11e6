import RdfIndex.Proofs.Number.Scientific

/-!
# Floating-point labels are read back

The label of a value is read as bits of the same label (`Floating.read?_toChars`).  So the labels
that are read are those that are written (`Floating.isSome_read?_iff`).  A label is a whole part, a
fraction and an exponent (`Written`), which are read as what they write, and the number that is
written lies in the interval of the magnitude.
-/

namespace RdfIndex.Floating

/-! ## Reading -/

/-- A numeral as it is written, without its sign. -/
structure Written where
  /-- The digits before the point. -/
  whole : List Char
  /-- The digits after the point, which is left out if there are none. -/
  fraction : List Char
  /-- The exponent, if there is one. -/
  exponent? : Option Int

namespace Written

/-- The exponent with its mark. -/
def mark (w : Written) : List Char := w.exponent?.elim [] fun e => 'e' :: Numeral.ofInt e

/-- What is written. -/
def chars (w : Written) : List Char :=
  w.whole ++ ((if w.fraction = [] then [] else '.' :: w.fraction) ++ w.mark)

/-- What is read. -/
def scientific (w : Written) (negative : Bool) : Scientific :=
  ⟨negative, w.whole ++ w.fraction, w.exponent?.getD 0 - w.fraction.length⟩

/-- The number that is written. -/
def value (w : Written) : ℚ :=
  Numeral.value (w.whole ++ w.fraction) * 10 ^ (w.exponent?.getD 0 - w.fraction.length)

/-- Both parts are made of digits, and there is a whole part. -/
structure IsNumeral (w : Written) : Prop where
  whole_ne : w.whole ≠ []
  whole_digits : w.whole.all Numeral.isDigit = true
  fraction_digits : w.fraction.all Numeral.isDigit = true

end Written

/-- Digits carry no sign. -/
theorem splitSign_digits {ds : List Char} (hne : ds ≠ []) (hall : ds.all Numeral.isDigit = true)
    (cs : List Char) : splitSign (ds ++ cs) = (false, ds ++ cs) := by
  obtain ⟨d, ds, rfl⟩ := List.exists_cons_of_ne_nil hne
  rw [List.all_cons, Bool.and_eq_true] at hall
  have hminus : d ≠ '-' := by
    rintro rfl
    exact absurd hall.1 (by decide)
  have hplus : d ≠ '+' := by
    rintro rfl
    exact absurd hall.1 (by decide)
  simp [splitSign, hminus, hplus]

theorem splitSign_ofInt (i : Int) :
    splitSign (Numeral.ofInt i) = (decide (i < 0), Numeral.digits i.natAbs) := by
  rw [Numeral.ofInt]
  split
  · next h =>
    rw [decide_eq_true h]
    rfl
  · next h =>
    have hplain := splitSign_digits (Numeral.digits_ne_nil i.natAbs) (Numeral.all_digits _) []
    rw [List.append_nil] at hplain
    rw [decide_eq_false h, hplain]

theorem readExponent?_ofInt (i : Int) : readExponent? ('e' :: Numeral.ofInt i) = some i := by
  rw [readExponent?]
  have hread : Numeral.read? (Numeral.digits i.natAbs) = some i.natAbs := by
    rw [Numeral.read?, if_pos ⟨Numeral.digits_ne_nil _, Numeral.all_digits _⟩,
      Numeral.value_digits]
  rw [if_pos (.inl rfl)]
  simp only [splitSign_ofInt, hread]
  show some (if decide (i < 0) = true then -(i.natAbs : Int) else i.natAbs) = some i
  simp only [decide_eq_true_eq, Option.some.injEq]
  split <;> omega

/-- Digits are taken up to a character that is none. -/
theorem takeWhile_isDigit {ds : List Char} (hds : ds.all Numeral.isDigit = true) (cs : List Char)
    (hcs : cs.head?.all (!Numeral.isDigit ·) = true) :
    (ds ++ cs).takeWhile Numeral.isDigit = ds ∧ (ds ++ cs).dropWhile Numeral.isDigit = cs := by
  rw [List.takeWhile_append_of_pos (List.all_eq_true.1 hds),
    List.dropWhile_append_of_pos (List.all_eq_true.1 hds)]
  cases cs with
  | nil => simp
  | cons c cs =>
    have hc : ¬ Numeral.isDigit c = true := by simpa using hcs
    rw [List.takeWhile_cons_of_neg hc, List.dropWhile_cons_of_neg hc, List.append_nil]
    exact ⟨rfl, rfl⟩

namespace Written

variable {w : Written}

theorem readExponent?_mark (w : Written) :
    readExponent? w.mark = some (w.exponent?.getD 0) := by
  rw [mark]
  cases w.exponent? with
  | none => rfl
  | some e => exact readExponent?_ofInt e

/-- The mark of an exponent is neither a digit nor a point. -/
theorem head?_mark (w : Written) :
    w.mark.head?.all (!Numeral.isDigit ·) = true ∧ ∀ cs, w.mark ≠ '.' :: cs := by
  rw [mark]
  cases w.exponent? with
  | none => exact ⟨rfl, fun cs => List.cons_ne_nil _ _ ∘ Eq.symm⟩
  | some e => exact ⟨rfl, fun cs h => absurd (List.cons.inj h).1 (by decide)⟩

theorem IsNumeral.splitSign_chars (h : w.IsNumeral) (negative : Bool) :
    splitSign ((if negative then ['-'] else []) ++ w.chars) = (negative, w.chars) := by
  cases negative with
  | true => rfl
  | false => exact splitSign_digits h.whole_ne h.whole_digits _

/-- What is written with a sign is read. -/
theorem IsNumeral.readScientific?_chars (h : w.IsNumeral) (negative : Bool) :
    readScientific? ((if negative then ['-'] else []) ++ w.chars)
      = some (w.scientific negative) := by
  obtain ⟨hdigit, hpoint⟩ := w.head?_mark
  by_cases hf : w.fraction = []
  · have hchars : w.chars = w.whole ++ w.mark := by rw [chars, if_pos hf, List.nil_append]
    obtain ⟨htake, hdrop⟩ := takeWhile_isDigit h.whole_digits w.mark hdigit
    rw [readScientific?, h.splitSign_chars, hchars]
    -- By `hpoint` no fraction is read.
    simp only [htake, hdrop, w.readExponent?_mark]
    rw [if_neg fun hnil => h.whole_ne hnil.1, scientific, hf]
    rfl
  · have hchars : w.chars = w.whole ++ '.' :: (w.fraction ++ w.mark) := by
      rw [chars, if_neg hf, List.cons_append]
    obtain ⟨htake, hdrop⟩ := takeWhile_isDigit h.whole_digits ('.' :: (w.fraction ++ w.mark)) rfl
    obtain ⟨htake', hdrop'⟩ := takeWhile_isDigit h.fraction_digits w.mark hdigit
    rw [readScientific?, h.splitSign_chars, hchars]
    simp only [htake, hdrop, htake', hdrop', w.readExponent?_mark]
    rw [if_neg fun hnil => h.whole_ne hnil.1]
    rfl

end Written

/-! ## Writing -/

/-- A text is a numeral of the given value. -/
def Writes (cs : List Char) (x : ℚ) : Prop :=
  ∃ w : Written, w.IsNumeral ∧ w.chars = cs ∧ w.value = x

variable {ds : List Char}

/-- A numeral with nothing before the point and zeros after it. -/
theorem writes_below (hne : ds ≠ []) (hall : ds.all Numeral.isDigit = true) (n : Nat) :
    Writes ('0' :: '.' :: List.replicate n '0' ++ ds)
      (Numeral.value ds * 10 ^ (-(n + ds.length : Nat) : ℤ)) := by
  refine ⟨⟨['0'], List.replicate n '0' ++ ds, none⟩, ⟨List.cons_ne_nil _ _, rfl, ?_⟩, ?_, ?_⟩
  · rw [List.all_append, Numeral.all_zeros, hall]
    rfl
  · simp [Written.chars, Written.mark, hne]
  · rw [Written.value]
    simp only [List.singleton_append, Option.getD_none, zero_sub]
    rw [Decimal.value_zero_cons, Numeral.value_append, Numeral.value_zeros, zero_mul, zero_add,
      List.length_append, List.length_replicate]

/-- A numeral with zeros before the point and nothing after it. -/
theorem writes_above (hne : ds ≠ []) (hall : ds.all Numeral.isDigit = true) (n : Nat) :
    Writes (ds ++ List.replicate n '0' ++ ['.', '0']) (Numeral.value ds * 10 ^ (n : ℤ)) := by
  refine ⟨⟨ds ++ List.replicate n '0', ['0'], none⟩, ⟨by simp [hne], ?_, rfl⟩, ?_, ?_⟩
  · rw [List.all_append, Numeral.all_zeros, hall]
    rfl
  · simp [Written.chars, Written.mark]
  · have hzero : ['0'] = List.replicate 1 '0' := rfl
    rw [Written.value]
    simp only [Option.getD_none, hzero, Numeral.value_append_zeros, List.length_replicate]
    push_cast
    norm_num
    ring

/-- A numeral with the point between its digits. -/
theorem writes_between {n : Nat} (hn : n ≠ 0) (hlt : n < ds.length)
    (hall : ds.all Numeral.isDigit = true) :
    Writes (ds.take n ++ '.' :: ds.drop n) (Numeral.value ds * 10 ^ ((n : ℤ) - ds.length)) := by
  have hdrop : ds.drop n ≠ [] := by
    rw [Ne, List.drop_eq_nil_iff]
    omega
  have hne : ds ≠ [] := List.ne_nil_of_length_pos (Nat.zero_lt_of_lt hlt)
  refine ⟨⟨ds.take n, ds.drop n, none⟩, ⟨?_, ?_, ?_⟩, ?_, ?_⟩
  · rw [Ne, List.take_eq_nil_iff, not_or]
    exact ⟨hn, hne⟩
  · exact List.all_eq_true.2 fun c hc => List.all_eq_true.1 hall c (List.mem_of_mem_take hc)
  · exact List.all_eq_true.2 fun c hc => List.all_eq_true.1 hall c (List.mem_of_mem_drop hc)
  · simp [Written.chars, Written.mark, hdrop]
  · rw [Written.value]
    simp only [List.take_append_drop, List.length_drop, Option.getD_none]
    congr 2
    omega

/-- What is written is the digits, with the point after the given number of them. -/
theorem writes_plain (hne : ds ≠ []) (hall : ds.all Numeral.isDigit = true) (before : Int) :
    Writes (plain ds before) (Numeral.value ds * 10 ^ (before - ds.length)) := by
  rw [plain]
  split
  · next hbefore =>
    have hplaces : before - ds.length = -((-before).toNat + ds.length : Nat) := by omega
    rw [hplaces]
    exact writes_below hne hall _
  · next hbefore =>
    obtain ⟨n, rfl⟩ := Int.eq_ofNat_of_zero_le (le_of_not_ge hbefore)
    rw [Int.toNat_natCast]
    split
    · next hle =>
      have hplaces : (n : ℤ) - ds.length = (n - ds.length : Nat) := by omega
      rw [hplaces]
      exact writes_above hne hall _
    · next hlt => exact writes_between (by omega) (not_le.1 hlt) hall

/-- What is written is the digits, with the point after the first of them. -/
theorem writes_withExponent (hne : ds ≠ []) (hall : ds.all Numeral.isDigit = true)
    (exponent : Int) :
    Writes (withExponent ds exponent) (Numeral.value ds * 10 ^ (exponent + 1 - ds.length)) := by
  match ds, hne with
  | [d], _ =>
    refine ⟨⟨[d], [], some exponent⟩, ⟨List.cons_ne_nil _ _, hall, rfl⟩, rfl, ?_⟩
    rw [Written.value]
    simp
  | d :: d' :: ds, _ =>
    rw [List.all_cons, Bool.and_eq_true] at hall
    refine ⟨⟨[d], d' :: ds, some exponent⟩, ⟨List.cons_ne_nil _ _, ?_, hall.2⟩, rfl, ?_⟩
    · rw [List.all_cons, hall.1]
      rfl
    · rw [Written.value]
      simp only [List.singleton_append, Option.getD_some, List.length_cons]
      congr 2
      omega

/-- Only zeros are dropped at the end. -/
theorem stripZeros_append (ds : List Char) :
    ∃ n, stripZeros ds ++ List.replicate n '0' = ds := by
  cases ds with
  | nil => exact ⟨0, rfl⟩
  | cons d ds =>
    obtain ⟨n, hzeros⟩ := Numeral.dropZeros_append ds
    exact ⟨n, congrArg (d :: ·) hzeros⟩

theorem stripZeros_ne_nil (h : ds ≠ []) : stripZeros ds ≠ [] := by
  cases ds with
  | nil => exact h
  | cons d ds => exact List.cons_ne_nil _ _

/-- The text of a positive magnitude is a numeral of its decimal. -/
theorem writes_magnitudeText {f : BinaryFormat} {magnitude : Nat} (hpos : 0 < magnitude) :
    Writes (magnitudeText f magnitude) (Shortest.shortest f magnitude).value := by
  rw [magnitudeText, if_neg hpos.ne']
  generalize Shortest.shortest f magnitude = d
  simp only
  have hvalue := Numeral.value_digits d.digits
  have hall := Numeral.all_digits d.digits
  have hne := stripZeros_ne_nil (Numeral.digits_ne_nil d.digits)
  obtain ⟨n, hn⟩ := stripZeros_append (Numeral.digits d.digits)
  generalize stripZeros (Numeral.digits d.digits) = ds at *
  rw [← hn] at hvalue hall ⊢
  rw [List.all_append, Bool.and_eq_true] at hall
  rw [Numeral.value_append_zeros] at hvalue
  -- The zeros that are dropped are made up for by the exponent.
  have hdecimal : ∀ e : Int, e = d.exponent + n →
      (Numeral.value ds : ℚ) * 10 ^ e = d.value := by
    rintro e rfl
    rw [Shortest.Digits.value, ← hvalue, zpow_add₀ (by norm_num), zpow_natCast]
    push_cast
    ring
  split
  · rw [← hdecimal _ ?_]
    · exact writes_plain hne hall.1 _
    · rw [List.length_append, List.length_replicate]
      omega
  · rw [← hdecimal _ ?_]
    · exact writes_withExponent hne hall.1 _
    · rw [List.length_append, List.length_replicate]
      omega

/-! ## Reading what was written -/

variable {f : BinaryFormat}

/-- The text of a finite magnitude is read as a numeral that is rounded to the magnitude. -/
theorem nearest_magnitudeText (hf : Shortest.Supports f) {magnitude : Nat}
    (hfinite : magnitude < f.infinity) (negative : Bool) :
    ∃ s, readScientific? ((if negative then ['-'] else []) ++ magnitudeText f magnitude) = some s
      ∧ s.negative = negative ∧ nearest f s = magnitude := by
  rcases Nat.eq_zero_or_pos magnitude with rfl | hpos
  · have hzero : Written.IsNumeral ⟨['0'], ['0'], none⟩ := ⟨List.cons_ne_nil _ _, rfl, rfl⟩
    refine ⟨_, hzero.readScientific?_chars negative, rfl, ?_⟩
    rw [nearest]
    exact if_pos (.inl rfl)
  · obtain ⟨w, hw, hchars, hvalue⟩ := writes_magnitudeText (f := f) hpos
    refine ⟨w.scientific negative, hchars ▸ hw.readScientific?_chars negative, rfl, ?_⟩
    have hmem := Shortest.shortest_mem hf hpos hfinite
    rw [← hvalue] at hmem
    refine nearest_eq_of_mem hf hpos hfinite ?_ hmem
    rw [Written.scientific, List.all_append, hw.whole_digits, hw.fraction_digits]
    rfl

/-- The label of a value depends on its magnitude and on its sign. -/
theorem toChars_eq {bits bits' : Nat} (hmagnitude : bits' % f.signBit = bits % f.signBit)
    (hsign : bits' / f.signBit % 2 = bits / f.signBit % 2) : toChars f bits' = toChars f bits := by
  rw [toChars, toChars, hmagnitude, hsign]

/-- The parts of the bits that are put together from a sign and a magnitude. -/
theorem signed_parts {magnitude : Nat} (h : magnitude < f.signBit) (negative : Bool) :
    (if negative then f.signBit + magnitude else magnitude) % f.signBit = magnitude
      ∧ (if negative then f.signBit + magnitude else magnitude) / f.signBit % 2
        = negative.toNat := by
  have hpos : 0 < f.signBit := Nat.zero_lt_of_lt h
  cases negative with
  | true =>
    rw [if_pos rfl, Nat.add_mod_left, Nat.add_div_left _ hpos, Nat.mod_eq_of_lt h,
      Nat.div_eq_of_lt h]
    exact ⟨rfl, rfl⟩
  | false => exact ⟨Nat.mod_eq_of_lt h, by rw [if_neg Bool.false_ne_true, Nat.div_eq_of_lt h]; rfl⟩

/-- The label of a number without its sign. -/
theorem toChars_of_le {bits : Nat} (h : bits % f.signBit ≤ f.infinity) {negative : Bool}
    (hsign : bits / f.signBit % 2 = negative.toNat) :
    toChars f bits = (if negative then ['-'] else [])
      ++ if bits % f.signBit = f.infinity then ['I', 'N', 'F']
        else magnitudeText f (bits % f.signBit) := by
  have hone : negative.toNat = 1 ↔ negative = true := by cases negative <;> decide
  rw [toChars]
  simp only [hsign, hone]
  rw [if_neg (Nat.not_lt.2 h)]
  split <;> rfl

theorem toChars_of_lt {bits : Nat} (h : f.infinity < bits % f.signBit) :
    toChars f bits = ['N', 'a', 'N'] := by
  rw [toChars]
  exact if_pos h

/-- The label of a value is read as bits that have the same label. -/
theorem read?_toChars (hf : Shortest.Supports f) (hinf : f.infinity < f.nan)
    (hnan : f.nan < f.signBit) (bits : Nat) : ∃ bits', read? f (toChars f bits) = some bits' := by
  simp only [read?, Option.filter_eq_some_iff, beq_iff_eq]
  rcases Nat.lt_or_ge f.infinity (bits % f.signBit) with hgt | hle
  · rw [toChars_of_lt hgt]
    refine ⟨f.nan, if_pos rfl, toChars_of_lt ?_⟩
    rwa [Nat.mod_eq_of_lt hnan]
  obtain ⟨negative, hsign⟩ : ∃ negative : Bool, bits / f.signBit % 2 = negative.toNat := by
    rcases Nat.mod_two_eq_zero_or_one (bits / f.signBit) with h | h
    · exact ⟨false, h⟩
    · exact ⟨true, h⟩
  refine ⟨if negative then f.signBit + bits % f.signBit else bits % f.signBit, ?_, ?_⟩
  · rw [toChars_of_le hle hsign]
    rcases hle.eq_or_lt with heq | hlt
    · rw [if_pos heq, heq]
      cases negative <;> rfl
    · obtain ⟨s, hread, rfl, hnearest⟩ := nearest_magnitudeText hf hlt negative
      rw [if_neg hlt.ne]
      -- The other labels are no numerals.
      have hne : ∀ cs, readScientific? cs = none →
          (if s.negative then ['-'] else []) ++ magnitudeText f (bits % f.signBit) ≠ cs := by
        rintro cs hnone rfl
        rw [hread] at hnone
        cases hnone
      rw [if_neg (hne _ rfl), if_neg (hne _ rfl), if_neg (hne _ rfl), hread]
      simp only [Option.bind_some, hnearest, hlt, if_true]
  · obtain ⟨hm, hs⟩ := signed_parts (hle.trans_lt (hinf.trans hnan)) negative
    exact toChars_eq hm (hs.trans hsign.symm)

/-- The labels that are read are those of the values. -/
theorem isSome_read?_iff (hf : Shortest.Supports f) (hinf : f.infinity < f.nan)
    (hnan : f.nan < f.signBit) {label : List Char} :
    (read? f label).isSome = true ↔ ∃ bits < 2 * f.signBit, toChars f bits = label := by
  rw [Option.isSome_iff_exists]
  constructor
  · rintro ⟨bits, hbits⟩
    exact ⟨bits, read?_lt hnan hinf.le hbits, toChars_of_read? hbits⟩
  · rintro ⟨bits, _, rfl⟩
    exact read?_toChars hf hinf hnan bits

theorem isSome_read?_binary32_iff {label : List Char} :
    (read? binary32 label).isSome = true ↔ ∃ bits < 2 ^ 32, toChars binary32 bits = label :=
  isSome_read?_iff Shortest.supports_binary32 (by decide) (by decide)

theorem isSome_read?_binary64_iff {label : List Char} :
    (read? binary64 label).isSome = true ↔ ∃ bits < 2 ^ 64, toChars binary64 bits = label :=
  isSome_read?_iff Shortest.supports_binary64 (by decide) (by decide)

end RdfIndex.Floating
