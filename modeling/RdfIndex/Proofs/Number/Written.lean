import RdfIndex.Proofs.Number.Labels

/-!
# Canonical labels are those that are written

An integer is read off a label if and only if it is written as that label
(`Integer.read?_eq_some_iff`), and a label is canonical for a decimal if and only if it is a sign, a
whole part and a fraction as canonical labels have them (`Decimal.isCanonical_iff`).  What
`Labels` says of labels that were read is here said of all that are written.
-/

namespace RdfIndex

namespace Numeral

theorem toNat_lastDigit (n : Nat) : (lastDigit n).toNat = 0x30 + n % 10 := by
  have hall : ∀ d < 10, (Char.ofNat (0x30 + d)).toNat = 0x30 + d := by decide
  exact hall (n % 10) (Nat.mod_lt n (by decide))

theorem isDigit_lastDigit (n : Nat) : isDigit (lastDigit n) = true := by
  rw [isDigit_iff, toNat_lastDigit]
  omega

theorem digits_ne_nil (n : Nat) : digits n ≠ [] := by
  rw [digits]
  split <;> simp

theorem all_digits (n : Nat) : (digits n).all isDigit = true := by
  fun_induction digits n with
  | case1 n h => simp [isDigit_lastDigit]
  | case2 n h ih => simp [ih, isDigit_lastDigit]

/-- The value of the digits of a number is the number. -/
theorem value_digits (n : Nat) : value (digits n) = n := by
  fun_induction digits n with
  | case1 n h =>
    rw [value, List.foldl_cons, List.foldl_nil, toNat_lastDigit]
    omega
  | case2 n h ih =>
    rw [value_concat, ih, toNat_lastDigit]
    omega

/-- The first digit of a positive number is not zero. -/
theorem head?_digits {n : Nat} (h : 0 < n) : (digits n).head? ≠ some '0' := by
  fun_induction digits n with
  | case1 n hlt =>
    intro hzero
    have hchar := congrArg Char.toNat (Option.some.inj hzero)
    rw [toNat_lastDigit] at hchar
    have : ('0' : Char).toNat = 0x30 := rfl
    omega
  | case2 n hle ih =>
    obtain ⟨d, ds, hds⟩ := List.exists_cons_of_ne_nil (digits_ne_nil (n / 10))
    have hrest := ih (by omega)
    rw [hds] at hrest ⊢
    exact hrest

/-- Digits carry no sign. -/
theorem head?_digits_ne_hyphen (n : Nat) : (digits n).head? ≠ some '-' := by
  obtain ⟨d, ds, hds⟩ := List.exists_cons_of_ne_nil (digits_ne_nil n)
  have hall := all_digits n
  rw [hds, List.all_cons, Bool.and_eq_true] at hall
  rw [hds]
  intro hhead
  cases hhead
  exact absurd hall.1 (by decide)

end Numeral

/-! ## Integers -/

namespace Integer

theorem unsign_of_head?_ne {ds : List Char} (h : ds.head? ≠ some '-') :
    unsign ds = ds ∧ isSigned ds = false := by
  cases ds with
  | nil => exact ⟨rfl, rfl⟩
  | cons d ds =>
    have hd : d ≠ '-' := fun heq => h (congrArg some heq)
    exact ⟨by simp [unsign, hd], by simp [isSigned, hd]⟩

/-- The parts of the label of an integer. -/
theorem unsign_ofInt (i : Int) :
    unsign (Numeral.ofInt i) = Numeral.digits i.natAbs
      ∧ isSigned (Numeral.ofInt i) = decide (i < 0) := by
  rw [Numeral.ofInt]
  split
  · next h => exact ⟨rfl, (decide_eq_true h).symm⟩
  · next h =>
    obtain ⟨hrest, hsign⟩ := unsign_of_head?_ne (Numeral.head?_digits_ne_hyphen i.natAbs)
    exact ⟨hrest, hsign.trans (decide_eq_false h).symm⟩

theorem isCanonical_ofInt (i : Int) : isCanonical (Numeral.ofInt i) = true := by
  obtain ⟨hrest, hsign⟩ := unsign_ofInt i
  rw [isCanonical_iff, hrest, hsign]
  refine ⟨Numeral.digits_ne_nil _, Numeral.all_digits _, ?_⟩
  split
  · next hzero =>
    -- Only zero is written as `0`.
    have hvalue := Numeral.value_digits i.natAbs
    rw [hzero] at hvalue
    have : Numeral.value ['0'] = 0 := rfl
    exact decide_eq_false (by omega)
  · next hne =>
    refine Numeral.head?_digits (Nat.pos_of_ne_zero fun h0 => hne ?_)
    rw [h0, Numeral.digits_zero]

theorem read?_ofInt (i : Int) : read? (Numeral.ofInt i) = some i := by
  obtain ⟨hrest, hsign⟩ := unsign_ofInt i
  rw [read?, if_pos (isCanonical_ofInt i), hrest, hsign, Numeral.value_digits]
  simp only [decide_eq_true_eq]
  split
  · exact congrArg some (by omega)
  · exact congrArg some (by omega)

/-- An integer is read off the label that it is written as, and off no other one. -/
theorem read?_eq_some_iff {label : List Char} {i : Int} :
    read? label = some i ↔ Numeral.ofInt i = label :=
  ⟨ofInt_of_read?, fun h => h ▸ read?_ofInt i⟩

theorem readFitting?_eq_some_iff {width : Nat} {label : List Char} {i : Int} :
    readFitting? width label = some i ↔ Numeral.ofInt i = label ∧ fits width i = true := by
  rw [readFitting?, Option.filter_eq_some_iff, read?_eq_some_iff]

end Integer

/-! ## Decimals -/

namespace Decimal

/-- The label of a sign, a whole part and a fraction. -/
def labelOf (negative : Bool) (whole fraction : List Char) : List Char :=
  (if negative then ['-'] else []) ++ (whole ++ '.' :: fraction)

theorem splitPoint_append {whole : List Char} (h : whole.all Numeral.isDigit = true)
    (fraction : List Char) : splitPoint (whole ++ '.' :: fraction) = some (whole, fraction) := by
  have hall : ∀ c ∈ whole, (c != '.') = true := fun c hc => by
    have hdigit := List.all_eq_true.1 h c hc
    simpa using fun heq : c = '.' => absurd (heq ▸ hdigit) (by decide)
  rw [splitPoint, List.dropWhile_append_of_pos hall, List.dropWhile_cons_of_neg (by simp),
    List.takeWhile_append_of_pos hall, List.takeWhile_cons_of_neg (by simp), List.append_nil]

theorem unsign_labelOf (negative : Bool) {whole : List Char} (hne : whole ≠ [])
    (hall : whole.all Numeral.isDigit = true) (fraction : List Char) :
    Integer.unsign (labelOf negative whole fraction) = whole ++ '.' :: fraction
      ∧ Integer.isSigned (labelOf negative whole fraction) = negative := by
  cases negative with
  | true => exact ⟨rfl, rfl⟩
  | false =>
    refine Integer.unsign_of_head?_ne ?_
    obtain ⟨d, ds, rfl⟩ := List.exists_cons_of_ne_nil hne
    have hdigit : Numeral.isDigit d = true := (Bool.and_eq_true _ _ ▸ hall).1
    intro hhead
    cases hhead
    exact absurd hdigit (by decide)

theorem isCanonical_labelOf {negative : Bool} {whole fraction : List Char}
    (h : IsParts negative whole fraction) :
    isCanonical (labelOf negative whole fraction) = true := by
  obtain ⟨hrest, hsign⟩ := unsign_labelOf negative h.whole_ne h.whole_digits fraction
  have hhead : ¬ (1 < whole.length ∧ whole.head? = some '0') := fun ⟨hlen, hzero⟩ =>
    h.whole_head.elim (fun heq => by simp [heq] at hlen) fun hne => hne hzero
  have hlast : ¬ (1 < fraction.length ∧ fraction.getLast? = some '0') := fun ⟨hlen, hzero⟩ =>
    h.fraction_last.elim (fun heq => by simp [heq] at hlen) fun hne => hne hzero
  have hzero : ¬ ((whole = ['0'] ∧ fraction = ['0']) ∧ negative = true) := fun ⟨⟨hw, hf⟩, hneg⟩ =>
    absurd (h.sign hw hf) (by simp [hneg])
  rw [isCanonical, hrest, splitPoint_append h.whole_digits, hsign]
  simp only [h.whole_digits, h.fraction_digits, Bool.and_true, Bool.and_eq_true, bne_iff_ne,
    Bool.not_eq_true', ← Bool.not_eq_true, decide_eq_true_eq, beq_iff_eq]
  exact ⟨⟨⟨⟨h.whole_ne, h.fraction_ne⟩, hhead⟩, hlast⟩, hzero⟩

/-- A label of digits around a point is canonical if and only if its parts are those of canonical
labels. -/
theorem isCanonical_labelOf_iff {negative : Bool} {whole fraction : List Char} (hne : whole ≠ [])
    (hall : whole.all Numeral.isDigit = true) :
    isCanonical (labelOf negative whole fraction) = true ↔ IsParts negative whole fraction := by
  refine ⟨fun h => ?_, isCanonical_labelOf⟩
  obtain ⟨hrest, hsign⟩ := unsign_labelOf negative hne hall fraction
  have hparts := isParts_of_isCanonical h (hrest.symm ▸ splitPoint_append hall fraction)
  rwa [hsign] at hparts

/-- A label is canonical if and only if it is written from the parts that canonical labels have. -/
theorem isCanonical_iff {label : List Char} : isCanonical label = true ↔
    ∃ negative whole fraction, IsParts negative whole fraction
      ∧ labelOf negative whole fraction = label := by
  constructor
  · intro h
    cases hsplit : splitPoint (Integer.unsign label) with
    | none =>
      rw [isCanonical, hsplit] at h
      cases h
    | some parts =>
      obtain ⟨whole, fraction⟩ := parts
      refine ⟨_, whole, fraction, isParts_of_isCanonical h hsplit, ?_⟩
      rw [labelOf, ← splitPoint_eq_some hsplit]
      exact Integer.sign_append_unsign label
  · rintro ⟨negative, whole, fraction, hparts, rfl⟩
    exact isCanonical_labelOf hparts

end Decimal

end RdfIndex
