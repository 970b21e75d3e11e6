import RdfIndex.Number.Decimal
import RdfIndex.Number.Floating

/-!
# Canonical labels are written back

A number that is read off a canonical label is written as that label: `Integer.ofInt_of_read?`,
`Decimal.toChars_of_read?`, `Floating.toChars_of_read?`.  The first two rest on
`padLeft_digits_value`: the digits of the value of a list of digits are the list without the zeros
at its start.  The third has nothing to rest on, since a floating-point label is compared when it is
read.
-/

namespace RdfIndex

namespace Numeral

/-! ## Digits -/

theorem toNat_of_isDigit {c : Char} (h : isDigit c = true) : 0x30 ≤ c.toNat ∧ c.toNat < 0x3A := by
  simp only [isDigit, Bool.and_eq_true, decide_eq_true_eq, Char.le_def, UInt32.le_iff_toNat_le] at h
  have hlow : ('0' : Char).val.toNat = 0x30 := rfl
  have hhigh : ('9' : Char).val.toNat = 0x39 := rfl
  rw [hlow, hhigh] at h
  show 0x30 ≤ c.val.toNat ∧ c.val.toNat < 0x3A
  omega

theorem isDigit_iff {c : Char} : isDigit c = true ↔ 0x30 ≤ c.toNat ∧ c.toNat < 0x3A := by
  refine ⟨toNat_of_isDigit, fun ⟨hlow, hhigh⟩ => ?_⟩
  simp only [isDigit, Bool.and_eq_true, decide_eq_true_eq, Char.le_def, UInt32.le_iff_toNat_le]
  exact ⟨hlow, Nat.le_of_lt_succ hhigh⟩

/-- The last digit of a number is the one that was put there. -/
theorem lastDigit_of_isDigit {c : Char} (h : isDigit c = true) (n : Nat) :
    lastDigit (n * 10 + (c.toNat - 0x30)) = c := by
  obtain ⟨hlow, hhigh⟩ := toNat_of_isDigit h
  have hmod : 0x30 + (n * 10 + (c.toNat - 0x30)) % 10 = c.toNat := by omega
  rw [lastDigit, hmod, Char.ofNat_toNat]

theorem digits_of_lt {n : Nat} (h : n < 10) : digits n = [lastDigit n] := by
  rw [digits, if_pos h]

theorem digits_of_le {n : Nat} (h : 10 ≤ n) : digits n = digits (n / 10) ++ [lastDigit n] := by
  rw [digits, if_neg (by omega)]

theorem digits_zero : digits 0 = ['0'] := digits_of_lt (by omega)

theorem value_concat (ds : List Char) (c : Char) :
    value (ds ++ [c]) = value ds * 10 + (c.toNat - 0x30) := by
  rw [value, value, List.foldl_append, List.foldl_cons, List.foldl_nil]

theorem length_padLeft (width : Nat) (ds : List Char) :
    (padLeft width ds).length = max width ds.length := by
  rw [padLeft, List.length_append, List.length_replicate]
  omega

/-- The digits of a value, filled up, are the digits that it is the value of.  The list is given in
reverse, since the digits of a number grow at their end. -/
theorem padLeft_digits_value_reverse : ∀ {cs : List Char}, cs ≠ [] → cs.all isDigit = true →
    padLeft cs.length (digits (value cs.reverse)) = cs.reverse
  | [], h, _ => absurd rfl h
  | [c], _, hall => by
    have hc : isDigit c = true := by simpa using hall
    have hlast : lastDigit (c.toNat - 0x30) = c := by simpa using lastDigit_of_isDigit hc 0
    obtain ⟨_, _⟩ := toNat_of_isDigit hc
    rw [List.reverse_singleton, value, List.foldl_cons, List.foldl_nil, Nat.zero_mul, Nat.zero_add,
      digits_of_lt (by omega), hlast]
    rfl
  | c :: d :: cs, _, hall => by
    rw [List.all_cons, Bool.and_eq_true] at hall
    have ih := padLeft_digits_value_reverse (List.cons_ne_nil d cs) hall.2
    have hlast := lastDigit_of_isDigit hall.1 (value (d :: cs).reverse)
    obtain ⟨_, _⟩ := toNat_of_isDigit hall.1
    rw [List.reverse_cons (a := c), value_concat]
    by_cases hsmall : value (d :: cs).reverse * 10 + (c.toNat - 0x30) < 10
    · -- Nothing but zeros stands in front.
      have hzero : value (d :: cs).reverse = 0 := by omega
      rw [hzero] at ih hlast hsmall
      rw [digits_zero] at ih
      rw [hzero, digits_of_lt hsmall, hlast, ← ih, padLeft, padLeft]
      simp only [List.length_cons, List.length_nil, Nat.add_sub_cancel, List.replicate_succ',
        List.append_assoc, Nat.zero_add, List.singleton_append]
    · have hdiv : (value (d :: cs).reverse * 10 + (c.toNat - 0x30)) / 10
          = value (d :: cs).reverse := by omega
      rw [digits_of_le (by omega), hdiv, hlast]
      rw [padLeft] at ih ⊢
      rw [← List.append_assoc]
      simp only [List.length_cons, List.length_append, List.length_nil, Nat.zero_add,
        Nat.add_sub_add_right] at ih ⊢
      rw [ih]

/-- The digits of the value of a list of digits, filled up with zeros, are the list. -/
theorem padLeft_digits_value {ds : List Char} (hne : ds ≠ []) (hall : ds.all isDigit = true) :
    padLeft ds.length (digits (value ds)) = ds := by
  have hne' : ds.reverse ≠ [] := fun h => hne (List.reverse_eq_nil_iff.1 h)
  have h := padLeft_digits_value_reverse hne' (by rwa [List.all_reverse])
  rwa [List.length_reverse, List.reverse_reverse] at h

theorem length_digits_value_le {ds : List Char} (hne : ds ≠ []) (hall : ds.all isDigit = true) :
    (digits (value ds)).length ≤ ds.length := by
  have h := congrArg List.length (padLeft_digits_value hne hall)
  rw [length_padLeft] at h
  omega

/-- Digits without a zero at their start are the digits of their value. -/
theorem digits_value {ds : List Char} (hne : ds ≠ []) (hall : ds.all isDigit = true)
    (hhead : ds.head? ≠ some '0') : digits (value ds) = ds := by
  have h := padLeft_digits_value hne hall
  rw [padLeft] at h
  cases hk : ds.length - (digits (value ds)).length with
  | zero =>
    rwa [hk, List.replicate_zero, List.nil_append] at h
  | succ k =>
    rw [hk, List.replicate_succ, List.cons_append] at h
    rw [← h] at hhead
    exact absurd rfl hhead

theorem digits_value_of_eq_zero {ds : List Char} (h : ds = ['0']) : digits (value ds) = ds := by
  subst h
  exact digits_zero

end Numeral

/-! ## Integers -/

namespace Integer

/-- A label is its sign and the rest. -/
theorem sign_append_unsign : ∀ label : List Char,
    (if isSigned label then ['-'] else []) ++ unsign label = label
  | [] => rfl
  | c :: cs => by
    by_cases hc : c = '-'
    · subst hc
      rfl
    · have hsign : isSigned (c :: cs) = false := by simp [isSigned, hc]
      have hrest : unsign (c :: cs) = c :: cs := by simp [unsign, hc]
      rw [hsign, hrest]
      rfl

theorem isCanonical_iff {label : List Char} : isCanonical label = true ↔
    unsign label ≠ [] ∧ (unsign label).all Numeral.isDigit = true ∧
      (if unsign label = ['0'] then isSigned label = false
        else (unsign label).head? ≠ some '0') := by
  rw [isCanonical]
  simp only [Bool.and_eq_true, bne_iff_ne, and_assoc]
  split <;> simp

/-- The digits of a canonical label are the digits of its number. -/
theorem digits_value_unsign {label : List Char} (h : isCanonical label = true) :
    Numeral.digits (Numeral.value (unsign label)) = unsign label := by
  obtain ⟨hne, hall, hzero⟩ := isCanonical_iff.1 h
  by_cases h0 : unsign label = ['0']
  · exact Numeral.digits_value_of_eq_zero h0
  · rw [if_neg h0] at hzero
    exact Numeral.digits_value hne hall hzero

/-- Zero carries no hyphen. -/
theorem value_pos_of_isSigned {label : List Char} (h : isCanonical label = true)
    (hsign : isSigned label = true) : 0 < Numeral.value (unsign label) := by
  refine Nat.pos_of_ne_zero fun h0 => ?_
  have hds := digits_value_unsign h
  rw [h0, Numeral.digits_zero] at hds
  obtain ⟨_, _, hzero⟩ := isCanonical_iff.1 h
  rw [if_pos hds.symm, hsign] at hzero
  cases hzero

/-- An integer is written as the label that it is read off. -/
theorem ofInt_of_read? {label : List Char} {i : Int} (h : read? label = some i) :
    Numeral.ofInt i = label := by
  rw [read?] at h
  by_cases hcan : isCanonical label = true
  · rw [if_pos hcan] at h
    have hds := digits_value_unsign hcan
    have hlabel := sign_append_unsign label
    have hi := (Option.some.inj h).symm
    subst hi
    cases hsign : isSigned label with
    | true =>
      have hpos := value_pos_of_isSigned hcan hsign
      rw [hsign, if_pos rfl] at hlabel
      rw [if_pos rfl, Numeral.ofInt, if_pos (by omega), Int.natAbs_neg, Int.natAbs_natCast, hds]
      exact hlabel
    | false =>
      rw [hsign, if_neg (by simp)] at hlabel
      rw [if_neg (by simp), Numeral.ofInt, if_neg (by omega), Int.natAbs_natCast, hds]
      exact hlabel
  · rw [if_neg hcan] at h
    cases h

theorem ofInt_of_readFitting? {width : Nat} {label : List Char} {i : Int}
    (h : readFitting? width label = some i) : Numeral.ofInt i = label ∧ fits width i = true := by
  rw [readFitting?, Option.filter_eq_some_iff] at h
  exact ⟨ofInt_of_read? h.1, h.2⟩

end Integer

/-! ## Decimals -/

namespace Decimal

/-- A text is cut at its point and nothing is lost. -/
theorem splitPoint_eq_some {cs whole fraction : List Char}
    (h : splitPoint cs = some (whole, fraction)) : cs = whole ++ '.' :: fraction := by
  rw [splitPoint] at h
  split at h
  · next c rest hdrop =>
    obtain ⟨rfl, rfl⟩ := Prod.mk.inj (Option.some.inj h)
    have hhead := List.head?_dropWhile_not (fun c : Char => c != '.') cs
    rw [hdrop] at hhead
    have hc : c = '.' := by simpa using hhead
    rw [hc] at hdrop
    rw [← hdrop, List.takeWhile_append_dropWhile]
  · cases h

/-- What a canonical label consists of. -/
structure IsParts (negative : Bool) (whole fraction : List Char) : Prop where
  whole_ne : whole ≠ []
  fraction_ne : fraction ≠ []
  whole_digits : whole.all Numeral.isDigit = true
  fraction_digits : fraction.all Numeral.isDigit = true
  whole_head : whole = ['0'] ∨ whole.head? ≠ some '0'
  fraction_last : fraction = ['0'] ∨ fraction.getLast? ≠ some '0'
  sign : whole = ['0'] → fraction = ['0'] → negative = false

theorem eq_singleton_of_head? {cs : List Char} {c : Char} (hlen : ¬ 1 < cs.length)
    (hhead : cs.head? = some c) : cs = [c] := by
  match cs with
  | [] => cases hhead
  | [d] => exact congrArg (fun x => [x]) (Option.some.inj hhead)
  | _ :: _ :: _ =>
    simp only [List.length_cons] at hlen
    omega

theorem eq_singleton_of_getLast? {cs : List Char} {c : Char} (hlen : ¬ 1 < cs.length)
    (hlast : cs.getLast? = some c) : cs = [c] := by
  match cs with
  | [] => cases hlast
  | [d] => exact congrArg (fun x => [x]) (Option.some.inj hlast)
  | _ :: _ :: _ =>
    simp only [List.length_cons] at hlen
    omega

theorem isParts_of_isCanonical {label whole fraction : List Char} (h : isCanonical label = true)
    (hsplit : splitPoint (Integer.unsign label) = some (whole, fraction)) :
    IsParts (Integer.isSigned label) whole fraction := by
  rw [isCanonical, hsplit] at h
  simp only [Bool.and_eq_true, bne_iff_ne, Bool.not_eq_true', Bool.and_eq_false_iff,
    decide_eq_false_iff_not, beq_eq_false_iff_ne] at h
  obtain ⟨⟨⟨⟨⟨⟨hw, hf⟩, hwd⟩, hfd⟩, hwh⟩, hfl⟩, hs⟩ := h
  refine ⟨hw, hf, hwd, hfd, ?_, ?_, ?_⟩
  · by_cases hhead : whole.head? = some '0'
    · exact .inl (eq_singleton_of_head? (hwh.resolve_right (fun h => h hhead)) hhead)
    · exact .inr hhead
  · by_cases hlast : fraction.getLast? = some '0'
    · exact .inl (eq_singleton_of_getLast? (hfl.resolve_right (fun h => h hlast)) hlast)
    · exact .inr hlast
  · intro hw0 hf0
    rcases hs with (hs | hs) | hs
    · exact absurd hw0 hs
    · exact absurd hf0 hs
    · exact hs

/-- The fraction that is stored: none for a single zero. -/
def storedFraction (fraction : List Char) : List Char := if fraction = ['0'] then [] else fraction

theorem storedFraction_restored {fraction : List Char} (hne : fraction ≠ []) :
    (if storedFraction fraction = [] then ['0'] else storedFraction fraction) = fraction := by
  unfold storedFraction
  by_cases h : fraction = ['0']
  · rw [if_pos h, if_pos rfl, h]
  · rw [if_neg h, if_neg hne]

theorem all_storedFraction {fraction : List Char} (h : fraction.all Numeral.isDigit = true) :
    (storedFraction fraction).all Numeral.isDigit = true := by
  unfold storedFraction
  split
  · rfl
  · exact h

theorem value_zero_cons (ds : List Char) : Numeral.value ('0' :: ds) = Numeral.value ds := rfl

variable {negative : Bool} {whole fraction : List Char}

/-- The digits of the unscaled number of a canonical label that does not start with zero. -/
theorem digits_of_whole_ne (h : IsParts negative whole fraction) (hw : whole ≠ ['0']) :
    Numeral.digits (Numeral.value (whole ++ storedFraction fraction))
      = whole ++ storedFraction fraction := by
  refine Numeral.digits_value (by simp [h.whole_ne]) ?_ ?_
  · rw [List.all_append, h.whole_digits, all_storedFraction h.fraction_digits]
    rfl
  · obtain ⟨c, cs, rfl⟩ := List.exists_cons_of_ne_nil h.whole_ne
    exact h.whole_head.resolve_left hw

/-- The parts of the stored number are the parts of the label. -/
theorem parts_of_isParts (h : IsParts negative whole fraction) {unscaled : Int}
    (hu : unscaled.natAbs = Numeral.value (whole ++ storedFraction fraction)) :
    parts ⟨unscaled, (storedFraction fraction).length⟩ = (whole, storedFraction fraction) := by
  have hwpos : 0 < whole.length := List.length_pos_iff.2 h.whole_ne
  unfold parts
  simp only [hu]
  by_cases hw : whole = ['0']
  · subst hw
    rw [List.singleton_append, value_zero_cons]
    by_cases hf : storedFraction fraction = []
    · have hzero : Numeral.value [] = 0 := rfl
      rw [hf, hzero, Numeral.digits_zero]
      rfl
    · -- The number has no more digits than the fraction.
      have hall := all_storedFraction h.fraction_digits
      rw [if_neg (Nat.not_lt.2 (Numeral.length_digits_value_le hf hall)),
        Numeral.padLeft_digits_value hf hall]
  · rw [digits_of_whole_ne h hw, List.length_append, if_pos (by omega), Nat.add_sub_cancel,
      List.take_left, List.drop_left]

/-- A label with a hyphen is not the label of zero. -/
theorem value_pos_of_negative (h : IsParts true whole fraction) :
    0 < Numeral.value (whole ++ storedFraction fraction) := by
  refine Nat.pos_of_ne_zero fun h0 => ?_
  by_cases hw : whole = ['0']
  · subst hw
    rw [List.singleton_append, value_zero_cons] at h0
    have hfne : fraction ≠ ['0'] := fun hf => Bool.noConfusion (h.sign rfl hf)
    have hstored : storedFraction fraction = fraction := if_neg hfne
    rw [hstored] at h0
    -- A fraction of value zero ends in zero.
    have hpad := Numeral.padLeft_digits_value h.fraction_ne h.fraction_digits
    rw [h0, Numeral.digits_zero, Numeral.padLeft] at hpad
    refine h.fraction_last.elim hfne fun hlast => hlast ?_
    rw [← hpad, List.getLast?_append]
    rfl
  · have hds := digits_of_whole_ne h hw
    rw [h0, Numeral.digits_zero] at hds
    have hlen := congrArg List.length hds
    have hwpos : 0 < whole.length := List.length_pos_iff.2 h.whole_ne
    rw [List.length_append, List.length_singleton] at hlen
    have hnil : storedFraction fraction = [] := List.length_eq_zero_iff.1 (by omega)
    rw [hnil, List.append_nil] at hds
    exact hw hds.symm

/-- A number below the limit fits with either sign. -/
theorem fits_signed {magnitude : Nat} (h : Integer.fits 8 magnitude = true) (isSigned : Bool) :
    Integer.fits 8 (if isSigned then -(magnitude : Int) else magnitude) = true := by
  simp only [Integer.fits, Bool.and_eq_true, decide_eq_true_eq] at h ⊢
  cases isSigned with
  | true => omega
  | false => exact h

/-- A scale that is stored fits in eight bytes. -/
theorem fits_scale {scale : Nat} (h : scale ≤ maxScale) :
    Integer.fits 8 (scale : Int) = true := by
  have hlimit : scale ≤ 64 := h
  have hpow : Nat.pow 256 8 = 18446744073709551616 := by decide
  simp only [Integer.fits, Bool.and_eq_true, decide_eq_true_eq, hpow]
  omega

/-- The label of the number that a canonical label consists of. -/
theorem toChars_of_isParts (h : IsParts negative whole fraction) :
    toChars ⟨if negative then -(Numeral.value (whole ++ storedFraction fraction) : Int)
        else Numeral.value (whole ++ storedFraction fraction), (storedFraction fraction).length⟩
      = (if negative then ['-'] else []) ++ (whole ++ '.' :: fraction) := by
  cases negative with
  | true =>
    have hpos := value_pos_of_negative h
    rw [if_pos rfl, if_pos rfl, toChars,
      parts_of_isParts h (by rw [Int.natAbs_neg, Int.natAbs_natCast])]
    simp only [storedFraction_restored h.fraction_ne]
    rw [if_pos (by omega), List.append_assoc]
  | false =>
    rw [if_neg Bool.false_ne_true, if_neg Bool.false_ne_true, toChars,
      parts_of_isParts h (Int.natAbs_natCast _)]
    simp only [storedFraction_restored h.fraction_ne]
    rw [if_neg (by omega), List.append_assoc]

/-- A decimal is written as the label that it is read off, and it fits its stored form. -/
theorem toChars_of_read? {label : List Char} {d : Decimal} (h : read? label = some d) :
    d.toChars = label ∧ Integer.fits 8 d.unscaled = true ∧ d.scale ≤ maxScale := by
  rw [read?] at h
  by_cases hcan : isCanonical label = true
  · rw [if_pos hcan] at h
    split at h
    · cases h
    · next whole fraction hsplit =>
      have hparts := isParts_of_isCanonical hcan hsplit
      have hlabel := Integer.sign_append_unsign label
      rw [splitPoint_eq_some hsplit] at hlabel
      simp only [Option.ite_none_right_eq_some, Bool.and_eq_true,
        decide_eq_true_eq, Option.some.injEq] at h
      obtain ⟨⟨hfits, hscale⟩, rfl⟩ := h
      exact ⟨(toChars_of_isParts hparts).trans hlabel, fits_signed hfits _, hscale⟩
  · rw [if_neg hcan] at h
    cases h

end Decimal

/-! ## Floating-point numbers -/

namespace Floating

/-- A value is labelled by the label that it is read off. -/
theorem toChars_of_read? {f : BinaryFormat} {label : List Char} {bits : Nat}
    (h : read? f label = some bits) : toChars f bits = label := by
  simp only [read?, Option.filter_eq_some_iff] at h
  exact beq_iff_eq.1 h.2

/-- Bits are read that have a place in the format. -/
theorem read?_lt {f : BinaryFormat} (hnan : f.nan < f.signBit) (hinf : f.infinity ≤ f.nan)
    {label : List Char} {bits : Nat} (h : read? f label = some bits) : bits < 2 * f.signBit := by
  simp only [read?, Option.filter_eq_some_iff] at h
  obtain ⟨h, _⟩ := h
  split at h
  · cases h
    omega
  split at h
  · cases h
    omega
  split at h
  · cases h
    omega
  · obtain ⟨s, _, hs⟩ := Option.bind_eq_some_iff.1 h
    simp only [Option.ite_none_right_eq_some, Option.some.injEq] at hs
    obtain ⟨hlt, rfl⟩ := hs
    split <;> omega

theorem read?_binary32_lt {label : List Char} {bits : Nat} (h : read? binary32 label = some bits) :
    bits < Nat.pow 256 4 :=
  read?_lt (by decide) (by decide) h

theorem read?_binary64_lt {label : List Char} {bits : Nat} (h : read? binary64 label = some bits) :
    bits < Nat.pow 256 8 :=
  read?_lt (by decide) (by decide) h

end Floating

end RdfIndex
