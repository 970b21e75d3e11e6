import RdfIndex.Encoding.Literal
import RdfIndex.Proofs.Number.Scientific

/-!
# Numbers that labels denote

A label of an integer is digits after an optional sign, and a label of a decimal may have a point
among its digits.  `NativeType.Denotes` says which number it denotes, for canonical labels and for
all others.

A decimal denotes the number `Decimal.value`, and so does its label (`Decimal.denotes_toChars`).
That label is canonical unless its fraction ends in a zero that is not alone
(`Decimal.isCanonical_toChars_iff`).  A decimal without such zeros is the only one of its number
(`Decimal.eq_of_value_eq`), and the canonical labels are those of such decimals
(`Decimal.isCanonical_iff_isReduced`).
-/

namespace RdfIndex

/-! ## Labels and their numbers -/

namespace Numeral

/-- Digits denote a whole number. -/
inductive DenotesWhole : List Char → ℚ → Prop where
  | digits {ds : List Char} (hne : ds ≠ []) (hall : ds.all isDigit = true) :
    DenotesWhole ds (value ds)

/-- Digits with a point denote a number with a fraction.  One side of the point may be empty, or the
point may be left out. -/
inductive DenotesFraction : List Char → ℚ → Prop where
  | whole {ds : List Char} {q : ℚ} (h : DenotesWhole ds q) : DenotesFraction ds q
  | point {whole fraction : List Char} (hne : whole ++ fraction ≠ [])
      (hall : (whole ++ fraction).all isDigit = true) :
    DenotesFraction (whole ++ '.' :: fraction) (value (whole ++ fraction) / 10 ^ fraction.length)

/-- A sign may stand in front of what denotes a number. -/
inductive Signed (Denotes : List Char → ℚ → Prop) : List Char → ℚ → Prop where
  | bare {label : List Char} {q : ℚ} (h : Denotes label q) : Signed Denotes label q
  | plus {label : List Char} {q : ℚ} (h : Denotes label q) : Signed Denotes ('+' :: label) q
  | minus {label : List Char} {q : ℚ} (h : Denotes label q) : Signed Denotes ('-' :: label) (-q)

end Numeral

/-- A label of integers or decimals denotes a number. -/
def NativeType.Denotes : NativeType → List Char → ℚ → Prop
  | .integer => Numeral.Signed Numeral.DenotesWhole
  | .decimal => Numeral.Signed Numeral.DenotesFraction
  | _ => fun _ _ => False

namespace Numeral

theorem point_not_mem {ds : List Char} (h : ds.all isDigit = true) : '.' ∉ ds := by
  intro hmem
  exact absurd (List.all_eq_true.1 h _ hmem) (by decide)

theorem head?_ne_sign {ds : List Char} (h : ds.all isDigit = true) :
    ds.head? ≠ some '+' ∧ ds.head? ≠ some '-' := by
  have hmem : ∀ {c : Char}, isDigit c = false → ds.head? ≠ some c := fun hc hhead =>
    Bool.eq_false_iff.1 hc (List.all_eq_true.1 h _ (List.mem_of_head? hhead))
  exact ⟨hmem (by decide), hmem (by decide)⟩

/-- Digits have no point, so that a point cuts a label in one way. -/
theorem DenotesFraction.unique {label : List Char} {q r : ℚ} (h : DenotesFraction label q)
    (h' : DenotesFraction label r) : q = r := by
  cases h with
  | whole h =>
    obtain ⟨_, hall⟩ := h
    cases h' with
    | whole h' =>
      cases h'
      rfl
    | point => exact absurd (by simp) (point_not_mem hall)
  | @point whole fraction hne hall =>
    generalize hlabel : whole ++ '.' :: fraction = label at h'
    cases h' with
    | whole h' =>
      obtain ⟨_, hall'⟩ := h'
      exact absurd (hlabel ▸ by simp) (point_not_mem hall')
    | @point whole' fraction' hne' hall' =>
      rw [List.all_append, Bool.and_eq_true] at hall hall'
      have hsplit := Decimal.splitPoint_append hall.1 fraction
      rw [hlabel, Decimal.splitPoint_append hall'.1 fraction'] at hsplit
      cases hsplit
      rfl

/-- What denotes a number without a sign does not start with one. -/
theorem DenotesFraction.head?_ne {label : List Char} {q : ℚ} (h : DenotesFraction label q) :
    label.head? ≠ some '+' ∧ label.head? ≠ some '-' := by
  cases h with
  | whole h =>
    obtain ⟨_, hall⟩ := h
    exact head?_ne_sign hall
  | @point whole fraction hne hall =>
    rw [List.all_append, Bool.and_eq_true] at hall
    cases whole with
    | nil => simp
    | cons d ds =>
      have hhead := head?_ne_sign hall.1
      exact hhead

/-- A label denotes one number. -/
theorem Signed.unique {label : List Char} {q r : ℚ} (h : Signed DenotesFraction label q)
    (h' : Signed DenotesFraction label r) : q = r := by
  cases h with
  | bare h =>
    cases h' with
    | bare h' => exact h.unique h'
    | plus => exact absurd rfl h.head?_ne.1
    | minus => exact absurd rfl h.head?_ne.2
  | plus h =>
    cases h' with
    | bare h' => exact absurd rfl h'.head?_ne.1
    | plus h' => exact h.unique h'
  | minus h =>
    cases h' with
    | bare h' => exact absurd rfl h'.head?_ne.2
    | minus h' => rw [h.unique h']

theorem Signed.fraction_of_whole {label : List Char} {q : ℚ} (h : Signed DenotesWhole label q) :
    Signed DenotesFraction label q := by
  cases h with
  | bare h => exact .bare (.whole h)
  | plus h => exact .plus (.whole h)
  | minus h => exact .minus (.whole h)

end Numeral

namespace NativeType

theorem Denotes.unique {type : NativeType} {label : List Char} {q r : ℚ} (h : type.Denotes label q)
    (h' : type.Denotes label r) : q = r := by
  cases type with
  | integer => exact h.fraction_of_whole.unique h'.fraction_of_whole
  | decimal => exact Numeral.Signed.unique h h'
  | _ => exact h.elim

end NativeType

/-! ## Integers -/

/-- The sign of an integer makes a number of its magnitude. -/
theorem Numeral.Signed.of_natAbs {Denotes : List Char → ℚ → Prop} {label : List Char} {i : Int}
    {unit : ℚ} (h : Denotes label (i.natAbs * unit)) :
    Signed Denotes ((if i < 0 then ['-'] else []) ++ label) (i * unit) := by
  split
  · next hneg =>
    have hi : (i : ℚ) * unit = -(i.natAbs * unit) := by
      rw [Nat.cast_natAbs, abs_of_neg hneg, Int.cast_neg, neg_mul, neg_neg]
    rw [hi]
    exact .minus h
  · next hnonneg =>
    rw [Nat.cast_natAbs, abs_of_nonneg (Int.not_lt.1 hnonneg)] at h
    exact .bare h

theorem Integer.denotes_ofInt (i : Int) : NativeType.integer.Denotes (Numeral.ofInt i) i := by
  have hdigits := Numeral.DenotesWhole.digits (Numeral.digits_ne_nil i.natAbs)
    (Numeral.all_digits i.natAbs)
  rw [Numeral.value_digits, ← mul_one (i.natAbs : ℚ)] at hdigits
  have hsigned := Numeral.Signed.of_natAbs hdigits
  rw [mul_one] at hsigned
  rw [Numeral.ofInt]
  split
  · next hneg => rwa [if_pos hneg] at hsigned
  · next hnonneg => rwa [if_neg hnonneg] at hsigned

/-! ## Decimals -/

theorem Numeral.ten_dvd_value_iff {ds : List Char} (hne : ds ≠ []) (hall : ds.all isDigit = true) :
    10 ∣ value ds ↔ ds.getLast? = some '0' := by
  induction ds using List.reverseRecOn with
  | nil => exact absurd rfl hne
  | append_singleton ds c =>
    rw [List.all_append, Bool.and_eq_true, List.all_cons, List.all_nil, Bool.and_true] at hall
    obtain ⟨hlow, hhigh⟩ := toNat_of_isDigit hall.2
    have hzero : c = '0' ↔ c.toNat = 0x30 := by
      refine ⟨fun h => h ▸ rfl, fun h => ?_⟩
      rw [← Char.ofNat_toNat c, h]
    rw [value_concat, List.getLast?_concat, Option.some.injEq, hzero]
    omega

namespace Decimal

variable {d d' : Decimal}

/-- The number of a decimal. -/
def value (d : Decimal) : ℚ := d.unscaled / 10 ^ d.scale

/-- What the label of a decimal is written from: the digits of its number, cut so that the fraction
has the length of the scale. -/
structure IsCut (d : Decimal) (whole fraction : List Char) : Prop where
  whole_ne : whole ≠ []
  whole_digits : whole.all Numeral.isDigit = true
  whole_head : whole = ['0'] ∨ whole.head? ≠ some '0'
  fraction_digits : fraction.all Numeral.isDigit = true
  length_eq : fraction.length = d.scale
  value_eq : Numeral.value (whole ++ fraction) = d.unscaled.natAbs

theorem isCut_parts (d : Decimal) : d.IsCut d.parts.1 d.parts.2 := by
  have hall := Numeral.all_digits d.unscaled.natAbs
  have hne := Numeral.digits_ne_nil d.unscaled.natAbs
  unfold parts
  simp only
  split
  · next hscale =>
    have htake : (Numeral.digits d.unscaled.natAbs).length - d.scale ≠ 0 := by omega
    constructor
    · simp [htake, hne]
    · exact List.all_eq_true.2 fun c hc => List.all_eq_true.1 hall c (List.mem_of_mem_take hc)
    · rcases Nat.eq_zero_or_pos d.unscaled.natAbs with hzero | hpos
      · rw [hzero, Numeral.digits_zero] at hscale ⊢
        have : d.scale = 0 := by simpa using hscale
        exact .inl (by rw [this]; rfl)
      · rw [List.head?_take, if_neg htake]
        exact .inr (Numeral.head?_digits hpos)
    · exact List.all_eq_true.2 fun c hc => List.all_eq_true.1 hall c (List.mem_of_mem_drop hc)
    · rw [List.length_drop]
      omega
    · rw [List.take_append_drop, Numeral.value_digits]
  · next hscale =>
    constructor
    · exact List.cons_ne_nil _ _
    · rfl
    · exact .inl rfl
    · exact Numeral.all_padded d.scale d.unscaled.natAbs
    · rw [Numeral.length_padLeft]
      omega
    · exact Numeral.value_padded d.scale d.unscaled.natAbs

/-- The fraction that is written: a zero stands for none. -/
def writtenFraction (fraction : List Char) : List Char := if fraction = [] then ['0'] else fraction

theorem writtenFraction_ne_nil (fraction : List Char) : writtenFraction fraction ≠ [] := by
  rw [writtenFraction]
  split
  · exact List.cons_ne_nil _ _
  · assumption

theorem all_writtenFraction {fraction : List Char} (h : fraction.all Numeral.isDigit = true) :
    (writtenFraction fraction).all Numeral.isDigit = true := by
  rw [writtenFraction]
  split
  · rfl
  · exact h

theorem toChars_eq (d : Decimal) : d.toChars
    = labelOf (decide (d.unscaled < 0)) d.parts.1 (writtenFraction d.parts.2) := by
  simp only [toChars, labelOf, writtenFraction, decide_eq_true_eq, List.append_assoc]

/-- The zero that stands for no fraction does not change the number. -/
theorem IsCut.value_writtenFraction {whole fraction : List Char} (h : d.IsCut whole fraction) :
    (Numeral.value (whole ++ writtenFraction fraction) : ℚ) / 10 ^ (writtenFraction fraction).length
      = d.unscaled.natAbs * (1 / 10 ^ d.scale) := by
  rw [writtenFraction, ← h.value_eq, ← h.length_eq]
  split
  · next hnil =>
    have hzero : ('0' : Char).toNat - 0x30 = 0 := rfl
    rw [Numeral.value_concat, hzero, hnil, List.append_nil, List.length_singleton, List.length_nil]
    push_cast
    ring
  · ring

/-- The label of a decimal denotes its number. -/
theorem denotes_toChars (d : Decimal) : NativeType.decimal.Denotes d.toChars d.value := by
  have hcut := d.isCut_parts
  have hpoint : Numeral.DenotesFraction (d.parts.1 ++ '.' :: writtenFraction d.parts.2) _ :=
    .point (by simp [hcut.whole_ne])
      (by rw [List.all_append, hcut.whole_digits, all_writtenFraction hcut.fraction_digits]; rfl)
  rw [hcut.value_writtenFraction] at hpoint
  rw [toChars_eq, labelOf, value, ← mul_one_div]
  simp only [decide_eq_true_eq]
  exact Numeral.Signed.of_natAbs hpoint

/-! ### Canonical labels -/

theorem IsCut.ten_dvd_iff {whole fraction : List Char} (h : d.IsCut whole fraction)
    (hne : fraction ≠ []) : (10 : Int) ∣ d.unscaled ↔ fraction.getLast? = some '0' := by
  have hall : (whole ++ fraction).all Numeral.isDigit = true := by
    rw [List.all_append, h.whole_digits, h.fraction_digits, Bool.true_and]
  have hdvd := Numeral.ten_dvd_value_iff (by simp [hne]) hall
  rw [h.value_eq, List.getLast?_append_of_ne_nil _ hne] at hdvd
  rw [← hdvd]
  omega

/-- A decimal whose fraction is written without a zero at its end, but for one that is alone. -/
def IsTrimmed (d : Decimal) : Prop := d.scale ≤ 1 ∨ ¬ (10 : Int) ∣ d.unscaled

theorem IsCut.fraction_last_iff {whole fraction : List Char} (h : d.IsCut whole fraction) :
    (writtenFraction fraction = ['0'] ∨ (writtenFraction fraction).getLast? ≠ some '0')
      ↔ d.IsTrimmed := by
  have hlength := h.length_eq
  match fraction, h with
  | [], h =>
    exact iff_of_true (.inl rfl) (.inl (hlength ▸ Nat.zero_le 1))
  | [c], h =>
    refine iff_of_true ?_ (.inl (hlength ▸ Nat.le_refl 1))
    by_cases hc : c = '0'
    · exact .inl (by rw [hc]; rfl)
    · exact .inr (by simpa [writtenFraction] using hc)
  | c :: c' :: cs, h =>
    have hscale : ¬ d.scale ≤ 1 := by
      simp only [List.length_cons] at hlength
      omega
    have hwritten : writtenFraction (c :: c' :: cs) = c :: c' :: cs := rfl
    rw [hwritten, IsTrimmed, h.ten_dvd_iff (List.cons_ne_nil _ _), or_iff_right hscale,
      or_iff_right (by simp)]

/-- A decimal has a canonical label unless its fraction ends in a zero that is not alone. -/
theorem isCanonical_toChars_iff : isCanonical d.toChars = true ↔ d.IsTrimmed := by
  have hcut := d.isCut_parts
  rw [toChars_eq, isCanonical_labelOf_iff hcut.whole_ne hcut.whole_digits,
    ← hcut.fraction_last_iff]
  refine ⟨IsParts.fraction_last, fun hlast => ?_⟩
  refine ⟨hcut.whole_ne, writtenFraction_ne_nil _, hcut.whole_digits,
    all_writtenFraction hcut.fraction_digits, hcut.whole_head, hlast, fun hwhole hfraction => ?_⟩
  -- Zero is not negative.
  have hvalue := hcut.value_writtenFraction
  have hzero : Numeral.value (['0'] ++ ['0']) = 0 := rfl
  rw [hwhole, hfraction, hzero, Nat.cast_zero, zero_div] at hvalue
  have hnat : (d.unscaled.natAbs : ℚ) = 0 :=
    (mul_eq_zero.1 hvalue.symm).resolve_right (by positivity)
  have hunscaled : d.unscaled = 0 := Int.natAbs_eq_zero.1 (by exact_mod_cast hnat)
  rw [hunscaled]
  rfl

/-- A decimal without a zero at the end of its fraction, not even a single one. -/
def IsReduced (d : Decimal) : Prop := d.scale = 0 ∨ ¬ (10 : Int) ∣ d.unscaled

theorem value_eq_value_iff : d.value = d'.value
    ↔ d.unscaled * 10 ^ d'.scale = d'.unscaled * 10 ^ d.scale := by
  rw [value, value, div_eq_div_iff (by positivity) (by positivity)]
  exact_mod_cast Iff.rfl

/-- A decimal without zeros at its end has the least scale of those with its number. -/
theorem IsReduced.scale_le (h : d.IsReduced) (heq : d.value = d'.value) : d.scale ≤ d'.scale := by
  by_contra hlt
  rw [value_eq_value_iff] at heq
  obtain ⟨k, hk⟩ := Nat.exists_eq_add_of_lt (Nat.lt_of_not_le hlt)
  have hunscaled : d.unscaled = 10 * (d'.unscaled * 10 ^ k) := by
    have hpow : (10 : Int) ^ d'.scale ≠ 0 := by positivity
    apply mul_right_cancel₀ hpow
    rw [heq, hk, pow_succ, pow_add]
    ring
  rcases h with hzero | hnot
  · omega
  · exact hnot ⟨_, hunscaled⟩

/-- Decimals without zeros at their end are told apart by their numbers. -/
theorem eq_of_value_eq (h : d.IsReduced) (h' : d'.IsReduced) (heq : d.value = d'.value) :
    d = d' := by
  have hscale := Nat.le_antisymm (h.scale_le heq) (h'.scale_le heq.symm)
  rw [value_eq_value_iff, hscale] at heq
  have hpow : (10 : Int) ^ d'.scale ≠ 0 := by positivity
  have hunscaled := mul_right_cancel₀ hpow heq
  cases d
  cases d'
  rw [Decimal.mk.injEq]
  exact ⟨hunscaled, hscale⟩

/-- A number with a finite fraction is that of a decimal without zeros at its end. -/
theorem exists_isReduced (unscaled : Int) (scale : Nat) :
    ∃ d, IsReduced d ∧ d.value = unscaled / 10 ^ scale := by
  induction scale generalizing unscaled with
  | zero => exact ⟨⟨unscaled, 0⟩, .inl rfl, rfl⟩
  | succ scale ih =>
    by_cases hdvd : (10 : Int) ∣ unscaled
    · obtain ⟨n, rfl⟩ := hdvd
      obtain ⟨d, hreduced, hvalue⟩ := ih n
      refine ⟨d, hreduced, hvalue.trans ?_⟩
      push_cast
      rw [pow_succ]
      field_simp
    · exact ⟨⟨unscaled, scale + 1⟩, .inr hdvd, rfl⟩

/-- The canonical labels are those of decimals without zeros at their end. -/
theorem isCanonical_iff_isReduced {label : List Char} :
    isCanonical label = true ↔ ∃ d, IsReduced d ∧ d.toChars = label := by
  constructor
  · intro h
    obtain ⟨negative, whole, fraction, hparts, rfl⟩ := isCanonical_iff.1 h
    refine ⟨_, ?_, toChars_of_isParts hparts⟩
    by_cases hnil : storedFraction fraction = []
    · exact .inl (by rw [hnil]; rfl)
    have hstored : storedFraction fraction = fraction := by
      rw [storedFraction] at hnil ⊢
      split at hnil
      · exact absurd rfl hnil
      · next hne => exact if_neg hne
    have hne : fraction ≠ ['0'] := by
      rintro rfl
      exact hnil rfl
    have hall : (whole ++ fraction).all Numeral.isDigit = true := by
      rw [List.all_append, hparts.whole_digits, hparts.fraction_digits, Bool.true_and]
    have hlast := Numeral.ten_dvd_value_iff (by simp [hparts.whole_ne]) hall
    rw [List.getLast?_append_of_ne_nil _ hparts.fraction_ne] at hlast
    refine .inr fun hdvd => hparts.fraction_last.resolve_left hne (hlast.1 ?_)
    rw [hstored] at hdvd
    simp only at hdvd
    split at hdvd <;> omega
  · rintro ⟨d, hreduced, rfl⟩
    refine isCanonical_toChars_iff.2 (hreduced.imp_left fun hzero => ?_)
    rw [hzero]
    exact Nat.zero_le 1

end Decimal

end RdfIndex
