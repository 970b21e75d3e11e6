import Mathlib.Data.List.TakeWhile
import RdfIndex.Proofs.Number.Shortest
import RdfIndex.Proofs.Number.Written

/-!
# Decimal numerals with an exponent

A numeral is rounded to the magnitude in whose interval its value lies (`nearest_eq_of_mem`).  The
value is never so small or so large that its places alone would tell it from zero and infinity.
-/

namespace RdfIndex

namespace Numeral

/-! ## Values of digits -/

theorem value_append (ds es : List Char) :
    value (ds ++ es) = value ds * 10 ^ es.length + value es := by
  induction es using List.reverseRecOn with
  | nil => simp [value]
  | append_singleton es c ih =>
    rw [← List.append_assoc, value_concat, value_concat, ih, List.length_append,
      List.length_singleton, pow_succ]
    ring

theorem value_zeros (n : Nat) : value (List.replicate n '0') = 0 := by
  induction n with
  | zero => rfl
  | succ n ih => rw [List.replicate_succ', value_concat, ih]; rfl

theorem value_append_zeros (ds : List Char) (n : Nat) :
    value (ds ++ List.replicate n '0') = value ds * 10 ^ n := by
  rw [value_append, value_zeros, List.length_replicate, Nat.add_zero]

theorem all_zeros (n : Nat) : (List.replicate n '0').all isDigit = true :=
  List.all_eq_true.2 fun _ hc => (List.eq_of_mem_replicate hc) ▸ rfl

/-- Zeros in front do not count. -/
theorem value_dropWhile_zero (ds : List Char) : value (ds.dropWhile (· == '0')) = value ds := by
  induction ds with
  | nil => rfl
  | cons d ds ih =>
    by_cases hd : d = '0'
    · subst hd
      rw [List.dropWhile_cons_of_pos rfl, ih]
      rfl
    · rw [List.dropWhile_cons_of_neg (by simpa using hd)]

theorem value_lt {ds : List Char} (h : ds.all isDigit = true) : value ds < 10 ^ ds.length := by
  induction ds using List.reverseRecOn with
  | nil => decide
  | append_singleton ds c ih =>
    rw [List.all_append, Bool.and_eq_true] at h
    have hc : isDigit c = true := by simpa using h.2
    obtain ⟨_, hhigh⟩ := toNat_of_isDigit hc
    have := ih h.1
    rw [value_concat, List.length_append, List.length_singleton, pow_succ]
    omega

/-- Digits that do not start with zero have the value of as many places. -/
theorem le_value {ds : List Char} (h : ds.all isDigit = true) (hne : ds ≠ [])
    (hhead : ds.head? ≠ some '0') : 10 ^ (ds.length - 1) ≤ value ds := by
  obtain ⟨d, ds, rfl⟩ := List.exists_cons_of_ne_nil hne
  rw [List.all_cons, Bool.and_eq_true] at h
  obtain ⟨hlow, hhigh⟩ := toNat_of_isDigit h.1
  have hd : d.toNat ≠ 0x30 := fun heq => hhead (by
    rw [List.head?_cons, ← Char.ofNat_toNat d, heq])
  have happend : d :: ds = [d] ++ ds := rfl
  have hvalue : value [d] = d.toNat - 0x30 := by rw [value, List.foldl_cons, List.foldl_nil]; omega
  rw [happend, value_append, hvalue, List.length_append, List.length_singleton,
    Nat.add_sub_cancel_left]
  exact Nat.le_add_right_of_le (Nat.le_mul_of_pos_left _ (by omega))

/-- Only zeros are dropped at the end. -/
theorem dropZeros_append (ds : List Char) :
    ∃ n, (ds.reverse.dropWhile (· == '0')).reverse ++ List.replicate n '0' = ds := by
  obtain ⟨n, hzeros⟩ : ∃ n, ds.reverse.takeWhile (· == '0') = List.replicate n '0' :=
    ⟨_, List.eq_replicate_iff.2 ⟨rfl, fun c hc => by simpa using List.mem_takeWhile_imp hc⟩⟩
  have hsplit := congrArg List.reverse
    (List.takeWhile_append_dropWhile (p := (· == '0')) (l := ds.reverse))
  rw [hzeros, List.reverse_append, List.reverse_replicate, List.reverse_reverse] at hsplit
  exact ⟨n, hsplit⟩

/-! ## Numbers of fixed width -/

/-- A number below a power of ten has no more digits than the power has zeros. -/
theorem length_digits_le {width n : Nat} (hwidth : 0 < width) (h : n < 10 ^ width) :
    (digits n).length ≤ width := by
  rcases Nat.eq_zero_or_pos n with rfl | hpos
  · rw [digits_zero]
    exact hwidth
  · have hle := le_value (all_digits n) (digits_ne_nil n) (head?_digits hpos)
    rw [value_digits] at hle
    have hlt := (Nat.pow_lt_pow_iff_right (by decide)).1 (Nat.lt_of_le_of_lt hle h)
    omega

theorem length_padded {width n : Nat} (hwidth : 0 < width) (h : n < 10 ^ width) :
    (padded width n).length = width := by
  rw [padded, length_padLeft, Nat.max_eq_left (length_digits_le hwidth h)]

theorem all_padded (width n : Nat) : (padded width n).all isDigit = true := by
  rw [padded, padLeft, List.all_append, all_zeros, all_digits]
  rfl

theorem value_padded (width n : Nat) : value (padded width n) = n := by
  rw [padded, padLeft, value_append, value_zeros, value_digits, Nat.zero_mul, Nat.zero_add]

end Numeral

namespace Floating

/-! ## Rounding -/

/-- The value of a numeral without its sign. -/
def Scientific.value (s : Scientific) : ℚ := Numeral.value s.digits * 10 ^ s.exponent

/-- What lies in the interval of a finite magnitude is neither too small nor too large to be told
from zero and infinity by its places. -/
theorem bounds_of_mem {f : BinaryFormat} (hf : Shortest.Supports f) {magnitude : Nat}
    (hpos : 0 < magnitude) (hfinite : magnitude < f.infinity) {x : ℚ}
    (h : (Shortest.Interval.of f magnitude).Mem x) :
    (10 : ℚ) ^ (-beyond) ≤ x ∧ x < (10 : ℚ) ^ beyond := by
  have hrange := Shortest.inRange_of hf hpos hfinite
  have hlow : 1 ≤ (Shortest.Interval.of f magnitude).low := by
    have hm := (f.isMagnitude_decode magnitude).pos hpos
    simp only [Shortest.Interval.of]
    split <;> omega
  have hhigh : (Shortest.Interval.of f magnitude).high ≤ 2 ^ 57 := by
    have hmid := hrange.mid_lt
    show (Shortest.Interval.of f magnitude).mid + 2 ≤ 2 ^ 57
    omega
  generalize Shortest.Interval.of f magnitude = i at *
  have hleast : (2 : ℚ) ^ (-1200 : ℤ) ≤ 2 ^ i.exponent :=
    zpow_le_zpow_right₀ (by norm_num) hrange.low
  have hgreatest : (2 : ℚ) ^ i.exponent ≤ 2 ^ (1200 : ℤ) :=
    zpow_le_zpow_right₀ (by norm_num) hrange.high
  have hunit : (0 : ℚ) < 2 ^ i.exponent := by positivity
  have hlow : (1 : ℚ) ≤ i.low := by exact_mod_cast hlow
  have hhigh : (i.high : ℚ) ≤ 2 ^ 57 := by exact_mod_cast hhigh
  obtain ⟨hbelow, habove⟩ := h
  constructor
  · calc (10 : ℚ) ^ (-beyond) ≤ 2 ^ (-1200 : ℤ) :=
          Shortest.pow_ten_le_pow_two (by decide) (by decide) (by decide)
      _ ≤ i.low * 2 ^ i.exponent := by nlinarith
      _ ≤ x := hbelow.elim le_of_lt fun h => h.2.le
  · calc x ≤ i.high * 2 ^ i.exponent := habove.elim le_of_lt fun h => h.2.le
      _ ≤ 2 ^ 57 * 2 ^ (1200 : ℤ) := by gcongr
      _ ≤ (2 ^ 13) ^ 100 := by
        rw [zpow_ofNat, ← pow_add, ← pow_mul]
        exact pow_le_pow_right₀ (by norm_num) (by norm_num)
      _ < (10 ^ 4) ^ 100 := by gcongr; norm_num
      _ = (10 : ℚ) ^ beyond := (pow_mul 10 4 100).symm

/-- Digits without a zero in front have as many places as their value. -/
theorem places_of_bounds {ds : List Char} (hall : ds.all Numeral.isDigit = true) (hne : ds ≠ [])
    (hhead : ds.head? ≠ some '0') {e b : Int} (hlow : (10 : ℚ) ^ (-b) ≤ Numeral.value ds * 10 ^ e)
    (hhigh : Numeral.value ds * 10 ^ e < (10 : ℚ) ^ b) :
    -b ≤ ds.length + e ∧ ds.length + e ≤ b := by
  have hten : (1 : ℚ) < 10 := by norm_num
  have hlen : 0 < ds.length := List.length_pos_iff.2 hne
  have hmost : (Numeral.value ds : ℚ) < 10 ^ (ds.length : ℤ) := by
    exact_mod_cast Numeral.value_lt hall
  have hleast : (10 : ℚ) ^ ((ds.length : ℤ) - 1) ≤ Numeral.value ds := by
    have hcast : (ds.length : ℤ) - 1 = (ds.length - 1 : ℕ) := by omega
    rw [hcast]
    exact_mod_cast Numeral.le_value hall hne hhead
  have hbelow : (10 : ℚ) ^ (-b) < 10 ^ (ds.length + e) := by
    refine hlow.trans_lt ?_
    rw [zpow_add₀ (by norm_num)]
    gcongr
  have habove : (10 : ℚ) ^ ((ds.length : ℤ) - 1 + e) < 10 ^ b := by
    refine lt_of_le_of_lt ?_ hhigh
    rw [zpow_add₀ (by norm_num)]
    gcongr
  rw [zpow_lt_zpow_iff_right₀ hten] at hbelow habove
  omega

/-- A numeral is rounded to the magnitude in whose interval it lies. -/
theorem nearest_eq_of_mem {f : BinaryFormat} (hf : Shortest.Supports f) {magnitude : Nat}
    (hpos : 0 < magnitude) (hfinite : magnitude < f.infinity) {s : Scientific}
    (hdigits : s.digits.all Numeral.isDigit = true)
    (h : (Shortest.Interval.of f magnitude).Mem s.value) : nearest f s = magnitude := by
  obtain ⟨hlow, hhigh⟩ := bounds_of_mem hf hpos hfinite h
  have hvalue : s.value = Numeral.value (s.digits.dropWhile (· == '0')) * 10 ^ s.exponent := by
    rw [Numeral.value_dropWhile_zero]
    rfl
  have hall : (s.digits.dropWhile (· == '0')).all Numeral.isDigit = true :=
    List.all_eq_true.2 fun c hc =>
      List.all_eq_true.1 hdigits c ((List.dropWhile_sublist _).subset hc)
  have hhead : (s.digits.dropWhile (· == '0')).head? ≠ some '0' := fun hzero => by
    have := List.head?_dropWhile_not (· == '0') s.digits
    rw [hzero] at this
    exact absurd this (by decide)
  rw [nearest]
  simp only
  rw [hvalue] at h hlow hhigh
  generalize s.digits.dropWhile (· == '0') = ds at *
  have hnum : 0 < Numeral.value ds := by
    have hpower : (0 : ℚ) < 10 ^ (-beyond) := by positivity
    have := pos_of_mul_pos_left (hpower.trans_le hlow) (by positivity)
    exact_mod_cast this
  have hne : ds ≠ [] := by
    rintro rfl
    exact absurd hnum (by decide)
  obtain ⟨hleast, hmost⟩ := places_of_bounds hall hne hhead hlow hhigh
  rw [if_neg (not_or.2 ⟨hne, not_lt.2 hleast⟩), if_neg (not_lt.2 hmost)]
  have hscale : 0 < Nat.pow 10 s.exponent.toNat := Nat.pow_pos (by decide)
  have hden : 0 < Nat.pow 10 (-s.exponent).toNat := Nat.pow_pos (by decide)
  have hquotient : ((Numeral.value ds * Nat.pow 10 s.exponent.toNat : ℕ) : ℚ)
      / (Nat.pow 10 (-s.exponent).toNat : ℕ) = Numeral.value ds * 10 ^ s.exponent := by
    rw [zpow_eq_div_pow 10 s.exponent, ← mul_div_assoc]
    norm_cast
  rw [BinaryFormat.nearest_eq_of_mem hpos hden (Nat.mul_pos hnum hscale) (hquotient ▸ h)]
  exact Nat.min_eq_right hfinite.le

end Floating

end RdfIndex
