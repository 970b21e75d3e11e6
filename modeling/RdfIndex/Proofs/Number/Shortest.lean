import Mathlib.Algebra.Order.Floor.Semifield
import Mathlib.Data.Rat.Floor
import RdfIndex.Proofs.Number.Nearest

/-!
# The fewest digits read back

The decimal that is taken for a magnitude lies in the interval of the magnitude, so that it is
rounded to that magnitude again (`shortest_mem`).  A hit of the search has been compared with the
ends of the interval.  If no grid has a hit the last one is fine enough: its points are closer to
each other than the middle of the interval is to its ends.
-/

namespace RdfIndex.Shortest

/-- The value of a decimal. -/
def Digits.value (d : Digits) : ℚ := d.digits * 10 ^ d.exponent

/-! ## Comparisons -/

/-- Both sides of a comparison, multiplied by what makes them integers. -/
theorem scaled_sides (a : Nat) (i : Int) (n : Nat) (j : Int) :
    ((a * Nat.pow 10 i.toNat * Nat.pow 2 (-j).toNat : Nat) : ℚ)
        = a * 10 ^ i * (10 ^ (-i).toNat * 2 ^ (-j).toNat)
      ∧ ((n * Nat.pow 2 j.toNat * Nat.pow 10 (-i).toNat : Nat) : ℚ)
        = n * 2 ^ j * (10 ^ (-i).toNat * 2 ^ (-j).toNat) := by
  rw [zpow_eq_div_pow 10 i, zpow_eq_div_pow 2 j]
  simp only [Nat.pow_eq, Nat.cast_mul, Nat.cast_pow, Nat.cast_ofNat]
  constructor <;> field_simp

theorem compareScaled_lt_iff {a n : Nat} {i j : Int} :
    compareScaled a i n j = .lt ↔ (a : ℚ) * 10 ^ i < n * 2 ^ j := by
  obtain ⟨hleft, hright⟩ := scaled_sides a i n j
  rw [compareScaled, compare_lt_iff_lt, ← Nat.cast_lt (α := ℚ), hleft, hright]
  exact mul_lt_mul_iff_of_pos_right (by positivity)

theorem compareScaled_gt_iff {a n : Nat} {i j : Int} :
    compareScaled a i n j = .gt ↔ (n : ℚ) * 2 ^ j < a * 10 ^ i := by
  obtain ⟨hleft, hright⟩ := scaled_sides a i n j
  rw [compareScaled, compare_gt_iff_gt, ← Nat.cast_lt (α := ℚ), hleft, hright]
  exact mul_lt_mul_iff_of_pos_right (by positivity)

theorem compareScaled_eq_iff {a n : Nat} {i j : Int} :
    compareScaled a i n j = .eq ↔ (a : ℚ) * 10 ^ i = n * 2 ^ j := by
  obtain ⟨hleft, hright⟩ := scaled_sides a i n j
  rw [compareScaled, compare_eq_iff_eq, ← Nat.cast_inj (R := ℚ), hleft, hright]
  exact mul_left_inj' (by positivity)

variable {i : Interval}

theorem Interval.holds_iff {d : Digits} : i.holds d = true ↔ i.Mem d.value := by
  simp only [Interval.holds, Interval.Mem, Digits.value, Bool.and_eq_true, Bool.or_eq_true,
    beq_iff_eq, compareScaled_lt_iff, compareScaled_gt_iff, compareScaled_eq_iff]
  rw [eq_comm (a := (i.low : ℚ) * 2 ^ i.exponent)]

/-! ## The search -/

theorem Interval.holds_of_pick {exponent : Int} {d : Digits} (h : i.pick exponent = some d) :
    i.holds d = true := by
  rw [Interval.pick] at h
  simp only at h
  split at h
  · cases h
  · next hdown _ =>
    cases h
    exact hdown
  · next _ hup =>
    cases h
    exact hup
  · next hdown hup =>
    split at h
    · cases h
      exact hdown
    · cases h
      exact hup

theorem Interval.holds_of_search {scale : Int} {fuel digits : Nat} {d : Digits}
    (h : i.search scale fuel digits = some d) : i.holds d = true := by
  induction fuel generalizing digits with
  | zero => cases h
  | succ fuel ih =>
    rw [Interval.search] at h
    split at h
    · next hit hpick =>
      cases h
      exact Interval.holds_of_pick hpick
    · exact ih h

/-! ## The finest grid -/

/-- The middle of an interval stands between two neighbours on a grid. -/
theorem Interval.floorAt_bounds (i : Interval) (exponent : Int) :
    (i.floorAt exponent : ℚ) * 10 ^ exponent ≤ i.mid * 2 ^ i.exponent
      ∧ (i.mid * 2 ^ i.exponent : ℚ) < (i.floorAt exponent + 1) * 10 ^ exponent := by
  have hgrid : (0 : ℚ) < 10 ^ exponent := by positivity
  have hquotient : ((i.mid * Nat.pow 2 i.exponent.toNat * Nat.pow 10 (-exponent).toNat : ℕ) : ℚ)
      / (Nat.pow 2 (-i.exponent).toNat * Nat.pow 10 exponent.toNat : ℕ)
        = i.mid * 2 ^ i.exponent / 10 ^ exponent := by
    rw [zpow_eq_div_pow 10 exponent, zpow_eq_div_pow 2 i.exponent]
    simp only [Nat.pow_eq, Nat.cast_mul, Nat.cast_pow, Nat.cast_ofNat]
    field_simp
  have hfloor : i.floorAt exponent = Nat.floor (i.mid * 2 ^ i.exponent / 10 ^ exponent : ℚ) := by
    rw [← hquotient, Nat.floor_div_eq_div]
    rfl
  rw [hfloor, ← le_div_iff₀ hgrid, ← div_lt_iff₀ hgrid]
  exact ⟨Nat.floor_le (by positivity), Nat.lt_floor_add_one _⟩

/-- The scale is the estimate or not above the middle. -/
theorem Interval.scaleFrom_spec (i : Interval) (fuel : Nat) (k : Int) :
    i.scaleFrom fuel k = k ∨ (10 : ℚ) ^ (i.scaleFrom fuel k - 1) ≤ i.mid * 2 ^ i.exponent := by
  induction fuel generalizing k with
  | zero => exact .inl rfl
  | succ fuel ih =>
    rw [Interval.scaleFrom]
    split
    · exact .inl rfl
    · next hle =>
      rw [beq_iff_eq, compareScaled_gt_iff, Nat.cast_one, one_mul, not_lt] at hle
      refine .inr ((ih (k + 1)).elim (fun heq => ?_) id)
      rwa [heq, add_sub_cancel_right]

/-- Powers of ten are below powers of two by a margin, for exponents as formats have them. -/
theorem pow_ten_le_pow_two {a e : Int} (h : 100000 * (a + 4) ≤ 30103 * e) (hlow : -1200 ≤ e)
    (hhigh : e ≤ 1200) : (10 : ℚ) ^ a ≤ 2 ^ e := by
  rcases Int.le_total 0 a with ha | ha
  · -- `10 ^ 3 ≤ 2 ^ 10`
    refine (pow_le_pow_iff_left₀ (by positivity) (by positivity) (by norm_num : 3 ≠ 0)).1 ?_
    calc ((10 : ℚ) ^ a) ^ 3 = (10 ^ 3) ^ a := by
          rw [← zpow_natCast, ← zpow_natCast, zpow_comm]
      _ ≤ (2 ^ 10) ^ a := zpow_le_zpow_left₀ ha (by norm_num) (by norm_num)
      _ = 2 ^ (10 * a) := by rw [zpow_mul]; norm_num
      _ ≤ 2 ^ (e * 3) := zpow_le_zpow_right₀ (by norm_num) (by omega)
      _ = (2 ^ e) ^ 3 := by rw [zpow_mul]; norm_num
  rcases Int.le_total 0 e with he | he
  · exact (zpow_le_one_of_nonpos₀ (by norm_num) ha).trans (one_le_zpow₀ (by norm_num) he)
  · -- `2 ^ 93 ≤ 10 ^ 28`
    refine (pow_le_pow_iff_left₀ (by positivity) (by positivity) (by norm_num : 93 ≠ 0)).1 ?_
    have hbase : ((10 ^ 28 : ℚ) ^ (-e))⁻¹ ≤ ((2 ^ 93) ^ (-e))⁻¹ :=
      inv_anti₀ (by positivity) (zpow_le_zpow_left₀ (by omega) (by norm_num) (by norm_num))
    rw [zpow_neg, zpow_neg, inv_inv, inv_inv] at hbase
    calc ((10 : ℚ) ^ a) ^ 93 = 10 ^ (a * 93) := by rw [zpow_mul]; norm_num
      _ ≤ 10 ^ (28 * e) := zpow_le_zpow_right₀ (by norm_num) (by omega)
      _ = (10 ^ 28) ^ e := by rw [zpow_mul]; norm_num
      _ ≤ (2 ^ 93) ^ e := hbase
      _ = (2 ^ e) ^ 93 := by rw [← zpow_natCast, ← zpow_natCast, zpow_comm]

/-- The bounds of the intervals that formats have. -/
structure Interval.InRange (i : Interval) : Prop where
  mid_pos : 0 < i.mid
  mid_lt : i.mid < 2 ^ 56
  low : -1200 ≤ i.exponent
  high : i.exponent ≤ 1200

/-- Twenty places below the scale the grid is finer than an interval. -/
theorem Interval.grid_le (h : i.InRange) : (10 : ℚ) ^ (i.scale - 20) ≤ 2 ^ i.exponent := by
  have hspec := i.scaleFrom_spec 4 (((i.mid.log2 : Int) + i.exponent) * 30103 / 100000 - 1)
  rw [← scale] at hspec
  rcases hspec with hscale | hscale
  · have hlog : i.mid.log2 < 56 := (Nat.log2_lt h.mid_pos.ne').2 h.mid_lt
    have := h.low
    have := h.high
    exact pow_ten_le_pow_two (by omega) h.low h.high
  · have hmid : (i.mid : ℚ) ≤ 10 ^ 19 := by
      have : (i.mid : ℚ) < 2 ^ 56 := by exact_mod_cast h.mid_lt
      linarith
    have hsplit : (10 : ℚ) ^ (i.scale - 1) = 10 ^ (i.scale - 20) * 10 ^ 19 := by
      rw [← zpow_natCast, ← zpow_add₀ (by norm_num)]
      congr 1
      push_cast
      ring
    rw [hsplit] at hscale
    have hunit : (0 : ℚ) < 2 ^ i.exponent := by positivity
    nlinarith

/-- The number on the finest grid lies in the interval. -/
theorem Interval.mem_floorAt (h : i.InRange) (hlow : i.low + 1 ≤ i.mid) (hhigh : i.mid < i.high) :
    i.Mem (Digits.value ⟨i.floorAt (i.scale - 20), i.scale - 20⟩) := by
  obtain ⟨hbelow, habove⟩ := i.floorAt_bounds (i.scale - 20)
  have hgrid := Interval.grid_le h
  have hunit : (0 : ℚ) < 2 ^ i.exponent := by positivity
  have hlow : (i.low + 1 : ℚ) ≤ i.mid := by exact_mod_cast hlow
  have hhigh : (i.mid : ℚ) < i.high := by exact_mod_cast hhigh
  simp only [Interval.Mem, Digits.value]
  exact ⟨.inl (by nlinarith), .inl (by nlinarith)⟩

/-! ## Formats -/

/-- The formats whose magnitudes have intervals with bounds as they are asked for here. -/
structure Supports (f : BinaryFormat) : Prop where
  fractionBits_le : f.fractionBits ≤ 52
  low : -1198 ≤ f.leastExponent
  high : f.leastExponent + Nat.pow 2 f.exponentBits ≤ 1200

theorem supports_binary32 : Supports binary32 := ⟨by decide, by decide, by decide⟩

theorem supports_binary64 : Supports binary64 := ⟨by decide, by decide, by decide⟩

theorem inRange_of {f : BinaryFormat} (hf : Supports f) {magnitude : Nat} (hpos : 0 < magnitude)
    (hfinite : magnitude < f.infinity) : (Interval.of f magnitude).InRange := by
  have hparts := f.isMagnitude_decode magnitude
  have hmid : (Interval.of f magnitude).mid = 4 * (f.decode magnitude).1 := rfl
  have hexponent : (Interval.of f magnitude).exponent = (f.decode magnitude).2 - 2 := rfl
  generalize f.decode magnitude = parts at *
  have hpow : Nat.pow 2 f.fractionBits ≤ Nat.pow 2 52 :=
    Nat.pow_le_pow_right (by decide) hf.fractionBits_le
  have hstep : (parts.2 - f.leastExponent).toNat < Nat.pow 2 f.exponentBits - 1 := by
    refine Nat.lt_of_mul_lt_mul_right (a := Nat.pow 2 f.fractionBits) ?_
    have hnumber := hparts.number
    rw [BinaryFormat.infinity] at hfinite
    omega
  have hlt := hparts.lt
  have hm := hparts.pos hpos
  have hleast := hparts.least_le
  have hlow := hf.low
  have hhigh := hf.high
  refine ⟨by omega, ?_, by omega, by omega⟩
  rw [hmid]
  calc 4 * parts.1 < 4 * (2 * Nat.pow 2 52) := by omega
    _ ≤ 2 ^ 56 := by decide

/-- The middle of an interval is not next to its ends. -/
theorem low_lt_mid {f : BinaryFormat} {magnitude : Nat} (hpos : 0 < magnitude) :
    (Interval.of f magnitude).low + 1 ≤ (Interval.of f magnitude).mid := by
  have hm := (f.isMagnitude_decode magnitude).pos hpos
  simp only [Interval.of]
  split <;> omega

/-- The decimal of a magnitude lies in its interval. -/
theorem shortest_mem {f : BinaryFormat} (hf : Supports f) {magnitude : Nat} (hpos : 0 < magnitude)
    (hfinite : magnitude < f.infinity) :
    (Interval.of f magnitude).Mem (shortest f magnitude).value := by
  rw [shortest]
  cases hsearch : (Interval.of f magnitude).search (Interval.of f magnitude).scale 20 1 with
  | some d => exact Interval.holds_iff.1 (Interval.holds_of_search hsearch)
  | none =>
    exact Interval.mem_floorAt (inRange_of hf hpos hfinite) (low_lt_mid hpos)
      (Nat.lt_add_of_pos_right (by decide))

end RdfIndex.Shortest
