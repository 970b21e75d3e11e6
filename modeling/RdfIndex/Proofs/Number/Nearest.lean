import Mathlib.Algebra.Order.Field.Power
import Mathlib.Data.Rat.Cast.Order
import Mathlib.Tactic.FieldSimp
import Mathlib.Tactic.GCongr
import Mathlib.Tactic.Linarith
import Mathlib.Tactic.NormNum
import Mathlib.Tactic.Positivity
import Mathlib.Tactic.Ring
import RdfIndex.Number.Shortest

/-!
# Rounding to the nearest magnitude

The number of the magnitude nearest to a quotient is that of every magnitude in whose interval the
quotient lies (`BinaryFormat.nearest_eq_of_mem`).
-/

namespace RdfIndex

/-! ## Powers in the numerator and the denominator -/

/-- A power with an integer exponent as a quotient of powers with natural ones. -/
theorem zpow_eq_div_pow (b : ℚ) (i : ℤ) : b ^ i = b ^ i.toNat / b ^ (-i).toNat := by
  rcases Int.le_total 0 i with h | h
  · obtain ⟨n, rfl⟩ := Int.eq_ofNat_of_zero_le h
    have hneg : (-(n : ℤ)).toNat = 0 := by omega
    rw [hneg, pow_zero, div_one, Int.toNat_natCast, zpow_natCast]
  · obtain ⟨n, hn⟩ := Int.eq_ofNat_of_zero_le (Int.neg_nonneg.2 h)
    obtain rfl : i = -(n : ℤ) := by omega
    have hneg : (-(n : ℤ)).toNat = 0 := by omega
    rw [hneg, pow_zero, one_div, neg_neg, Int.toNat_natCast, zpow_neg, zpow_natCast]

namespace BinaryFormat

/-! ## Rounding to integers -/

/-- A quotient is rounded to an integer that is at most a half away, and to the even one of two. -/
theorem roundHalfEven_eq {num den m : Nat} (hden : 0 < den)
    (hlow : 2 * m * den ≤ 2 * num + den) (hhigh : 2 * num ≤ 2 * m * den + den)
    (hlow' : 2 * m * den = 2 * num + den → m % 2 = 0)
    (hhigh' : 2 * num = 2 * m * den + den → m % 2 = 0) : roundHalfEven num den = m := by
  have hdiv := Nat.div_add_mod num den
  have hlt := Nat.mod_lt num hden
  rw [roundHalfEven]
  generalize num / den = q at *
  generalize num % den = r at *
  have hnear : m = q ∨ m = q + 1 := by
    by_contra hfar
    rcases Nat.lt_or_ge m q with hmq | hmq
    · have := Nat.mul_le_mul_left den (Nat.succ_le_of_lt hmq)
      nlinarith
    · have := Nat.mul_le_mul_left den (show q + 2 ≤ m by omega)
      nlinarith
  rcases hnear with rfl | rfl
  · have hr : 2 * r ≤ den := by nlinarith
    split
    · rfl
    · have heq : 2 * r = den := by omega
      rw [if_neg (by omega), hhigh' (by nlinarith), Nat.add_zero]
  · have hr : den ≤ 2 * r := by nlinarith
    rw [if_neg (by omega)]
    split
    · rfl
    · have heq : 2 * r = den := by omega
      have := hlow' (by nlinarith)
      omega

/-- The same, of a quotient that is given by its value. -/
theorem roundHalfEven_of_mem {num den m : Nat} {y : ℚ} (hden : 0 < den) (hy : (num : ℚ) / den = y)
    (hlow : m - 1 / 2 ≤ y) (hhigh : y ≤ m + 1 / 2)
    (heven : y = m - 1 / 2 ∨ y = m + 1 / 2 → m % 2 = 0) : roundHalfEven num den = m := by
  have hpos : (0 : ℚ) < den := Nat.cast_pos.2 hden
  have hnum : (num : ℚ) = y * den := (div_eq_iff hpos.ne').1 hy
  refine roundHalfEven_eq hden ?_ ?_ (fun h => heven (.inl ?_)) (fun h => heven (.inr ?_))
  · have : (2 * m * den : ℚ) ≤ 2 * num + den := by
      rw [hnum]
      nlinarith
    exact_mod_cast this
  · have : (2 * num : ℚ) ≤ 2 * m * den + den := by
      rw [hnum]
      nlinarith
    exact_mod_cast this
  · have h : (2 * m * den : ℚ) = 2 * num + den := by exact_mod_cast h
    rw [hnum] at h
    have : (2 * m - (2 * y + 1)) * den = 0 := by linarith
    have := (mul_eq_zero.1 this).resolve_right hpos.ne'
    linarith
  · have h : (2 * num : ℚ) = 2 * m * den + den := by exact_mod_cast h
    rw [hnum] at h
    have : (2 * y - (2 * m + 1)) * den = 0 := by linarith
    have := (mul_eq_zero.1 this).resolve_right hpos.ne'
    linarith

/-! ## The binade of a quotient -/

/-- The exponent of the greatest power of two that is not above a quotient. -/
def binade (num den : Nat) : Int :=
  let estimate : Int := (num.log2 : Int) - den.log2
  if num * Nat.pow 2 (-estimate).toNat < den * Nat.pow 2 estimate.toNat then estimate - 1
  else estimate

theorem nearest_eq (f : BinaryFormat) (num den : Nat) :
    f.nearest num den
      = let q := max f.leastExponent (binade num den - f.fractionBits)
        (q - f.leastExponent).toNat * Nat.pow 2 f.fractionBits
          + roundHalfEven (num * Nat.pow 2 (-q).toNat) (den * Nat.pow 2 q.toNat) := rfl

/-- A quotient is compared with a power of two without a division. -/
theorem mul_pow_lt_iff {num den : Nat} (hden : 0 < den) (i : Int) :
    num * Nat.pow 2 (-i).toNat < den * Nat.pow 2 i.toNat ↔ (num : ℚ) / den < 2 ^ i := by
  have hdenpos : (0 : ℚ) < den := Nat.cast_pos.2 hden
  rw [zpow_eq_div_pow, div_lt_div_iff₀ hdenpos (by positivity), ← Nat.cast_lt (α := ℚ),
    mul_comm (2 ^ i.toNat : ℚ)]
  simp only [Nat.pow_eq, Nat.cast_mul, Nat.cast_pow, Nat.cast_ofNat]

theorem log2_bounds {n : Nat} (h : 0 < n) :
    (2 : ℚ) ^ (n.log2 : ℤ) ≤ n ∧ (n : ℚ) < 2 ^ ((n.log2 : ℤ) + 1) := by
  have hlow := Nat.log2_self_le (Nat.pos_iff_ne_zero.1 h)
  have hhigh := @Nat.lt_log2_self n
  constructor
  · rw [zpow_natCast]
    exact_mod_cast hlow
  · rw [← Nat.cast_succ, zpow_natCast]
    exact_mod_cast hhigh

/-- The quotient lies in its binade. -/
theorem binade_spec {num den : Nat} (hnum : 0 < num) (hden : 0 < den) :
    (2 : ℚ) ^ binade num den ≤ num / den ∧ (num : ℚ) / den < 2 ^ (binade num den + 1) := by
  have hdenpos : (0 : ℚ) < den := Nat.cast_pos.2 hden
  obtain ⟨hnumlow, hnumhigh⟩ := log2_bounds hnum
  obtain ⟨hdenlow, hdenhigh⟩ := log2_bounds hden
  have hlow : (2 : ℚ) ^ ((num.log2 : ℤ) - den.log2 - 1) ≤ num / den := by
    rw [le_div_iff₀ hdenpos]
    calc (2 : ℚ) ^ ((num.log2 : ℤ) - den.log2 - 1) * den
        ≤ 2 ^ ((num.log2 : ℤ) - den.log2 - 1) * 2 ^ ((den.log2 : ℤ) + 1) := by gcongr
      _ = 2 ^ (num.log2 : ℤ) := by rw [← zpow_add₀ (by norm_num)]; congr 1; ring
      _ ≤ num := hnumlow
  have hhigh : (num : ℚ) / den < 2 ^ ((num.log2 : ℤ) - den.log2 + 1) := by
    rw [div_lt_iff₀ hdenpos]
    calc (num : ℚ) < 2 ^ ((num.log2 : ℤ) + 1) := hnumhigh
      _ = 2 ^ ((num.log2 : ℤ) - den.log2 + 1) * 2 ^ (den.log2 : ℤ) := by
        rw [← zpow_add₀ (by norm_num)]
        congr 1
        ring
      _ ≤ 2 ^ ((num.log2 : ℤ) - den.log2 + 1) * den := by gcongr
  rw [binade]
  simp only [mul_pow_lt_iff hden]
  split
  · next hsmall => exact ⟨hlow, by rwa [sub_add_cancel]⟩
  · next hlarge => exact ⟨not_lt.1 hlarge, hhigh⟩

/-! ## The number of a magnitude -/

/-- The parts of a magnitude: its number is that of its exponent and its integer, and the integer
has all its bits above the least exponent. -/
structure IsMagnitude (f : BinaryFormat) (magnitude m : Nat) (q : Int) : Prop where
  number : magnitude = (q - f.leastExponent).toNat * Nat.pow 2 f.fractionBits + m
  least_le : f.leastExponent ≤ q
  lt : m < 2 * Nat.pow 2 f.fractionBits
  le : f.leastExponent < q → Nat.pow 2 f.fractionBits ≤ m
  pos : 0 < magnitude → 0 < m

theorem isMagnitude_decode (f : BinaryFormat) (magnitude : Nat) :
    f.IsMagnitude magnitude (f.decode magnitude).1 (f.decode magnitude).2 := by
  have hpow : 0 < Nat.pow 2 f.fractionBits := Nat.two_pow_pos _
  have hdiv := Nat.div_add_mod magnitude (Nat.pow 2 f.fractionBits)
  have hmod := Nat.mod_lt magnitude hpow
  rw [decode]
  generalize magnitude / Nat.pow 2 f.fractionBits = e at *
  generalize magnitude % Nat.pow 2 f.fractionBits = m at *
  split
  · next hzero =>
    subst hzero
    refine ⟨?_, le_rfl, by omega, fun h => absurd h (lt_irrefl _), by omega⟩
    simp only [sub_self, Int.toNat_zero]
    omega
  · next hne =>
    have hexp : (f.leastExponent + (e : Int) - 1 - f.leastExponent).toNat + 1 = e := by omega
    refine ⟨?_, by omega, by omega, fun _ => Nat.le_add_right _ _, fun _ => by omega⟩
    simp only
    nlinarith

end BinaryFormat

/-! ## Intervals -/

namespace Shortest

/-- A number lies in an interval. -/
def Interval.Mem (i : Interval) (x : ℚ) : Prop :=
  (i.low * 2 ^ i.exponent < x ∨ i.closed = true ∧ i.low * 2 ^ i.exponent = x)
    ∧ (x < i.high * 2 ^ i.exponent ∨ i.closed = true ∧ x = i.high * 2 ^ i.exponent)

/-- Where the numbers of an interval lie, in units of the last bit of its magnitude. -/
structure Near (f : BinaryFormat) (m : Nat) (q : Int) (y : ℚ) : Prop where
  low : m - 1 / 2 ≤ y
  /-- Just above a power of two the interval is narrower. -/
  narrow : m = Nat.pow 2 f.fractionBits → f.leastExponent < q → m - 1 / 4 ≤ y
  high : y ≤ m + 1 / 2
  /-- Only even magnitudes have the ends. -/
  tie : y = m - 1 / 2 ∨ y = m + 1 / 2 → m % 2 = 0

theorem Interval.Mem.near {f : BinaryFormat} {magnitude : Nat} {x : ℚ} (hpos : 0 < magnitude)
    (h : (Interval.of f magnitude).Mem x) :
    Near f (f.decode magnitude).1 (f.decode magnitude).2 (x / 2 ^ (f.decode magnitude).2) := by
  have hm := (f.isMagnitude_decode magnitude).pos hpos
  rw [Interval.of] at h
  generalize f.decode magnitude = parts at *
  obtain ⟨m, q⟩ := parts
  -- Everything in units of the last bit.
  have hquarter : (2 : ℚ) ^ (q - 2) = 2 ^ q / 4 := by
    rw [zpow_sub₀ (by norm_num)]
    norm_num
  have hscale : ∀ n : Nat, (n : ℚ) * 2 ^ (q - 2) = n / 4 * 2 ^ q := fun n => by
    rw [hquarter]
    ring
  have hunit : (0 : ℚ) < 2 ^ q := by positivity
  obtain ⟨y, rfl⟩ : ∃ y, x = y * 2 ^ q := ⟨x / 2 ^ q, (div_mul_cancel₀ _ hunit.ne').symm⟩
  simp only [Interval.Mem, hscale, mul_lt_mul_iff_of_pos_right hunit, mul_left_inj' hunit.ne',
    beq_iff_eq] at h ⊢
  rw [mul_div_cancel_right₀ _ hunit.ne']
  have htwo : ((4 * m - 2 : ℕ) : ℚ) = 4 * m - 2 := by
    rw [Nat.cast_sub (by omega)]
    norm_num
  have hone : ((4 * m - 1 : ℕ) : ℚ) = 4 * m - 1 := by
    rw [Nat.cast_sub (by omega)]
    norm_num
  have htop : ((4 * m + 2 : ℕ) : ℚ) = 4 * m + 2 := by norm_num
  obtain ⟨hlow, hhigh⟩ := h
  rw [htop] at hhigh
  have hle : y ≤ m + 1 / 2 := by rcases hhigh with hhigh | ⟨_, hhigh⟩ <;> linarith
  have htie : y = m + 1 / 2 → m % 2 = 0 := by
    intro heq
    rcases hhigh with hhigh | ⟨heven, _⟩
    · linarith
    · exact heven
  by_cases hnarrow : m = Nat.pow 2 f.fractionBits ∧ f.leastExponent < q
  · rw [if_pos hnarrow, hone] at hlow
    have hge : m - 1 / 4 ≤ y := by rcases hlow with hlow | ⟨_, hlow⟩ <;> linarith
    refine ⟨by linarith, fun _ _ => hge, hle, fun h => h.elim (fun heq => ?_) htie⟩
    linarith
  · rw [if_neg hnarrow, htwo] at hlow
    have hge : m - 1 / 2 ≤ y := by rcases hlow with hlow | ⟨_, hlow⟩ <;> linarith
    refine ⟨hge, fun hm hq => absurd ⟨hm, hq⟩ hnarrow, hle, fun h => h.elim (fun heq => ?_) htie⟩
    rcases hlow with hlow | ⟨heven, _⟩
    · linarith
    · exact heven

/-- The least integer of a magnitude above the least exponent, as a power of two. -/
theorem two_zpow_add (f : BinaryFormat) (q i : Int) :
    (2 : ℚ) ^ (q + f.fractionBits + i) = (Nat.pow 2 f.fractionBits : ℕ) * 2 ^ i * 2 ^ q := by
  rw [zpow_add₀ (by norm_num), zpow_add₀ (by norm_num), zpow_natCast]
  push_cast [Nat.pow_eq]
  ring

theorem lt_of_two_zpow_lt {i j : Int} : (2 : ℚ) ^ i < 2 ^ j → i < j :=
  (zpow_lt_zpow_iff_right₀ (by norm_num)).1

variable {f : BinaryFormat} {m : Nat} {q b : Int} {y : ℚ}

/-- The unit of a number near a magnitude is not greater than that of the magnitude. -/
theorem Near.unit_le (h : Near f m q y) (hlt : m < 2 * Nat.pow 2 f.fractionBits)
    (hlow : (2 : ℚ) ^ b ≤ y * 2 ^ q) : b - f.fractionBits ≤ q := by
  have hunit : (0 : ℚ) < 2 ^ q := by positivity
  have hm : (m : ℚ) + 1 ≤ 2 * (Nat.pow 2 f.fractionBits : ℕ) := by exact_mod_cast hlt
  have hbelow : y * 2 ^ q < 2 ^ (q + f.fractionBits + 1) := by
    rw [two_zpow_add, zpow_one]
    have := h.high
    exact mul_lt_mul_of_pos_right (by linarith) hunit
  have := lt_of_two_zpow_lt (hlow.trans_lt hbelow)
  omega

/-- It is smaller only just below a power of two, and then it is the next smaller one. -/
theorem Near.unit_eq (h : Near f m q y) (hleast : f.leastExponent < q)
    (hle : Nat.pow 2 f.fractionBits ≤ m) (hless : b - f.fractionBits < q)
    (hhigh : y * 2 ^ q < 2 ^ (b + 1)) :
    m = Nat.pow 2 f.fractionBits ∧ b - f.fractionBits = q - 1 ∧ y < m := by
  have hunit : (0 : ℚ) < 2 ^ q := by positivity
  have hy : y < (Nat.pow 2 f.fractionBits : ℕ) := by
    have hle : (2 : ℚ) ^ (b + 1) ≤ 2 ^ (q + f.fractionBits + 0) :=
      zpow_le_zpow_right₀ (by norm_num) (by omega)
    rw [two_zpow_add, zpow_zero, mul_one] at hle
    exact lt_of_mul_lt_mul_right (hhigh.trans_le hle) hunit.le
  have hm : m = Nat.pow 2 f.fractionBits := by
    refine le_antisymm (Nat.lt_succ_iff.1 ?_) hle
    have hlow := h.low
    have : (m : ℚ) < (Nat.pow 2 f.fractionBits + 1 : ℕ) := by
      rw [Nat.cast_succ]
      linarith
    exact_mod_cast this
  refine ⟨hm, ?_, hm ▸ hy⟩
  have hone : (1 : ℚ) ≤ (Nat.pow 2 f.fractionBits : ℕ) := by
    exact_mod_cast Nat.one_le_two_pow
  have hx : (2 : ℚ) ^ (q + f.fractionBits + -1) ≤ y * 2 ^ q := by
    have hnarrow := h.narrow hm hleast
    rw [hm] at hnarrow
    rw [two_zpow_add, zpow_neg_one]
    exact mul_le_mul_of_nonneg_right (by linarith) hunit.le
  have := lt_of_two_zpow_lt (hx.trans_lt hhigh)
  omega

end Shortest

namespace BinaryFormat

variable {f : BinaryFormat}

/-- A quotient that is divided by a power of two. -/
theorem scaled_div (num den : Nat) (q : Int) :
    ((num * Nat.pow 2 (-q).toNat : Nat) : ℚ) / (den * Nat.pow 2 q.toNat : Nat)
      = num / den / 2 ^ q := by
  rw [zpow_eq_div_pow]
  simp only [Nat.pow_eq, Nat.cast_mul, Nat.cast_pow, Nat.cast_ofNat]
  rw [div_div_eq_mul_div, div_mul_eq_mul_div, div_div]

/-- A quotient that is near a magnitude is rounded to it. -/
theorem nearest_eq_of_near {magnitude m num den : Nat} {q : Int} (hden : 0 < den) (hnum : 0 < num)
    (hparts : f.IsMagnitude magnitude m q)
    (hnear : Shortest.Near f m q ((num : ℚ) / den / 2 ^ q)) : f.nearest num den = magnitude := by
  obtain ⟨hlow, hhigh⟩ := binade_spec hnum hden
  have hround : ∀ {n : Nat} {i : Int} {y : ℚ}, (num : ℚ) / den / 2 ^ i = y → (n : ℚ) - 1 / 2 ≤ y →
      y ≤ n + 1 / 2 → (y = n - 1 / 2 ∨ y = n + 1 / 2 → n % 2 = 0) →
      roundHalfEven (num * Nat.pow 2 (-i).toNat) (den * Nat.pow 2 i.toNat) = n :=
    fun hy => roundHalfEven_of_mem (Nat.mul_pos hden (Nat.two_pow_pos _))
      ((scaled_div num den _).trans hy)
  rw [nearest_eq]
  simp only
  generalize binade num den = b at *
  generalize (num : ℚ) / den = x at *
  have hunit : (0 : ℚ) < 2 ^ q := by positivity
  obtain ⟨y, rfl⟩ : ∃ y, x = y * 2 ^ q := ⟨x / 2 ^ q, (div_mul_cancel₀ _ hunit.ne').symm⟩
  rw [mul_div_cancel_right₀ _ hunit.ne'] at hnear
  rcases (max_le hparts.least_le (hnear.unit_le hparts.lt hlow)).eq_or_lt with heq | hless
  · rw [heq, hround (mul_div_cancel_right₀ _ hunit.ne') hnear.low hnear.high hnear.tie]
    exact hparts.number.symm
  · obtain ⟨hleast, hbq⟩ := max_lt_iff.1 hless
    obtain ⟨hm, hb, hy⟩ := hnear.unit_eq hleast (hparts.le hleast) hbq hhigh
    have hq : max f.leastExponent (b - f.fractionBits) = q - 1 := by omega
    -- In the smaller unit the magnitude is twice the integer, with a half to both sides.
    have htwice : y * 2 ^ q / 2 ^ (q - 1) = 2 * y := by
      rw [zpow_sub_one₀ (by norm_num)]
      field_simp
    have hcast : ((2 * m : ℕ) : ℚ) = 2 * m := by norm_num
    have hnarrow := hnear.narrow hm hleast
    rw [hq, hround (n := 2 * m) htwice (by rw [hcast]; linarith) (by rw [hcast]; linarith)
      (fun _ => Nat.mul_mod_right 2 m), hparts.number, hm]
    have hstep : (q - f.leastExponent).toNat = (q - 1 - f.leastExponent).toNat + 1 := by omega
    rw [hstep]
    ring

/-- A quotient in the interval of a magnitude is rounded to that magnitude. -/
theorem nearest_eq_of_mem {magnitude num den : Nat} (hpos : 0 < magnitude) (hden : 0 < den)
    (hnum : 0 < num) (h : (Shortest.Interval.of f magnitude).Mem ((num : ℚ) / den)) :
    f.nearest num den = magnitude :=
  nearest_eq_of_near hden hnum (f.isMagnitude_decode magnitude) (h.near hpos)

end BinaryFormat

end RdfIndex
