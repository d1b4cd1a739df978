import DataAccess.Numeric.Binary64.Rounding
import DataAccess.Proofs.Value.Numbers
import Mathlib.Algebra.Order.Field.Basic
import Mathlib.Data.Rat.Cast.Order
import Mathlib.Tactic.FieldSimp
import Mathlib.Tactic.Linarith
import Mathlib.Tactic.NormNum
import Mathlib.Tactic.Positivity
import Mathlib.Tactic.Ring

/-!
How far the nearest size is from a ratio: half the gap between neighbours, which for all but the
least sizes is no more than the 53rd part of a bit of the ratio. What a size denotes is found again.
-/
namespace DataAccess

/-- Whole numbers less than one apart are the same. -/
theorem eq_of_lt_add_one {m n : Nat} (below : (m : ℚ) < n + 1) (above : (n : ℚ) < m + 1) :
    m = n := by
  have below : m < n + 1 := by exact_mod_cast below
  have above : n < m + 1 := by exact_mod_cast above
  omega

section

variable {num den : Nat}

/-- The nearest integer is off by a half at most. -/
theorem roundHalfEven_bounds (num : Nat) (h : 0 < den) :
    2 * num ≤ 2 * (den * roundHalfEven num den) + den ∧
      2 * (den * roundHalfEven num den) ≤ 2 * num + den := by
  have parts := Nat.div_add_mod num den
  have below := Nat.mod_lt num h
  have next : den * (num / den + 1) = den * (num / den) + den := Nat.mul_succ _ _
  unfold roundHalfEven
  dsimp only
  split
  · omega
  · split
    · rw [next]
      omega
    · split
      · omega
      · rw [next]
        omega

theorem le_roundHalfEven : num / den ≤ roundHalfEven num den := by
  unfold roundHalfEven
  dsimp only
  split
  · exact Nat.le_refl _
  · split
    · exact Nat.le_succ _
    · split
      · exact Nat.le_refl _
      · exact Nat.le_succ _

theorem roundHalfEven_le : roundHalfEven num den ≤ num / den + 1 := by
  unfold roundHalfEven
  dsimp only
  split
  · exact Nat.le_succ _
  · split
    · exact Nat.le_refl _
    · split
      · exact Nat.le_succ _
      · exact Nat.le_refl _

/-- Ratios are rounded as they are in their least terms. -/
theorem roundHalfEven_scaled (num den : Nat) {k : Nat} (hk : 0 < k) :
    roundHalfEven (num * k) (den * k) = roundHalfEven num den := by
  simp only [roundHalfEven, Nat.mul_div_mul_right _ _ hk, Nat.mul_mod_mul_right, ← Nat.mul_assoc,
    Nat.mul_lt_mul_right hk]

theorem roundHalfEven_mul (n : Nat) (h : 0 < den) : roundHalfEven (den * n) den = n := by
  simp [roundHalfEven, Nat.mul_div_cancel_left n h, h]

end

namespace Magnitude

open Binary64 (one)

/-- The number that a size is. -/
def value (a : Magnitude) : ℚ := a.steps / one

theorem one_pos_rat : (0 : ℚ) < one := Nat.cast_pos.mpr Binary64.one_pos

section

variable (num den : Nat)

/-- The bits that are dropped around a ratio. -/
def dropped : Nat := (num * one / den).log2 - 52

variable {num den}

theorem lt_dropped (hden : 0 < den) : num * one / (den * 2 ^ dropped num den) < 2 ^ 53 := by
  have fits : num * one / den < 2 ^ (dropped num den + 53) :=
    Nat.lt_of_lt_of_le Nat.lt_log2_self
      (Nat.pow_le_pow_right (by decide) (by unfold dropped; omega))
  rw [Nat.div_lt_iff_lt_mul hden] at fits
  rw [Nat.div_lt_iff_lt_mul (Nat.mul_pos hden (Nat.two_pow_pos _))]
  calc num * one < 2 ^ (dropped num den + 53) * den := fits
    _ = 2 ^ 53 * (den * 2 ^ dropped num den) := by rw [Nat.pow_add]; ring

theorem dropped_mul_le (normal : 2 ^ 52 ≤ num * one / den) :
    2 ^ dropped num den * 2 ^ 52 ≤ num * one / den := by
  have bits : 52 ≤ (num * one / den).log2 :=
    (Nat.le_log2 (by have := Nat.two_pow_pos 52; omega)).mpr normal
  have whole : 2 ^ dropped num den * 2 ^ 52 = 2 ^ (num * one / den).log2 := by
    rw [← Nat.pow_add, dropped, Nat.sub_add_cancel bits]
  rw [whole]
  exact Nat.log2_self_le (by have := Nat.two_pow_pos 52; omega)

theorem le_dropped (some_dropped : dropped num den ≠ 0) :
    2 ^ 52 ≤ num * one / (den * 2 ^ dropped num den) := by
  have bits : 52 < (num * one / den).log2 := by
    unfold dropped at some_dropped
    omega
  have large : num * one / den ≠ 0 := by
    intro h
    rw [h, Nat.log2_zero] at bits
    omega
  have normal : 2 ^ 52 ≤ num * one / den := (Nat.le_log2 large).mp (Nat.le_of_lt bits)
  rw [← Nat.div_div_eq_div_mul, Nat.le_div_iff_mul_le (Nat.two_pow_pos _), Nat.mul_comm]
  exact dropped_mul_le normal

/-- The exponent behind a name, so that the power is not computed. -/
theorem one_pow : ∃ e, e = 1074 ∧ one = 2 ^ e := by
  obtain ⟨e, he⟩ : ∃ e, e = 1074 := ⟨_, rfl⟩
  refine ⟨e, he, ?_⟩
  unfold one
  simp only [← he]
  rfl

theorem dropped_le (small : num ≤ den * 2 ^ 128) : dropped num den ≤ 1150 := by
  obtain ⟨e, he, hone⟩ := one_pow
  have ratio : num * one / den ≤ 2 ^ 128 * one := by
    refine Nat.div_le_of_le_mul ?_
    rw [← Nat.mul_assoc]
    exact Nat.mul_le_mul_right _ small
  have bound : num * one / den < 2 ^ (128 + e + 1) := by
    rw [hone, ← Nat.pow_add, ← hone] at ratio
    exact Nat.lt_of_le_of_lt ratio (Nat.pow_lt_pow_right (by decide) (Nat.lt_succ_self _))
  unfold dropped
  by_cases zero : num * one / den = 0
  · rw [zero, Nat.log2_zero]
    exact Nat.zero_le _
  · have := (Nat.log2_lt zero).mpr bound
    omega

/-- Of a ratio of no more than 128 bits the nearest size is a rounded number of gaps. -/
theorem nearest?_steps (hden : 0 < den) (small : num ≤ den * 2 ^ 128) :
    ∃ a, nearest? num den = some a ∧ a.steps =
      roundHalfEven (num * one) (den * 2 ^ dropped num den) * 2 ^ dropped num den := by
  have room : dropped num den + 1 ≤ 2045 :=
    Nat.le_trans (Nat.succ_le_succ (dropped_le small)) (by decide)
  have below : num * one / (den * 2 ^ dropped num den) < 2 ^ 53 := lt_dropped hden
  have near_below : roundHalfEven (num * one) (den * 2 ^ dropped num den) ≤
      num * one / (den * 2 ^ dropped num den) + 1 := roundHalfEven_le
  by_cases carry : roundHalfEven (num * one) (den * 2 ^ dropped num den) = 2 ^ 53
  · refine ⟨⟨2 ^ 52, dropped num den + 1, by decide, room, .inl (Nat.le_refl _)⟩, ?_, ?_⟩
    · exact (if_pos carry).trans (dif_pos ⟨by decide, room, .inl (Nat.le_refl _)⟩)
    · rw [carry]
      change 2 ^ 52 * 2 ^ (dropped num den + 1) = _
      ring
  · have less : roundHalfEven (num * one) (den * 2 ^ dropped num den) < Nat.pow 2 53 :=
      Nat.lt_of_le_of_ne (Nat.le_trans near_below below) carry
    have leading : Nat.pow 2 52 ≤ roundHalfEven (num * one) (den * 2 ^ dropped num den) ∨
        dropped num den = 0 := by
      by_cases h : dropped num den = 0
      · exact .inr h
      · exact .inl (Nat.le_trans (le_dropped h) le_roundHalfEven)
    have fits : dropped num den ≤ 2045 := Nat.le_of_succ_le room
    refine ⟨⟨_, dropped num den, less, fits, leading⟩, ?_, rfl⟩
    exact (if_neg carry).trans (dif_pos ⟨less, fits, leading⟩)

theorem nearest?_near (hden : 0 < den) (small : num ≤ den * 2 ^ 128) :
    nearest? num den = some (near num den) := by
  obtain ⟨a, found, -⟩ := nearest?_steps hden small
  rw [near, found, Option.getD_some]

theorem near_steps (hden : 0 < den) (small : num ≤ den * 2 ^ 128) :
    (near num den).steps =
      roundHalfEven (num * one) (den * 2 ^ dropped num den) * 2 ^ dropped num den := by
  obtain ⟨a, found, steps⟩ := nearest?_steps hden small
  rw [near, found]
  exact steps

/-- The nearest size is off by half a gap at most. -/
theorem near_error (hden : 0 < den) (small : num ≤ den * 2 ^ 128) :
    |(near num den).value - num / den| ≤ 2 ^ dropped num den / (2 * one) := by
  have gap : 0 < den * 2 ^ dropped num den := Nat.mul_pos hden (Nat.two_pow_pos _)
  obtain ⟨low, high⟩ := roundHalfEven_bounds (num * one) gap
  have steps := near_steps hden small
  generalize roundHalfEven (num * one) (den * 2 ^ dropped num den) = r at low high steps
  generalize dropped num den = k at low high steps
  have low : (2 * (num * one) : ℚ) ≤ 2 * (den * 2 ^ k * r) + den * 2 ^ k := by exact_mod_cast low
  have high : (2 * (den * 2 ^ k * r) : ℚ) ≤ 2 * (num * one) + den * 2 ^ k := by exact_mod_cast high
  have hone := one_pos_rat
  have hd : (0 : ℚ) < den := Nat.cast_pos.mpr hden
  have value : (near num den).value = r * 2 ^ k / one := by
    rw [Magnitude.value, steps]
    push_cast
    rfl
  rw [value]
  generalize one = o at *
  have apart : r * 2 ^ k / o - num / den = ((den * 2 ^ k * r - num * o) / (den * o) : ℚ) := by
    field_simp
  have gaps : |(den * 2 ^ k * r - num * o : ℚ)| ≤ den * 2 ^ k / 2 :=
    abs_le.mpr ⟨by linarith, by linarith⟩
  rw [apart, abs_div, abs_of_pos (mul_pos hd hone)]
  calc |(den * 2 ^ k * r - num * o : ℚ)| / (den * o)
      ≤ den * 2 ^ k / 2 / (den * o) :=
        div_le_div_of_nonneg_right gaps (mul_pos hd hone).le
    _ = 2 ^ k / (2 * o) := by field_simp

/-- Where no bits need be dropped below the least, a gap is a small part of the ratio. -/
theorem gap_le (hden : 0 < den) (normal : den * 2 ^ 52 ≤ num * one) :
    (2 ^ dropped num den / one : ℚ) ≤ num / den / 2 ^ 52 := by
  rw [Nat.mul_comm den] at normal
  have whole := dropped_mul_le ((Nat.le_div_iff_mul_le hden).mpr normal)
  have scaled := (Nat.le_div_iff_mul_le hden).mp whole
  have scaled : (2 ^ dropped num den * 2 ^ 52 * den : ℚ) ≤ num * one := by exact_mod_cast scaled
  have hone := one_pos_rat
  have hd : (0 : ℚ) < den := Nat.cast_pos.mpr hden
  rw [div_div, div_le_div_iff₀ hone (by positivity)]
  linarith

theorem near_relative (hden : 0 < den) (small : num ≤ den * 2 ^ 128)
    (normal : den * 2 ^ 52 ≤ num * one) :
    |(near num den).value - num / den| ≤ num / den / 2 ^ 53 := by
  calc |(near num den).value - num / den|
      ≤ 2 ^ dropped num den / (2 * one) := near_error hden small
    _ = 2 ^ dropped num den / one / 2 := by ring
    _ ≤ num / den / 2 ^ 52 / 2 := div_le_div_of_nonneg_right (gap_le hden normal) (by norm_num)
    _ = num / den / 2 ^ 53 := by ring

/-- What a size denotes is its own nearest size. -/
theorem near_exact {k j : Nat} (hden : 0 < den) (small : num ≤ den * 2 ^ 128) (hk : k < 2 ^ 53)
    (exact : num * one = den * (k * 2 ^ j)) : (near num den).steps = k * 2 ^ j := by
  have ratio : num * one / den = k * 2 ^ j := by rw [exact, Nat.mul_div_cancel_left _ hden]
  have fine : dropped num den ≤ j := by
    have bound : k * 2 ^ j < 2 ^ (53 + j) := by
      rw [Nat.pow_add]
      exact Nat.mul_lt_mul_of_pos_right hk (Nat.two_pow_pos j)
    rw [dropped, ratio]
    by_cases zero : k * 2 ^ j = 0
    · rw [zero, Nat.log2_zero]
      exact Nat.zero_le _
    · have := (Nat.log2_lt zero).mpr bound
      omega
  obtain ⟨i, rfl⟩ := Nat.exists_eq_add_of_le fine
  have gaps : num * one = den * 2 ^ dropped num den * (k * 2 ^ i) := by
    rw [exact, Nat.pow_add]
    ring
  rw [near_steps hden small, gaps, roundHalfEven_mul _ (Nat.mul_pos hden (Nat.two_pow_pos _)),
    Nat.pow_add]
  ring

theorem near_value_exact {k j : Nat} (hden : 0 < den) (small : num ≤ den * 2 ^ 128)
    (hk : k < 2 ^ 53) (exact : num * one = den * (k * 2 ^ j)) :
    (near num den).value = num / den := by
  have hone := one_pos_rat
  have hd : (0 : ℚ) < den := Nat.cast_pos.mpr hden
  have exact' : (num * one : ℚ) = den * (k * 2 ^ j) := by exact_mod_cast exact
  rw [value, near_exact hden small hk exact, div_eq_div_iff hone.ne' hd.ne']
  push_cast
  rw [exact', mul_comm]

/-- Neither among the least sizes nor beyond the greatest. -/
def Moderate (x : ℚ) : Prop := 1 / 2 ^ 128 ≤ x ∧ x ≤ 2 ^ 128

theorem near_moderate (hden : 0 < den) (h : Moderate (num / den)) :
    |(near num den).value - num / den| ≤ num / den / 2 ^ 53 := by
  have hd : (0 : ℚ) < den := Nat.cast_pos.mpr hden
  obtain ⟨low, high⟩ := h
  have small : num ≤ den * 2 ^ 128 := by
    rw [div_le_iff₀ hd, mul_comm] at high
    exact_mod_cast high
  have normal : den * 2 ^ 52 ≤ num * one := by
    obtain ⟨e, he, hone⟩ := one_pow
    have bits : den ≤ num * 2 ^ 128 := by
      rw [div_le_div_iff₀ (by positivity) hd, one_mul] at low
      exact_mod_cast low
    have more : 2 ^ 128 * 2 ^ 52 ≤ one := by
      rw [hone, ← Nat.pow_add]
      exact Nat.pow_le_pow_right (by decide) (by omega)
    calc den * 2 ^ 52 ≤ num * 2 ^ 128 * 2 ^ 52 := Nat.mul_le_mul_right _ bits
      _ = num * (2 ^ 128 * 2 ^ 52) := Nat.mul_assoc _ _ _
      _ ≤ num * one := Nat.mul_le_mul_left _ more
  exact near_relative hden small normal

end

variable {a b : Magnitude}

theorem add_error (h : Moderate (a.value + b.value)) :
    |(a.add b).value - (a.value + b.value)| ≤ (a.value + b.value) / 2 ^ 53 := by
  have ratio : ((a.steps + b.steps : Nat) : ℚ) / (one : Nat) = a.value + b.value := by
    rw [value, value, ← add_div]
    push_cast
    rfl
  rw [← ratio] at h ⊢
  exact near_moderate Binary64.one_pos h

theorem mul_error (h : Moderate (a.value * b.value)) :
    |(a.mul b).value - a.value * b.value| ≤ a.value * b.value / 2 ^ 53 := by
  have ratio : ((a.steps * b.steps : Nat) : ℚ) / (one * one : Nat) = a.value * b.value := by
    rw [value, value, div_mul_div_comm]
    push_cast
    rfl
  rw [← ratio] at h ⊢
  exact near_moderate (Nat.mul_pos Binary64.one_pos Binary64.one_pos) h

theorem div_ratio (a b : Magnitude) : (a.steps : ℚ) / b.steps = a.value / b.value := by
  rw [value, value, div_div_div_cancel_right₀ one_pos_rat.ne']

theorem steps_pos (h : 0 < a.value) : 0 < a.steps := by
  rw [value, div_pos_iff_of_pos_right one_pos_rat] at h
  exact_mod_cast h

theorem div_error (hb : 0 < b.value) (h : Moderate (a.value / b.value)) :
    |(a.div b).value - a.value / b.value| ≤ a.value / b.value / 2 ^ 53 := by
  rw [← div_ratio] at h ⊢
  exact near_moderate (steps_pos hb) h

/-- A whole number of 53 bits, zeros behind them aside, is a size. -/
theorem value_ofNat {k i : Nat} (hk : k < 2 ^ 53) (small : k * 2 ^ i ≤ 2 ^ 128) :
    (ofNat (k * 2 ^ i)).value = (k * 2 ^ i : Nat) := by
  obtain ⟨e, he, hone⟩ := one_pow
  have exact : k * 2 ^ i * one = 1 * (k * 2 ^ (i + e)) := by
    rw [hone, Nat.pow_add]
    ring
  have value := near_value_exact Nat.one_pos (by rw [Nat.one_mul]; exact small) hk exact
  rw [Nat.cast_one, div_one] at value
  exact value

theorem value_ofNat_short {n : Nat} (h : n < 2 ^ 53) : (ofNat n).value = n := by
  have short : n * 2 ^ 0 ≤ 2 ^ 128 := by omega
  simpa using value_ofNat (i := 0) h short

theorem round_error (a : Magnitude) : ∃ r : Nat, a.round = ofNat r ∧
    a.value - 1 / 2 < r ∧ (r : ℚ) ≤ a.value + 1 / 2 := by
  have hone := one_pos_rat
  have double : 0 < 2 * one := Nat.mul_pos (by decide) Binary64.one_pos
  have steps : a.value * one = a.steps := div_mul_cancel₀ _ hone.ne'
  refine ⟨_, rfl, ?_, ?_⟩
  · have above := Nat.lt_mul_div_succ (2 * a.steps + one) double
    have above : (2 * a.steps + one : ℚ) <
        2 * one * ((2 * a.steps + one) / (2 * one) + 1 : Nat) := by exact_mod_cast above
    refine lt_of_mul_lt_mul_right ?_ hone.le
    push_cast at above ⊢
    linarith
  · have below := Nat.mul_div_le (2 * a.steps + one) (2 * one)
    have below : (2 * one * ((2 * a.steps + one) / (2 * one) : Nat) : ℚ) ≤ 2 * a.steps + one := by
      exact_mod_cast below
    refine le_of_mul_le_mul_right ?_ hone
    linarith

/-- A size within a half of a whole number is rounded to it. -/
theorem round_eq {n : Nat} (h : |a.value - n| < 1 / 2) : a.round = ofNat n := by
  obtain ⟨low, high⟩ := abs_lt.mp h
  obtain ⟨r, rounded, above, below⟩ := a.round_error
  rw [rounded, eq_of_lt_add_one (m := r) (n := n) (by linarith) (by linarith)]

theorem near_zero (den : Nat) : (near 0 den).mantissa = 0 := by
  have zero (d : Nat) : roundHalfEven 0 d = 0 := by
    rw [roundHalfEven, Nat.zero_div, Nat.zero_mod, Nat.mul_zero, if_neg (Nat.not_lt_zero d)]
    exact ite_self 0
  have found : nearest? 0 den = some ⟨0, 0, by decide, by decide, .inr rfl⟩ := by
    simp only [nearest?, Nat.zero_mul, Nat.zero_div, zero, Nat.log2_zero]
    rfl
  rw [near, found]
  rfl

theorem steps_of_value {n : Nat} (h : a.value = n) : a.steps = n * one := by
  rw [value, div_eq_iff one_pos_rat.ne'] at h
  exact_mod_cast h

/-- Terms with a common factor have the same nearest size. -/
theorem near_scaled {k : Nat} (hk : 0 < k) (num den : Nat) :
    near (num * k) (den * k) = near num den := by
  have ratio : num * k * one / (den * k) = num * one / den := by
    rw [Nat.mul_right_comm, Nat.mul_div_mul_right _ _ hk]
  have rounded (t : Nat) : roundHalfEven (num * k * one) (den * k * t) =
      roundHalfEven (num * one) (den * t) := by
    rw [Nat.mul_right_comm num, Nat.mul_right_comm den, roundHalfEven_scaled _ _ hk]
  simp only [near, nearest?, ratio, rounded]

/-- Terms of one ratio have the same nearest size. -/
theorem near_congr {num den num' den' : Nat} (hden : 0 < den) (hden' : 0 < den')
    (ratio : num * den' = num' * den) : near num den = near num' den' := by
  calc near num den = near (num * den') (den * den') := (near_scaled hden' num den).symm
    _ = near (num' * den) (den' * den) := by rw [ratio, Nat.mul_comm den]
    _ = near num' den' := near_scaled hden num' den'

theorem steps_eq_zero (h : a.mantissa = 0) : a.steps = 0 := by rw [steps, h, Nat.zero_mul]

theorem mantissa_ne_zero (h : 0 < a.value) : a.mantissa ≠ 0 := fun zero =>
  absurd (steps_pos h) (by rw [steps_eq_zero zero]; exact Nat.lt_irrefl 0)

end Magnitude
end DataAccess
