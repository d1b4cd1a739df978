import DataAccess.Proofs.Numeric.Nearest

/-!
Numbers that are close in proportion, as roundings leave them: closeness is carried through sums,
products and quotients, and from one rounding to the next.
-/
namespace DataAccess.Magnitude

/-- Off in proportion by no more than so many 53rd parts of a bit. -/
def Close (n : Nat) (x y : ℚ) : Prop := ∃ t : ℚ, |t| ≤ n / 2 ^ 53 ∧ x = y * (1 + t)

namespace Close

variable {x y z u v : ℚ} {m n k : Nat}

theorem of_error (hy : 0 ≤ y) (h : |x - y| ≤ y * (n / 2 ^ 53)) : Close n x y := by
  by_cases zero : y = 0
  · rw [zero, sub_zero, zero_mul] at h
    refine ⟨0, by positivity, ?_⟩
    rw [abs_eq_zero.mp (le_antisymm h (abs_nonneg x)), zero, zero_mul]
  · have pos : 0 < y := lt_of_le_of_ne hy (Ne.symm zero)
    refine ⟨(x - y) / y, ?_, by field_simp; ring⟩
    rw [abs_div, abs_of_pos pos, div_le_iff₀ pos, mul_comm]
    exact h

theorem error (hy : 0 ≤ y) (h : Close n x y) : |x - y| ≤ y * (n / 2 ^ 53) := by
  obtain ⟨t, ht, rfl⟩ := h
  have apart : y * (1 + t) - y = y * t := by ring
  rw [apart, abs_mul, abs_of_nonneg hy]
  exact mul_le_mul_of_nonneg_left ht hy

theorem mono (h : Close m x y) (hmn : m ≤ n) : Close n x y := by
  obtain ⟨t, ht, rfl⟩ := h
  have more : (m : ℚ) ≤ n := by exact_mod_cast hmn
  exact ⟨t, le_trans ht (div_le_div_of_nonneg_right more (by norm_num)), rfl⟩

theorem bounds (hn : n ≤ 64) (hy : 0 ≤ y) (h : Close n x y) :
    y * (99 / 100) ≤ x ∧ x ≤ y * (101 / 100) := by
  obtain ⟨low, high⟩ := abs_le.mp (h.error hy)
  have few : (n : ℚ) ≤ 64 := by exact_mod_cast hn
  have := mul_le_mul_of_nonneg_left few hy
  constructor <;> linarith

/-- Two factors next to one make a third. -/
theorem factors {s t : ℚ} (hm : m ≤ 64) (hn : n ≤ 64) (hk : m + n < k) (hs : |s| ≤ m / 2 ^ 53)
    (ht : |t| ≤ n / 2 ^ 53) : ∃ r : ℚ, |r| ≤ k / 2 ^ 53 ∧ (1 + s) * (1 + t) = 1 + r := by
  have fewm : (m : ℚ) ≤ 64 := by exact_mod_cast hm
  have fewn : (n : ℚ) ≤ 64 := by exact_mod_cast hn
  have more : (m + n + 1 : ℚ) ≤ k := by exact_mod_cast hk
  refine ⟨s + t + s * t, ?_, by ring⟩
  have product : |s * t| ≤ 64 / 2 ^ 53 * (64 / 2 ^ 53) := by
    rw [abs_mul]
    exact mul_le_mul (le_trans hs (by linarith)) (le_trans ht (by linarith)) (abs_nonneg t)
      (by norm_num)
  calc |s + t + s * t| ≤ |s| + |t| + |s * t| := abs_add_three s t (s * t)
    _ ≤ k / 2 ^ 53 := by linarith

theorem trans (hm : m ≤ 64) (hn : n ≤ 64) (hk : m + n < k) (h : Close m x y) (h' : Close n y z) :
    Close k x z := by
  obtain ⟨s, hs, rfl⟩ := h
  obtain ⟨t, ht, rfl⟩ := h'
  obtain ⟨r, hr, product⟩ := factors hm hn hk hs ht
  exact ⟨r, hr, by rw [mul_assoc, mul_comm (1 + t), product]⟩

theorem mul (hm : m ≤ 64) (hn : n ≤ 64) (hk : m + n < k) (h : Close m x y) (h' : Close n u v) :
    Close k (x * u) (y * v) := by
  obtain ⟨s, hs, rfl⟩ := h
  obtain ⟨t, ht, rfl⟩ := h'
  obtain ⟨r, hr, product⟩ := factors hm hn hk hs ht
  exact ⟨r, hr, by rw [← product]; ring⟩

theorem inv (hn : n ≤ 64) (hk : n < k) (h : Close n x y) : Close k x⁻¹ y⁻¹ := by
  obtain ⟨t, ht, rfl⟩ := h
  have few : (n : ℚ) ≤ 64 := by exact_mod_cast hn
  have more : (n + 1 : ℚ) ≤ k := by exact_mod_cast hk
  obtain ⟨low, high⟩ := abs_le.mp ht
  have pos : (0 : ℚ) < 1 + t := by linarith
  have small : |t| ≤ 64 / 2 ^ 53 := by linarith
  refine ⟨-t / (1 + t), ?_, ?_⟩
  · rw [abs_div, abs_neg, abs_of_pos pos, div_le_iff₀ pos]
    have widened : ((n + 1) / 2 ^ 53 * (1 - 64 / 2 ^ 53) : ℚ) ≤ k / 2 ^ 53 * (1 + t) :=
      mul_le_mul (by linarith) (by linarith) (by norm_num) (by positivity)
    linarith
  · rw [mul_inv]
    congr 1
    field_simp
    ring

theorem div (hm : m ≤ 64) (hn : n < 64) (hk : m + n + 1 < k) (h : Close m x y)
    (h' : Close n u v) : Close k (x / u) (y / v) := by
  rw [div_eq_mul_inv, div_eq_mul_inv]
  exact h.mul hm hn (by omega) (h'.inv hn.le (Nat.lt_succ_self n))

theorem add (hy : 0 ≤ y) (hv : 0 ≤ v) (h : Close n x y) (h' : Close n u v) :
    Close n (x + u) (y + v) := by
  refine of_error (add_nonneg hy hv) ?_
  calc |x + u - (y + v)| = |(x - y) + (u - v)| := by ring_nf
    _ ≤ |x - y| + |u - v| := abs_add_le _ _
    _ ≤ y * (n / 2 ^ 53) + v * (n / 2 ^ 53) := add_le_add (h.error hy) (h'.error hv)
    _ = (y + v) * (n / 2 ^ 53) := by ring

end Close

variable {a b : Magnitude}

theorem close_ofNat {n : Nat} (h : n ≤ 2 ^ 128) : Close 1 (ofNat n).value n := by
  by_cases zero : n = 0
  · refine ⟨0, by norm_num, ?_⟩
    rw [zero, value, ofNat, steps_eq_zero (near_zero 1), Nat.cast_zero, zero_div, zero_mul]
  · have some : (1 : ℚ) ≤ n := by exact_mod_cast Nat.one_le_iff_ne_zero.mpr zero
    have few : (n : ℚ) ≤ 2 ^ 128 := by exact_mod_cast h
    have moderate : Moderate (n / (1 : Nat)) := by
      rw [Nat.cast_one, div_one]
      exact ⟨by linarith, few⟩
    have error := near_moderate Nat.one_pos moderate
    rw [Nat.cast_one, div_one] at error
    refine .of_error (by linarith) (le_trans error (le_of_eq ?_))
    push_cast
    ring

theorem close_add (h : Moderate (a.value + b.value)) :
    Close 1 (a.add b).value (a.value + b.value) := by
  refine .of_error (le_trans (by positivity) h.1) (le_trans (add_error h) (le_of_eq ?_))
  push_cast
  ring

theorem close_mul (h : Moderate (a.value * b.value)) :
    Close 1 (a.mul b).value (a.value * b.value) := by
  refine .of_error (le_trans (by positivity) h.1) (le_trans (mul_error h) (le_of_eq ?_))
  push_cast
  ring

theorem close_div (hb : 0 < b.value) (h : Moderate (a.value / b.value)) :
    Close 1 (a.div b).value (a.value / b.value) := by
  refine .of_error (le_trans (by positivity) h.1) (le_trans (div_error hb h) (le_of_eq ?_))
  push_cast
  ring

end DataAccess.Magnitude
