import DataAccess.Proofs.Numeric.Nearest

/-!
Rounding goes past no double: the double of a number is on the side of every other double that the
number is on, or it is that double. So an integer made a double compares as before, or ties.
-/
namespace DataAccess

theorem le_roundHalfEven_of_le {num den q : Nat} (h : 0 < den) (le : q * den ≤ num) :
    q ≤ roundHalfEven num den :=
  Nat.le_trans ((Nat.le_div_iff_mul_le h).mpr le) le_roundHalfEven

theorem roundHalfEven_le_of_le {num den q : Nat} (h : 0 < den) (le : num ≤ q * den) :
    roundHalfEven num den ≤ q := by
  obtain ⟨-, high⟩ := roundHalfEven_bounds num h
  by_contra more
  have next : den * (q + 1) ≤ den * roundHalfEven num den :=
    Nat.mul_le_mul_left _ (Nat.lt_of_not_le more)
  rw [Nat.mul_succ, Nat.mul_comm] at next
  omega

namespace Magnitude

open Binary64 (one)

variable {num den : Nat} {a : Magnitude}

/-- Sizes below the last bit that is kept are counted in gaps. -/
theorem steps_of_gap_le {k : Nat} (fine : k ≤ a.shift) :
    a.steps = a.mantissa * 2 ^ (a.shift - k) * 2 ^ k := by
  rw [Nat.mul_assoc, ← Nat.pow_add, Nat.sub_add_cancel fine]
  rfl

theorem le_near_steps (hden : 0 < den) (small : num ≤ den * 2 ^ 128)
    (le : a.steps * den ≤ num * one) : a.steps ≤ (near num den).steps := by
  have gap : 0 < den * 2 ^ dropped num den := Nat.mul_pos hden (Nat.two_pow_pos _)
  rw [near_steps hden small]
  by_cases fine : dropped num den ≤ a.shift
  · have counted := steps_of_gap_le fine
    rw [counted] at le ⊢
    refine Nat.mul_le_mul_right _ (le_roundHalfEven_of_le gap (Nat.le_trans (le_of_eq ?_) le))
    ring
  · have coarse := Nat.lt_of_not_le fine
    have full : 2 ^ 52 ≤ roundHalfEven (num * one) (den * 2 ^ dropped num den) :=
      Nat.le_trans (le_dropped (by omega)) le_roundHalfEven
    exact Nat.le_trans (steps_lt_of_lt_gap coarse).le (Nat.mul_le_mul_right _ full)

theorem near_steps_le (hden : 0 < den) (small : num ≤ den * 2 ^ 128)
    (le : num * one ≤ a.steps * den) : (near num den).steps ≤ a.steps := by
  have gap : 0 < den * 2 ^ dropped num den := Nat.mul_pos hden (Nat.two_pow_pos _)
  rw [near_steps hden small]
  by_cases fine : dropped num den ≤ a.shift
  · have counted := steps_of_gap_le fine
    rw [counted] at le ⊢
    refine Nat.mul_le_mul_right _ (roundHalfEven_le_of_le gap (Nat.le_trans le (le_of_eq ?_)))
    ring
  · have coarse := Nat.lt_of_not_le fine
    have full : 2 ^ 52 * (den * 2 ^ dropped num den) ≤ num * one :=
      (Nat.le_div_iff_mul_le gap).mp (le_dropped (by omega))
    have less : a.steps * den < 2 ^ 52 * 2 ^ dropped num den * den :=
      Nat.mul_lt_mul_of_pos_right (steps_lt_of_lt_gap coarse) hden
    rw [Nat.mul_assoc, Nat.mul_comm (2 ^ dropped num den)] at less
    omega

end Magnitude

namespace Binary64

variable {n : Int} {s : Bool} {a : Magnitude}

theorem eq_of_integer? {x : Binary64} {n : Int} (whole : x.integer? = some n) :
    ∃ s a k, x = .finite s a ∧ n = signed s k ∧ a.steps = k * one := by
  cases x with
  | nan => cases whole
  | infinite s => cases whole
  | finite s a =>
    rw [integer?] at whole
    split at whole
    · next multiple =>
      exact ⟨s, a, a.steps / one, rfl, (Option.some.inj whole).symm,
        (Nat.div_mul_cancel (Nat.dvd_of_mod_eq_zero multiple)).symm⟩
    · cases whole

/-- Unfolded as a function: with arguments given, the steps in one would be counted. -/
theorem ofRatio_eq : ofRatio = fun negative num den =>
    match Magnitude.nearest? num den with
    | some size => .finite negative size
    | none => .infinite negative := by
  delta ofRatio
  rfl

theorem ofRatio_finite {num den : Nat} {a : Magnitude} (negative : Bool)
    (found : Magnitude.nearest? num den = some a) :
    ofRatio negative num den = .finite negative a := by
  rw [ofRatio_eq]
  dsimp only
  rw [found]

/-- The double of an integer, in steps. -/
def roundedSteps (n : Int) : Int := signed (decide (n < 0)) (Magnitude.near n.natAbs 1).steps

theorem ofInt_eq (small : n.natAbs ≤ 2 ^ 128) :
    ofInt n = .finite (decide (n < 0)) (.near n.natAbs 1) :=
  ofRatio_finite _ (Magnitude.nearest?_near Nat.one_pos (by rwa [Nat.one_mul]))

theorem signed_not (s : Bool) (k : Nat) : signed (!s) k = -signed s k := by
  cases s <;> simp [signed]

theorem roundedSteps_neg (n : Int) : roundedSteps (-n) = -roundedSteps n := by
  by_cases zero : n = 0
  · have none : (Magnitude.near 0 1).steps = 0 := Magnitude.steps_eq_zero (Magnitude.near_zero 1)
    simp [roundedSteps, zero, signed, none]
  · have opposite : decide (-n < 0) = !decide (n < 0) := by
      rw [← decide_not, decide_eq_decide]
      omega
    rw [roundedSteps, opposite, signed_not, Int.natAbs_neg]
    rfl

theorem le_roundedSteps (small : n.natAbs ≤ 2 ^ 128) (le : signed s a.steps ≤ n * one) :
    signed s a.steps ≤ roundedSteps n := by
  have room : n.natAbs ≤ 1 * 2 ^ 128 := by rwa [Nat.one_mul]
  have positive : (0 : Int) < one := by exact_mod_cast one_pos
  -- Sizes are rounded, so below zero the sides are exchanged.
  by_cases negative : n < 0
  · have below : n * one < 0 := Int.mul_neg_of_neg_of_pos negative positive
    have rounded : roundedSteps n = -(Magnitude.near n.natAbs 1).steps := by
      simp [roundedSteps, negative, signed]
    cases s with
    | false => simp only [signed, Bool.false_eq_true, if_false] at le; omega
    | true =>
      simp only [signed, if_true] at le ⊢
      have size : n.natAbs * one ≤ a.steps * 1 := by
        zify
        rw [abs_of_neg negative]
        linarith
      have side := Magnitude.near_steps_le Nat.one_pos room size
      omega
  · have rounded : roundedSteps n = (Magnitude.near n.natAbs 1).steps := by
      simp [roundedSteps, negative, signed]
    cases s with
    | true => simp only [signed, if_true]; omega
    | false =>
      simp only [signed, Bool.false_eq_true, if_false] at le ⊢
      have size : a.steps * 1 ≤ n.natAbs * one := by
        zify
        rw [abs_of_nonneg (not_lt.mp negative)]
        linarith
      have side := Magnitude.le_near_steps Nat.one_pos room size
      omega

theorem roundedSteps_le (small : n.natAbs ≤ 2 ^ 128) (le : n * one ≤ signed s a.steps) :
    roundedSteps n ≤ signed s a.steps := by
  have mirrored : signed (!s) a.steps ≤ -n * one := by
    rw [signed_not, Int.neg_mul]
    omega
  have side := le_roundedSteps (by rwa [Int.natAbs_neg]) mirrored
  rw [signed_not, roundedSteps_neg] at side
  omega

/-- Made a double, an integer is compared with other doubles as it was, or it is one of them. -/
theorem compare_ofInt (small : n.natAbs ≤ 2 ^ 128) (x : Binary64) :
    x.compare (ofInt n) = (compareInt n x).map Ordering.swap ∨ x.compare (ofInt n) = some .eq := by
  rw [ofInt_eq small]
  cases x with
  | nan => exact .inl rfl
  | infinite s => cases s <;> exact .inl rfl
  | finite s a =>
    have low := le_roundedSteps (s := s) (a := a) small
    have high := roundedSteps_le (s := s) (a := a) small
    have exact : (compareInt n (.finite s a)).map Ordering.swap =
        some (Ord.compare (signed s a.steps) (n * one)) :=
      congrArg some Std.OrientedOrd.eq_swap.symm
    have rounded : compare (.finite s a) (.finite (decide (n < 0)) (.near n.natAbs 1)) =
        some (Ord.compare (signed s a.steps) (roundedSteps n)) := rfl
    rw [exact, rounded, Option.some_inj, Option.some_inj]
    generalize signed s a.steps = k at *
    generalize n * (one : Int) = m at *
    rcases Int.lt_trichotomy k m with less | rfl | more
    · rw [Int.compare_eq_lt.mpr less, Int.compare_eq_lt, Int.compare_eq_eq]
      have := low less.le
      omega
    · have := low (Int.le_refl k)
      have := high (Int.le_refl k)
      exact .inr (Int.compare_eq_eq.mpr (by omega))
    · rw [Int.compare_eq_gt.mpr more, Int.compare_eq_gt, Int.compare_eq_eq]
      have := high more.le
      omega

end Binary64
end DataAccess
