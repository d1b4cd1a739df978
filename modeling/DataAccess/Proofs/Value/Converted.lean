import DataAccess.Proofs.Numeric.DecimalError
import DataAccess.Proofs.Numeric.Sides
import DataAccess.Proofs.Value.Met

/-!
What a number is once it has been converted: the double of an integer is next to it and on its side
of all other doubles, and the decimal of a double is next to that.
-/
namespace DataAccess

/-- The order of two numbers is that of two others unless one of these is next to the other. -/
theorem near_of_cmp_ne {a b c d : ℚ} (h : cmp a b ≠ cmp c d) : |c - b| ≤ max |a - c| |d - b| := by
  by_contra far
  rw [not_le, max_lt_iff] at far
  obtain ⟨first, second⟩ := far
  rw [abs_lt] at first second
  refine h ?_
  rcases le_total b c with above | below
  · rw [abs_of_nonneg (sub_nonneg.mpr above)] at first second
    rw [(cmp_eq_gt_iff a b).mpr (by linarith), (cmp_eq_gt_iff c d).mpr (by linarith)]
  · rw [abs_of_nonpos (sub_nonpos.mpr below)] at first second
    rw [(cmp_eq_lt_iff a b).mpr (by linarith), (cmp_eq_lt_iff c d).mpr (by linarith)]

/-- What is off by little beside one number is off by little beside the other. -/
theorem relative_swap {p q : ℚ} (h : |p - q| ≤ |p| / 2 ^ 47) : |p - q| ≤ |q| / 2 ^ 46 := by
  have apart := abs_sub_abs_le_abs_sub p q
  have pos := abs_nonneg q
  linarith

namespace Binary64

variable {x y : Binary64} {n : Int}

/-- The double of the integer, but not the integer. -/
def StandsFor (x : Binary64) (n : Int) : Prop :=
  x.denoted = (ofInt n).denoted ∧ x.denoted ≠ some ((n : ℚ) : Extended)

theorem swap_compareInt (n : Int) (x : Binary64) :
    (compareInt n x).map Ordering.swap = x.denoted.map (cmp · ((n : ℚ) : Extended)) := by
  rw [compareInt_eq_cmp, Option.map_map]
  exact Option.map_congr fun p _ => cmp_swap _ p

theorem compare_eq_iff : x.compare y = some .eq ↔ ∃ p, x.denoted = some p ∧ y.denoted = some p := by
  rw [compare_eq_cmp, Option.bind_eq_some_iff]
  refine exists_congr fun p => and_congr_right fun _ => ?_
  rw [Option.map_eq_some_iff]
  constructor
  · rintro ⟨q, there, same⟩
    rw [there, (cmp_eq_eq_iff p q).mp same]
  · exact fun there => ⟨p, there, cmp_self_eq_eq p⟩

theorem denoted_finite (s : Bool) (a : Magnitude) : (finite s a).denoted =
    some ((if s then -a.value else a.value : ℚ) : Extended) := by
  cases s with
  | false => rfl
  | true =>
    simp only [denoted, signed, Magnitude.value, if_true, Int.cast_neg, Int.cast_natCast, neg_div]

theorem denoted_ofInt_eq (small : n.natAbs ≤ 2 ^ 128) : (ofInt n).denoted =
    some ((if n < 0 then -(Magnitude.ofNat n.natAbs).value
      else (Magnitude.ofNat n.natAbs).value : ℚ) : Extended) := by
  rw [ofInt_eq small, denoted_finite]
  simp only [decide_eq_true_eq]
  rfl

/-- The double of an integer is next to it. -/
theorem denoted_ofInt (small : n.natAbs ≤ 2 ^ 128) : ∃ p : ℚ,
    (ofInt n).denoted = some (p : Extended) ∧ |p - n| ≤ |(n : ℚ)| / 2 ^ 53 := by
  have close := (Magnitude.close_ofNat small).error (Nat.cast_nonneg _)
  refine ⟨_, denoted_ofInt_eq small, ?_⟩
  rw [Nat.cast_natAbs, Int.cast_abs, Nat.cast_one, mul_one_div] at close
  refine le_trans (le_of_eq ?_) close
  by_cases negative : n < 0
  · have below : (n : ℚ) < 0 := by exact_mod_cast negative
    rw [if_pos negative, abs_of_neg below, ← neg_add', abs_neg, sub_neg_eq_add]
  · have above : (0 : ℚ) ≤ n := by exact_mod_cast not_lt.mp negative
    rw [if_neg negative, abs_of_nonneg above]

/-- An integer of few bits is its own double. -/
theorem denoted_ofInt_short (short : n.natAbs < 2 ^ 53) :
    (ofInt n).denoted = some ((n : ℚ) : Extended) := by
  rw [denoted_ofInt_eq (Nat.le_trans short.le (by decide)), Extended.some_rat_iff,
    Magnitude.value_ofNat_short short, Nat.cast_natAbs, Int.cast_abs]
  split
  · next negative =>
    have below : (n : ℚ) < 0 := by exact_mod_cast negative
    rw [abs_of_neg below, neg_neg]
  · next negative => exact abs_of_nonneg (by exact_mod_cast not_lt.mp negative)

theorem not_standsFor_of_short (short : n.natAbs < 2 ^ 53) : ¬x.StandsFor n :=
  fun ⟨stands, apart⟩ => apart (stands.trans (denoted_ofInt_short short))

/-- Only for the double of the integer itself does the verdict change when the integer is made a
double. -/
theorem compare_ofInt_iff (small : n.natAbs ≤ 2 ^ 128) (x : Binary64) :
    x.compare (ofInt n) = x.denoted.map (cmp · ((n : ℚ) : Extended)) ↔ ¬x.StandsFor n := by
  obtain ⟨p, rounded, -⟩ := denoted_ofInt small
  have tie : x.denoted.map (cmp · ((n : ℚ) : Extended)) = some .eq ↔
      x.denoted = some ((n : ℚ) : Extended) := by
    rw [Option.map_eq_some_iff]
    constructor
    · rintro ⟨q, there, same⟩
      rw [there, (cmp_eq_eq_iff q _).mp same]
    · exact fun there => ⟨_, there, cmp_self_eq_eq _⟩
  constructor
  · rintro same ⟨stands, apart⟩
    have equal : x.compare (ofInt n) = some .eq :=
      compare_eq_iff.mpr ⟨_, stands.trans rounded, rounded⟩
    exact apart (tie.mp (same ▸ equal))
  · intro exact
    have sides := compare_ofInt small x
    rw [swap_compareInt] at sides
    refine sides.elim id fun equal => ?_
    obtain ⟨q, hx, hn⟩ := compare_eq_iff.mp equal
    have number : x.denoted = some ((n : ℚ) : Extended) := by
      by_contra apart
      exact exact ⟨hx.trans hn.symm, apart⟩
    rw [equal, tie.mpr number]

end Binary64

namespace Decimal

variable {d e : Decimal} {y : Binary64} {n : Int}

theorem denoted_whole (whole : d.integer? = some n) :
    d.toBinary64.denoted = (Binary64.ofInt n).denoted := by
  obtain ⟨negative, double, sign⟩ := d.toBinary64_eq
  have small : n.natAbs ≤ 2 ^ 128 :=
    Nat.le_trans (natAbs_lt_of_integer? whole).le (by decide)
  rw [integer?] at whole
  split at whole
  · next multiple =>
    have size := size_of_whole multiple
    simp only [Nat.pow_eq] at whole multiple
    have digits := Nat.div_mul_cancel (Nat.dvd_of_mod_eq_zero multiple)
    generalize d.mantissa / 10 ^ d.scale = w at whole size digits
    have same : n.natAbs = w := by
      rw [← Option.some.inj whole]
      split <;> simp
    rw [double, Binary64.ofInt_eq small, Binary64.denoted_finite, Binary64.denoted_finite, size,
      same, Magnitude.ofNat]
    by_cases zero : w = 0
    · have none : (Magnitude.near w 1).value = 0 := by
        rw [zero, Magnitude.value, Magnitude.steps_eq_zero (Magnitude.near_zero 1), Nat.cast_zero,
          zero_div]
      simp [none]
    · have signs : negative = decide (n < 0) := by
        rw [sign (by rw [← digits]; exact Nat.mul_ne_zero zero d.unit_pos.ne'),
          ← Option.some.inj whole]
        cases d.negative with
        | false => simp
        | true => simp; omega
      rw [signs]
  · cases whole

theorem ofBinary64?_error {p : ℚ} (made : ofBinary64? y = some e)
    (number : y.denoted = some (p : Extended)) : |e.value - p| ≤ |p| / 2 ^ 48 + 2 / 10 ^ 28 := by
  cases y with
  | nan => cases made
  | infinite s => cases made
  | finite s a =>
    obtain ⟨rfl, close⟩ := number_error made
    rw [Binary64.denoted_finite, Extended.some_rat_iff] at number
    have pos : 0 ≤ a.value := div_nonneg (Nat.cast_nonneg _) (Nat.cast_nonneg _)
    rw [← number, value_eq]
    split
    · rw [neg_sub_neg, abs_sub_comm, abs_neg, abs_of_nonneg pos]
      exact close
    · rw [abs_of_nonneg pos]
      exact close

theorem exists_denoted (made : ofBinary64? y = some e) :
    ∃ p : ℚ, y.denoted = some (p : Extended) := by
  cases y with
  | finite s a => exact ⟨_, rfl⟩
  | _ => cases made

/-- The decimal of the operand's double is on another side of the decimal than the double is of
what the decimal counts as. -/
def Crossed (d : Decimal) (y : Binary64) : Prop :=
  ∃ (e : Decimal) (p : ℚ), ofBinary64? y = some e ∧ y.denoted = some (p : Extended) ∧
    cmp d.met p ≠ cmp d.value e.value

theorem crossed_iff {p : ℚ} (made : ofBinary64? y = some e)
    (number : y.denoted = some (p : Extended)) :
    d.Crossed y ↔ cmp d.met p ≠ cmp d.value e.value := by
  constructor
  · rintro ⟨e', p', made', number', crossed⟩
    obtain rfl := Option.some.inj (made.symm.trans made')
    obtain rfl := Extended.some_rat_iff.mp (number.symm.trans number')
    exact crossed
  · exact fun crossed => ⟨e, p, made, number, crossed⟩

theorem Crossed.near {p : ℚ} (h : d.Crossed y) (number : y.denoted = some (p : Extended)) :
    |d.value - p| ≤ |p| / 2 ^ 46 + 2 / 10 ^ 28 := by
  obtain ⟨e, q, made, number', crossed⟩ := h
  obtain rfl := Extended.some_rat_iff.mp (number.symm.trans number')
  have pos := abs_nonneg p
  rcases le_max_iff.mp (near_of_cmp_ne crossed) with cell | operand
  · have := relative_swap (cell.trans d.met_error)
    linarith
  · have := operand.trans (ofBinary64?_error made number)
    linarith

theorem value_of_whole (whole : y.integer? = some n) (made : ofBinary64? y = some e) :
    e.value = n := by
  obtain ⟨s, a, k, rfl, rfl, steps⟩ := Binary64.eq_of_integer? whole
  have size : a.value = k := by
    rw [Magnitude.value, steps, Nat.cast_mul, mul_div_cancel_right₀ _ Magnitude.one_pos_rat.ne']
  rw [ofBinary64?_whole s size, ofParts?] at made
  split at made
  · rw [← Option.some.inj made, value_eq, number]
    cases s <;> simp [Binary64.signed]
  · cases made

/-- Between whole doubles and decimals of fifteen digits nothing is crossed. -/
theorem not_crossed_of_short (short : d.mantissa < 10 ^ 15) (places : d.scale ≤ 22)
    (whole : y.integer? = some n) : ¬d.Crossed y := by
  rintro ⟨e, p, made, number, crossed⟩
  obtain rfl := Extended.some_rat_iff.mp
    (number.symm.trans (Binary64.denoted_eq_int_iff.mpr whole))
  rw [value_of_whole whole made, ← oversteps_iff_met] at crossed
  exact not_oversteps_of_short short places n crossed

end Decimal
end DataAccess
