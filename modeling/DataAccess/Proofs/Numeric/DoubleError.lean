import DataAccess.Proofs.Numeric.ThroughDouble

/-!
What is read of the double of a decimal, whatever its digits. There is a decimal unless rounding has
led out of the range of decimals, and it is off in proportion by less than the 45th part of a bit.
-/
namespace DataAccess

namespace Magnitude

/-- Of ninety-six bits forty-three are rounded. -/
theorem value_ofNat_long {m : Nat} (long : 2 ^ 95 ≤ m) (small : m < 2 ^ 96) :
    (ofNat m).value = (roundHalfEven m (2 ^ 43) * 2 ^ 43 : Nat) := by
  obtain ⟨e, -, hone⟩ := one_pow
  have bits : (m * Binary64.one / 1).log2 = 95 + e := by
    rw [Nat.div_one, hone, Nat.log2_eq_iff (Nat.mul_ne_zero (by omega) (Nat.two_pow_pos e).ne'),
      Nat.add_right_comm, Nat.pow_add, Nat.pow_add]
    exact ⟨Nat.mul_le_mul_right _ long, Nat.mul_lt_mul_of_pos_right small (Nat.two_pow_pos e)⟩
  have gap : dropped m 1 = 43 + e := by
    rw [dropped, bits]
    omega
  have steps : (ofNat m).steps = _ := near_steps Nat.one_pos (by omega)
  rw [gap, hone, Nat.one_mul, Nat.pow_add, roundHalfEven_scaled _ _ (Nat.two_pow_pos e)] at steps
  rw [value, steps, hone]
  push_cast
  field_simp

end Magnitude

namespace Decimal

/-- Halfway between the greatest double of ninety-six bits and the next, which is even. -/
theorem rounds_up_iff {m : Nat} (long : 2 ^ 95 ≤ m) (small : m < 2 ^ 96) :
    roundHalfEven m (2 ^ 43) * 2 ^ 43 < 2 ^ 96 ↔ m < 2 ^ 96 - 2 ^ 42 := by
  unfold roundHalfEven
  dsimp only
  split
  · omega
  · split
    · omega
    · split <;> omega

theorem size_lt_iff (d : Decimal) : d.size.value < 2 ^ 96 ↔ d.number < 2 ^ 96 - 2 ^ 42 := by
  have fits : (d.mantissa : ℚ) < 2 ^ 96 := by exact_mod_cast d.mantissa_lt
  obtain ⟨-, close⟩ := d.size_close.bounds (by decide) d.number_nonneg
  by_cases whole : d.scale = 0
  · have digits : d.number = d.mantissa := by
      rw [number, whole, pow_zero, Nat.cast_one, div_one]
    by_cases long : 2 ^ 95 ≤ d.mantissa
    · have bound : (d.mantissa : ℚ) < 2 ^ 96 - 2 ^ 42 ↔ d.mantissa < 2 ^ 96 - 2 ^ 42 := by
        rw [← Nat.cast_lt (α := ℚ)]
        exact Iff.of_eq (by norm_num)
      rw [size, if_pos whole, Magnitude.value_ofNat_long long d.mantissa_lt, digits, bound,
        ← rounds_up_iff long d.mantissa_lt]
      exact_mod_cast Iff.rfl
    · have short : (d.mantissa : ℚ) < 2 ^ 95 := by exact_mod_cast Nat.lt_of_not_le long
      rw [digits] at close ⊢
      exact iff_of_true (by linarith) (by linarith)
  · have unit : (10 : ℚ) ≤ (10 ^ d.scale : Nat) := by
      exact_mod_cast Nat.le_self_pow whole 10
    have tenth : d.number ≤ 2 ^ 96 / 10 :=
      div_le_div₀ (by norm_num) fits.le (by norm_num) unit
    exact iff_of_true (by linarith) (by linarith)

/-- Something is read of the double, unless the decimal is next to the greatest. -/
theorem read_iff (d : Decimal) :
    (ofBinary64? d.toBinary64).isSome ↔ |d.value| < 2 ^ 96 - 2 ^ 42 := by
  obtain ⟨negative, double, -⟩ := d.toBinary64_eq
  rw [double, ofBinary64?_isSome, size_lt_iff, abs_value]

/-- The number in units of the last place that any decimal can have. -/
theorem number_last (d : Decimal) :
    d.number * 10 ^ 28 = (d.mantissa * 10 ^ (28 - d.scale) : Nat) := by
  have places := Nat.add_sub_cancel' d.scale_le
  generalize 28 - d.scale = i at *
  rw [← places, pow_add, ← mul_assoc, number_mul]
  push_cast
  rfl

/-- Units of the last place that any decimal can have are the number, if they are few. -/
theorem Shortened.eq_of_few {d : Decimal} {z : ℚ} {r : Nat} (h : Shortened d.size.value z r 28)
    (few : d.number * 10 ^ 28 < 2 ^ 45) : (r / 10 ^ 28 : ℚ) = d.number := by
  obtain ⟨cut_low, cut_high⟩ := h.cut
  obtain ⟨halved_low, halved_high⟩ := h.halved
  have missed := d.size_close.error d.number_nonneg
  push_cast at missed
  obtain ⟨low, high⟩ := abs_le.mp missed
  have units := d.number_last
  generalize d.mantissa * 10 ^ (28 - d.scale) = n at units
  have same : r = n := eq_of_lt_add_one (by linarith) (by linarith)
  rw [same, ← units, mul_div_cancel_right₀ _ (by norm_num)]

/-- However a double has been shortened, no more than bits beyond the 45th are lost. -/
theorem Shortened.error {d : Decimal} {z : ℚ} {r q : Nat} (h : Shortened d.size.value z r q) :
    |(r / 10 ^ q : ℚ) - d.number| ≤ d.number / 2 ^ 45 := by
  have pos := d.number_nonneg
  obtain ⟨cut_low, cut_high⟩ := h.cut
  obtain ⟨halved_low, halved_high⟩ := h.halved
  have missed := d.size_close.error pos
  push_cast at missed
  obtain ⟨low, high⟩ := abs_le.mp missed
  have tens : (0 : ℚ) < 10 ^ q := by positivity
  by_cases last : q = 28 ∧ d.number * 10 ^ 28 < 2 ^ 45
  · obtain ⟨rfl, few⟩ := last
    rw [h.eq_of_few few, sub_self, abs_zero]
    positivity
  -- half a unit of the last place that is kept is little
  have unit : |(r : ℚ) - z * 10 ^ q| ≤ d.number / 2 ^ 45 * (5 / 9) * 10 ^ q := by
    rcases h.reason with exact | rfl | many
    · rw [exact, sub_self, abs_zero]
      positivity
    · have many : 2 ^ 45 ≤ d.number * 10 ^ 28 := le_of_not_gt fun few => last ⟨rfl, few⟩
      rw [abs_le]
      constructor <;> linarith
    · have scaled : z * 10 ^ q ≤ 2 * (d.number * 10 ^ q) := by
        rw [← mul_assoc]
        exact mul_le_mul_of_nonneg_right (by linarith) tens.le
      rw [pow_succ (10 : ℚ)] at many
      rw [abs_le]
      constructor <;> linarith
  have halved : |z - d.number| ≤ d.number / 2 ^ 45 * (4 / 9) := by
    rw [abs_le]
    constructor <;> linarith
  exact (missed_le unit halved).trans (by linarith)

/-- What is read of the double is next to the decimal. -/
theorem read_error {d w : Decimal} (h : ofBinary64? d.toBinary64 = some w) :
    |w.value - d.value| ≤ |d.value| / 2 ^ 45 := by
  by_cases zero : d.mantissa = 0
  · obtain ⟨w', read, same⟩ := (Round.of_zero zero).kept
    obtain rfl := Option.some.inj (h.symm.trans read)
    rw [beq_iff.mp same, sub_self, abs_zero]
    positivity
  · obtain ⟨sign, read⟩ := read_back (Nat.one_le_iff_ne_zero.mpr zero) h
    have number : |w.number - d.number| ≤ d.number / 2 ^ 45 := by
      rcases read with ⟨-, number⟩ | ⟨z, r, q, shortened, number⟩
      · have missed := d.size_close.error d.number_nonneg
        have pos := d.number_nonneg
        push_cast at missed
        rw [number]
        linarith
      · rw [number]
        exact shortened.error
    rw [abs_value, value_eq, value_eq, sign]
    split
    · rw [neg_sub_neg, abs_sub_comm]
      exact number
    · exact number

end Decimal
end DataAccess
