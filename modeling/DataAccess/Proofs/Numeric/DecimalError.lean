import DataAccess.Proofs.Numeric.ThroughDouble

/-!
What is lost when a double is made a decimal: bits beyond the forty-eighth, and what is less than
units of the last place there can be.
-/
namespace DataAccess.Decimal

/-- Each place beyond the last there can be adds half a unit of its own, at most. -/
theorem denoted_limitPlaces_le (m i : Nat) :
    denoted (limitPlaces m (28 + i)) ≤
      denoted (m, 28 + i) + 5 / 9 * (1 / 10 ^ 28 - 1 / 10 ^ (28 + i)) := by
  induction i generalizing m with
  | zero => simp [limitPlaces_short m (Nat.le_refl 28)]
  | succ i ih =>
    have tenth : (1 / 10 ^ (28 + i) : ℚ) = 10 * (1 / 10 ^ (28 + i + 1)) := by
      rw [pow_succ]
      field_simp
    have least : (1 / 10 ^ (28 + i + 1) : ℚ) ≤ 1 / 10 ^ 28 :=
      one_div_le_one_div_of_le (by positivity) (pow_le_pow_right₀ (by norm_num) (by omega))
    have units (m : Nat) (p : Nat) : denoted (m, p) = m * (1 / 10 ^ p) := by
      rw [denoted, mul_one_div]
    have ih := ih (cut m)
    rw [← Nat.add_assoc, limitPlaces, if_neg (by omega)]
    rw [units (cut m), tenth] at ih
    rw [units m]
    have positive : (0 : ℚ) < 1 / 10 ^ (28 + i + 1) := by positivity
    generalize (1 / 10 ^ (28 + i + 1) : ℚ) = unit at *
    split
    · have some_units := mul_nonneg (Nat.cast_nonneg (α := ℚ) m) positive.le
      rw [denoted, Nat.cast_zero, zero_div]
      linarith
    · have rounded : (10 * (cut m : Nat) : ℚ) ≤ m + 5 := by exact_mod_cast (cut_bounds m).2
      have scaled := mul_le_mul_of_nonneg_right rounded positive.le
      linarith

/-- Of a number below the last place no more than two units of it are made. -/
theorem shorten_small {size : Magnitude} (fraction : size.shift < 1074)
    (small : size.value ≤ 1 / 10 ^ 28) :
    denoted (shorten size.mantissa (1074 - size.shift)) ≤ 2 / 10 ^ 28 := by
  obtain ⟨-, upper, -⟩ := ofHalves_bounds (1074 - size.shift) 0 (m := size.mantissa)
    (Nat.le_trans (Nat.sub_le _ _) (by decide)) (Nat.lt_trans size.mantissa_lt (by decide))
  rw [Nat.add_zero, ← value_fraction fraction] at upper
  unfold shorten
  generalize ofHalves (1074 - size.shift) size.mantissa (1074 - size.shift) = halved at *
  obtain ⟨m, p⟩ := halved
  have few : denoted (limitPlaces m p) ≤ 2 / 10 ^ 28 := by
    by_cases short : p ≤ 28
    · rw [limitPlaces_short m short]
      linarith
    · obtain ⟨i, rfl⟩ := Nat.exists_eq_add_of_le (Nat.le_of_not_le short)
      have positive : (0 : ℚ) < 1 / 10 ^ (28 + i) := by positivity
      have limited := denoted_limitPlaces_le m i
      linarith
  have places := (limitPlaces_le m p).2
  obtain ⟨r, q, limited⟩ : ∃ r q, limitPlaces m p = (r, q) := ⟨_, _, rfl⟩
  rw [limited] at few places
  have kept : limitBits r q = (r, q) := by
    cases q with
    | zero => rfl
    | succ q =>
      have units : (r : ℚ) ≤ 2 := by
        have tens : (10 ^ (q + 1) : ℚ) ≤ 10 ^ 28 := pow_le_pow_right₀ (by norm_num) places
        rw [denoted, div_le_div_iff₀ (by positivity) (by positivity)] at few
        exact le_of_mul_le_mul_right (few.trans (by linarith)) (by norm_num : (0 : ℚ) < 10 ^ 28)
      have units : r ≤ 2 := by exact_mod_cast units
      rw [limitBits, if_pos (Nat.lt_of_le_of_lt units (by decide))]
  dsimp only
  rw [limited, kept]
  exact few

/-- Half a unit of the last place that is kept is little beside the number, or beside a unit of the
last place there can be. -/
theorem Shortened.double_error {y z : ℚ} {r q : Nat} (pos : 0 ≤ y) (h : Shortened y z r q) :
    |(r / 10 ^ q : ℚ) - y| ≤ y / 2 ^ 48 + 1 / 10 ^ 28 := by
  obtain ⟨low, high⟩ := h.cut
  obtain ⟨halved_low, halved_high⟩ := h.halved
  have tens : (0 : ℚ) < 10 ^ q := by positivity
  have unit : |(r : ℚ) - z * 10 ^ q| ≤ (y / 2 ^ 49 + 1 / 10 ^ 28) * 10 ^ q := by
    rw [add_mul]
    have scaled : z * 10 ^ q ≤ y * 10 ^ q := mul_le_mul_of_nonneg_right halved_high tens.le
    have nothing : 0 ≤ y * 10 ^ q := mul_nonneg pos tens.le
    rcases h.reason with exact | rfl | many
    · rw [exact, sub_self, abs_zero]
      positivity
    · rw [abs_le]
      constructor <;> linarith
    · rw [pow_succ (10 : ℚ)] at many
      rw [abs_le]
      constructor <;> linarith
  have halved : |z - y| ≤ y / 2 ^ 49 := by
    rw [abs_le]
    constructor <;> linarith
  exact (missed_le unit halved).trans (by linarith)

/-- The decimal of a double is next to it, or next to zero with it. -/
theorem number_error {negative : Bool} {size : Magnitude} {e : Decimal}
    (h : ofBinary64? (.finite negative size) = some e) :
    e.negative = negative ∧ |e.number - size.value| ≤ size.value / 2 ^ 48 + 2 / 10 ^ 28 := by
  have pos : 0 ≤ size.value := div_nonneg (Nat.cast_nonneg _) (Nat.cast_nonneg _)
  have exact {n : Nat} (whole : size.value = n) :
      e.negative = negative ∧ |e.number - size.value| ≤ size.value / 2 ^ 48 + 2 / 10 ^ 28 := by
    rw [ofBinary64?_whole negative whole, ofParts?] at h
    split at h
    · obtain rfl := Option.some.inj h
      refine ⟨rfl, ?_⟩
      rw [number, pow_zero, Nat.cast_one, div_one, whole, sub_self, abs_zero]
      positivity
    · cases h
  by_cases zero : size.mantissa = 0
  · refine exact (n := 0) ?_
    rw [Magnitude.value, Magnitude.steps_eq_zero zero, Nat.cast_zero, zero_div]
  by_cases fraction : size.shift < 1074
  · obtain ⟨e', read, sign, kept⟩ := ofBinary64?_fraction negative zero fraction
    obtain rfl := Option.some.inj (h.symm.trans read)
    refine ⟨sign, ?_⟩
    rw [number, Nat.cast_pow, Nat.cast_ofNat, kept]
    rcases le_total (1 / 10 ^ 28) size.value with large | small
    · obtain ⟨z, r, q, same, shortened⟩ := shorten_shortened fraction (by linarith)
      rw [same]
      exact (shortened.double_error pos).trans (by linarith)
    · have few := shorten_small fraction small
      have units : 0 ≤ denoted (shorten size.mantissa (1074 - size.shift)) :=
        div_nonneg (Nat.cast_nonneg _) (by positivity)
      rw [abs_le]
      constructor <;> linarith
  · exact exact (value_whole (Nat.le_of_not_lt fraction))

end DataAccess.Decimal
