import DataAccess.Numeric.Decimal.Binary
import DataAccess.Proofs.Numeric.Close

/-!
The double of a decimal, whose whole part and fraction are rounded apart. It is close to the
decimal, and for one of at most fifteen digits it is the nearest double.
-/
namespace DataAccess.Decimal

open Magnitude (Close dropped)

/-- The size of the double. -/
def size (d : Decimal) : Magnitude :=
  if d.scale = 0 then .ofNat d.mantissa
  else
    let unit := Magnitude.ofNat (Nat.pow 10 d.scale)
    let whole := Magnitude.ofNat (d.mantissa / Nat.pow 10 d.scale)
    let fraction := (Magnitude.ofNat (d.mantissa % Nat.pow 10 d.scale)).div unit
    if fraction.mantissa = 0 then whole
    else ((whole.add fraction).mul unit).round.div unit

theorem toBinary64_eq (d : Decimal) : ∃ negative, d.toBinary64 = .finite negative d.size ∧
    (d.mantissa ≠ 0 → negative = d.negative) := by
  unfold toBinary64 size
  split
  · exact ⟨_, rfl, fun h => by simp [h]⟩
  · dsimp only
    split
    · exact ⟨_, rfl, fun _ => rfl⟩
    · exact ⟨_, rfl, fun _ => rfl⟩

/-- The number without its sign. -/
def number (d : Decimal) : ℚ := d.mantissa / (10 ^ d.scale : Nat)

theorem number_of_whole {d : Decimal} (whole : d.mantissa % 10 ^ d.scale = 0) :
    d.number = (d.mantissa / 10 ^ d.scale : Nat) := by
  have unit_pos : 0 < 10 ^ d.scale := Nat.pow_pos (by decide)
  have parts : (d.mantissa / 10 ^ d.scale * 10 ^ d.scale : Nat) = d.mantissa :=
    Nat.div_mul_cancel (Nat.dvd_of_mod_eq_zero whole)
  rw [number, div_eq_iff (by exact_mod_cast unit_pos.ne')]
  exact_mod_cast parts.symm

/-- A number without a fraction has the size of its whole part. -/
theorem size_of_whole {d : Decimal} (whole : d.mantissa % 10 ^ d.scale = 0) :
    d.size = .ofNat (d.mantissa / 10 ^ d.scale) := by
  by_cases hs : d.scale = 0
  · rw [size, if_pos hs, hs, Nat.pow_zero, Nat.div_one]
  · have none : ((Magnitude.ofNat (d.mantissa % 10 ^ d.scale)).div
        (.ofNat (10 ^ d.scale))).mantissa = 0 := by
      have zero : (Magnitude.ofNat 0).steps = 0 :=
        Magnitude.steps_eq_zero (Magnitude.near_zero 1)
      rw [whole, Magnitude.div, zero]
      exact Magnitude.near_zero _
    rw [size, if_neg hs]
    exact if_pos none

/-- The quotient of a number by the unit of some places. -/
theorem close_quotient {k n s : Nat} {a : Magnitude} (hk : k ≤ 40) (some_digit : 1 ≤ n)
    (small : n < 2 ^ 96) (hs : s ≤ 28) (h : Close k a.value n) :
    Close (k + 5) (a.div (.ofNat (10 ^ s))).value (n / (10 ^ s : Nat)) := by
  have unit_le : 10 ^ s ≤ 10 ^ 28 := Nat.pow_le_pow_right (by decide) hs
  have unit_pos : 0 < 10 ^ s := Nat.pow_pos (by decide)
  generalize 10 ^ s = t at *
  have unit := Magnitude.close_ofNat (Nat.le_trans unit_le (by decide))
  have ht : (1 : ℚ) ≤ t := by exact_mod_cast unit_pos
  have ht' : (t : ℚ) ≤ 10 ^ 28 := by exact_mod_cast unit_le
  have hn : (1 : ℚ) ≤ n := by exact_mod_cast some_digit
  have hn' : (n : ℚ) ≤ 2 ^ 96 := by exact_mod_cast small.le
  have low : (1 / 10 ^ 28 : ℚ) ≤ n / t := div_le_div₀ (by linarith) hn (by linarith) ht'
  have high : (n / t : ℚ) ≤ 2 ^ 96 := (div_le_self (by linarith) ht).trans hn'
  obtain ⟨positive, -⟩ := unit.bounds (by decide) (by linarith)
  have quotient : Close (k + 3) (a.value / (Magnitude.ofNat t).value) (n / t) :=
    h.div (by omega) (by decide) (by omega) unit
  obtain ⟨above, below⟩ := quotient.bounds (by omega) (by linarith)
  have divided := Magnitude.close_div (a := a) (b := .ofNat t) (by linarith)
    ⟨by linarith, by linarith⟩
  exact divided.trans (by decide) (by omega) (by omega) quotient

/-- Whole part and fraction of any number are added and scaled to digits that are close. -/
theorem close_scaled {m s : Nat} (small : m < 2 ^ 96) (hs : s ≤ 28)
    (some_fraction : m % 10 ^ s ≠ 0) :
    Close 12 (((Magnitude.ofNat (m / 10 ^ s)).add
      ((Magnitude.ofNat (m % 10 ^ s)).div (.ofNat (10 ^ s)))).mul (.ofNat (10 ^ s))).value m := by
  have unit_le : 10 ^ s ≤ 10 ^ 28 := Nat.pow_le_pow_right (by decide) hs
  have unit_pos : 0 < 10 ^ s := Nat.pow_pos (by decide)
  have parts := Nat.div_add_mod m (10 ^ s)
  have digits_le : m % 10 ^ s ≤ m := Nat.mod_le _ _
  have whole_le : m / 10 ^ s ≤ m := Nat.div_le_self _ _
  have fraction := close_quotient (by decide) (Nat.one_le_iff_ne_zero.mpr some_fraction)
    (Nat.lt_of_le_of_lt digits_le small) hs
    (Magnitude.close_ofNat (Nat.le_trans digits_le (Nat.le_trans small.le (by decide))))
  have whole := Magnitude.close_ofNat (Nat.le_trans whole_le (Nat.le_trans small.le (by decide)))
  generalize 10 ^ s = t at *
  have unit := Magnitude.close_ofNat (Nat.le_trans unit_le (by decide))
  generalize m / t = w at *
  generalize m % t = f at *
  have ht : (1 : ℚ) ≤ t := by exact_mod_cast unit_pos
  have ht' : (t : ℚ) ≤ 10 ^ 28 := by exact_mod_cast unit_le
  have hf : (1 : ℚ) ≤ f := by exact_mod_cast Nat.one_le_iff_ne_zero.mpr some_fraction
  have hw : (0 : ℚ) ≤ w := Nat.cast_nonneg w
  have small : (m : ℚ) ≤ 2 ^ 96 := by exact_mod_cast small.le
  have some_digit : (1 : ℚ) ≤ m := hf.trans (by exact_mod_cast digits_le)
  have parts : (w + f / t : ℚ) * t = m := by
    rw [add_mul, div_mul_cancel₀ _ (by linarith), mul_comm]
    exact_mod_cast parts
  have pos : (0 : ℚ) < f / t := div_pos (by linarith) (by linarith)
  have low : (1 / 10 ^ 28 : ℚ) ≤ f / t := div_le_div₀ (by linarith) hf (by linarith) ht'
  have high : (w + f / t : ℚ) ≤ 2 ^ 96 :=
    (le_mul_of_one_le_right (by linarith) ht).trans (parts.le.trans small)
  -- What the quotient, the sum and the product each miss adds up.
  have total := (whole.mono (by decide : 1 ≤ 6)).add hw pos.le fraction
  obtain ⟨above, below⟩ := total.bounds (by decide) (by linarith)
  have added := (Magnitude.close_add ⟨by linarith, by linarith⟩).trans (k := 8) (by decide)
    (by decide) (by decide) total
  have product := added.mul (k := 10) (by decide) (by decide) (by decide) unit
  rw [parts] at product
  obtain ⟨above, below⟩ := product.bounds (by decide) (Nat.cast_nonneg m)
  exact (Magnitude.close_mul ⟨by linarith, by linarith⟩).trans (by decide) (by decide) (by decide)
    product

/-- Digits of any number are rounded to digits that are close. -/
theorem close_round {a : Magnitude} {m : Nat} (some_digit : 1 ≤ m) (small : m < 2 ^ 96)
    (h : Close 12 a.value m) : Close 30 a.round.value m := by
  have pos : (0 : ℚ) ≤ m := Nat.cast_nonneg m
  have missed := h.error pos
  by_cases short : m < 2 ^ 48
  · have short : (m : ℚ) < 2 ^ 48 := by exact_mod_cast short
    have half : |a.value - m| < 1 / 2 := by
      refine lt_of_le_of_lt missed ?_
      push_cast
      linarith
    rw [Magnitude.round_eq half]
    exact (Magnitude.close_ofNat (by omega)).mono (by decide)
  · have long : (2 ^ 48 : ℚ) ≤ m := by exact_mod_cast Nat.le_of_not_lt short
    obtain ⟨r, rounded, above, below⟩ := a.round_error
    obtain ⟨low, high⟩ := abs_le.mp missed
    push_cast at low high
    have digits : Close 28 r m := .of_error pos (abs_le.mpr ⟨by push_cast; linarith,
      by push_cast; linarith⟩)
    have few : r ≤ 2 ^ 128 := by
      have small : (m : ℚ) < 2 ^ 96 := by exact_mod_cast small
      have : (r : ℚ) ≤ (2 ^ 128 : Nat) := by
        push_cast
        linarith [(digits.bounds (by decide) pos).2]
      exact_mod_cast this
    rw [rounded]
    exact (Magnitude.close_ofNat few).trans (by decide) (by decide) (by decide) digits

/-- Another number is scaled to its digits, which are rounded, and divided again. -/
theorem size_of_fraction {d : Decimal} (some_fraction : d.mantissa % 10 ^ d.scale ≠ 0) :
    d.size = (((Magnitude.ofNat (d.mantissa / 10 ^ d.scale)).add
      ((Magnitude.ofNat (d.mantissa % 10 ^ d.scale)).div (.ofNat (10 ^ d.scale)))).mul
        (.ofNat (10 ^ d.scale))).round.div (.ofNat (10 ^ d.scale)) := by
  have unit_pos : (0 : ℚ) < (10 ^ d.scale : Nat) := by exact_mod_cast Nat.pow_pos (by decide)
  have hs : d.scale ≠ 0 := by
    intro hs
    rw [hs, Nat.pow_zero, Nat.mod_one] at some_fraction
    exact some_fraction rfl
  have digits : d.mantissa % 10 ^ d.scale < 2 ^ 96 :=
    Nat.lt_of_le_of_lt (Nat.mod_le _ _) d.mantissa_lt
  have pos : (0 : ℚ) < (d.mantissa % 10 ^ d.scale : Nat) / (10 ^ d.scale : Nat) :=
    div_pos (by exact_mod_cast Nat.pos_of_ne_zero some_fraction) unit_pos
  have quotient := close_quotient (by decide) (Nat.one_le_iff_ne_zero.mpr some_fraction) digits
    d.scale_le (Magnitude.close_ofNat (Nat.le_trans digits.le (by decide)))
  have there := Magnitude.mantissa_ne_zero
    (lt_of_lt_of_le (by linarith) (quotient.bounds (by decide) pos.le).1)
  rw [size, if_neg hs]
  exact if_neg there

/-- The double of any decimal is close to it. -/
theorem size_close (d : Decimal) : Close 64 d.size.value d.number := by
  have unit_pos : 0 < 10 ^ d.scale := Nat.pow_pos (by decide)
  have small : d.mantissa < 2 ^ 96 := d.mantissa_lt
  by_cases whole : d.mantissa % 10 ^ d.scale = 0
  · rw [size_of_whole whole, number_of_whole whole]
    exact (Magnitude.close_ofNat (Nat.le_trans (Nat.div_le_self _ _)
      (Nat.le_trans small.le (by decide)))).mono (by decide)
  · have some_digit : 1 ≤ d.mantissa := by
      rw [Nat.one_le_iff_ne_zero]
      intro zero
      rw [zero, Nat.zero_mod] at whole
      exact whole rfl
    have digits := close_round some_digit small (close_scaled small d.scale_le whole)
    rw [size_of_fraction whole]
    exact (close_quotient (by decide) some_digit small d.scale_le digits).mono (by decide)

section

variable {s : Nat}

theorem five_pow_lt (h : s ≤ 22) : 5 ^ s < 2 ^ 53 :=
  Nat.lt_of_le_of_lt (Nat.pow_le_pow_right (by decide) h) (by decide)

theorem ten_pow (s : Nat) : (10 : Nat) ^ s = 5 ^ s * 2 ^ s := by
  rw [← Nat.mul_pow]

theorem ten_pow_le (h : s ≤ 22) : 10 ^ s ≤ 10 ^ 22 := Nat.pow_le_pow_right (by decide) h

/-- Units of up to twenty-two places are doubles. -/
theorem value_unit (h : s ≤ 22) : (Magnitude.ofNat (10 ^ s)).value = (10 ^ s : Nat) := by
  rw [ten_pow]
  refine Magnitude.value_ofNat (five_pow_lt h) ?_
  rw [← ten_pow]
  exact Nat.le_trans (ten_pow_le h) (by decide)

end

section

variable {x y z t : ℚ}

/-- An error in proportion stays one in other units. -/
theorem error_mul (ht : 0 < t) (h : |x - y| ≤ y / 2 ^ 53) : |x * t - y * t| ≤ y * t / 2 ^ 53 := by
  rw [← sub_mul, abs_mul, abs_of_pos ht, mul_div_right_comm]
  exact mul_le_mul_of_nonneg_right h ht.le

/-- What is close to a positive number lies between its half and its double. -/
theorem error_bounds (hy : 0 ≤ y) (h : |x - y| ≤ y / 2 ^ 53) : y / 2 ≤ x ∧ x ≤ 2 * y := by
  obtain ⟨low, high⟩ := abs_le.mp h
  constructor <;> linarith

/-- Three roundings of fifteen digits, each off by the 53rd part of a bit, miss by less than a
half. -/
theorem three_errors {whole fraction quotient sum product : ℚ} (hw : 0 ≤ whole)
    (short : whole + fraction < 10 ^ 15)
    (divided : |quotient - fraction| ≤ fraction / 2 ^ 53)
    (added : |sum - (whole + quotient)| ≤ (whole + quotient) / 2 ^ 53)
    (multiplied : |product - sum| ≤ sum / 2 ^ 53) :
    |product - (whole + fraction)| < 1 / 2 := by
  obtain ⟨dl, dh⟩ := abs_le.mp divided
  obtain ⟨al, ah⟩ := abs_le.mp added
  obtain ⟨ml, mh⟩ := abs_le.mp multiplied
  rw [abs_lt]
  constructor <;> linarith

end

/-- A fraction of short digits is rounded once. -/
theorem fraction_error {f s : Nat} (short : f < 10 ^ 15) (hs : s ≤ 22) (some_fraction : f ≠ 0)
    (below : f < 10 ^ s) :
    (1 / 10 ^ 22 : ℚ) ≤ f / (10 ^ s : Nat) ∧ (f / (10 ^ s : Nat) : ℚ) ≤ 1 ∧
      |((Magnitude.ofNat f).div (.ofNat (10 ^ s))).value - f / (10 ^ s : Nat)| ≤
        f / (10 ^ s : Nat) / 2 ^ 53 := by
  have unit := value_unit hs
  have unit_le := ten_pow_le hs
  generalize 10 ^ s = t at *
  have digits : (Magnitude.ofNat f).value = f := Magnitude.value_ofNat_short (by omega)
  have ht : (t : ℚ) ≤ 10 ^ 22 := by exact_mod_cast unit_le
  have hf : (1 : ℚ) ≤ f := by exact_mod_cast Nat.one_le_iff_ne_zero.mpr some_fraction
  have pos : (0 : ℚ) < t := by exact_mod_cast Nat.zero_lt_of_lt below
  have low : (1 / 10 ^ 22 : ℚ) ≤ f / t := div_le_div₀ (by linarith) hf pos ht
  have high : (f / t : ℚ) ≤ 1 := (div_le_one pos).mpr (by exact_mod_cast below.le)
  have divided := Magnitude.div_error (a := .ofNat f) (b := .ofNat t) (by rw [unit]; exact pos) (by
    rw [digits, unit]
    exact ⟨le_trans (by norm_num) low, le_trans high (by norm_num)⟩)
  rw [digits, unit] at divided
  exact ⟨low, high, divided⟩

/-- Whole part and fraction are added and scaled to within a half of the digits. -/
theorem scaled_error {m s : Nat} (short : m < 10 ^ 15) (hs : s ≤ 22)
    (some_fraction : m % 10 ^ s ≠ 0) :
    |(((Magnitude.ofNat (m / 10 ^ s)).add
      ((Magnitude.ofNat (m % 10 ^ s)).div (.ofNat (10 ^ s)))).mul (.ofNat (10 ^ s))).value - m| <
      1 / 2 := by
  have unit := value_unit hs
  have unit_pos : 0 < 10 ^ s := Nat.pow_pos (by decide)
  have parts := Nat.div_add_mod m (10 ^ s)
  have whole_le : m / 10 ^ s ≤ m := Nat.div_le_self _ _
  obtain ⟨low, high, divided⟩ := fraction_error (Nat.lt_of_le_of_lt (Nat.mod_le _ _) short) hs
    some_fraction (Nat.mod_lt m unit_pos)
  generalize 10 ^ s = t at *
  generalize m / t = w at *
  generalize m % t = f at *
  have whole : (Magnitude.ofNat w).value = w := Magnitude.value_ofNat_short (by omega)
  have parts : (w * t + f : ℚ) = m := by
    rw [mul_comm]
    exact_mod_cast parts
  have short : (m : ℚ) < 10 ^ 15 := by exact_mod_cast short
  have whole_le : (w : ℚ) ≤ m := by exact_mod_cast whole_le
  have hf : (1 : ℚ) ≤ f := by exact_mod_cast Nat.one_le_iff_ne_zero.mpr some_fraction
  have hw : (0 : ℚ) ≤ w := Nat.cast_nonneg w
  have pos : (0 : ℚ) < t := by exact_mod_cast unit_pos
  have quotient : (f / t : ℚ) * t = f := div_mul_cancel₀ _ pos.ne'
  generalize (Magnitude.ofNat f).div (.ofNat t) = fraction at *
  generalize (f / t : ℚ) = x at *
  obtain ⟨near_low, near_high⟩ := error_bounds (by linarith) divided
  have added := Magnitude.add_error (a := .ofNat w) (b := fraction) (by
    rw [whole]
    constructor <;> linarith)
  rw [whole] at added
  generalize (Magnitude.ofNat w).add fraction = sum at *
  -- from here on everything is counted in units of the last place
  have divided := error_mul pos divided
  have added := error_mul pos added
  rw [quotient] at divided
  rw [add_mul] at added
  have hwt : (0 : ℚ) ≤ w * t := mul_nonneg hw pos.le
  obtain ⟨scaled_low, scaled_high⟩ := error_bounds (by linarith) divided
  obtain ⟨sum_low, sum_high⟩ := error_bounds (by linarith) added
  have multiplied := Magnitude.mul_error (a := sum) (b := .ofNat t) (by
    rw [unit]
    constructor <;> linarith)
  rw [unit] at multiplied
  have missed := three_errors hwt (parts ▸ short) divided added multiplied
  rwa [parts] at missed

/-- Half the gap between the doubles around a decimal. -/
def slack (d : Decimal) : ℚ := 2 ^ dropped d.mantissa (10 ^ d.scale) / (2 * (Binary64.one : Nat))

theorem slack_nonneg (d : Decimal) : 0 ≤ d.slack :=
  div_nonneg (pow_nonneg (by norm_num) _) (mul_nonneg (by norm_num) Magnitude.one_pos_rat.le)

/-- Fifteen digits with a fraction are rounded to the nearest double. -/
theorem size_of_short {d : Decimal} (short : d.mantissa < 10 ^ 15) (places : d.scale ≤ 22)
    (some_fraction : d.mantissa % 10 ^ d.scale ≠ 0) :
    d.size = .near d.mantissa (10 ^ d.scale) := by
  have digits := Magnitude.steps_of_value
    (Magnitude.value_ofNat_short (Nat.lt_trans short (by decide : 10 ^ 15 < 2 ^ 53)))
  have unit := Magnitude.steps_of_value (value_unit places)
  have scaled := Magnitude.round_eq (scaled_error short places some_fraction)
  rw [size_of_fraction some_fraction, scaled, Magnitude.div, digits, unit,
    Magnitude.near_scaled Binary64.one_pos]

/-- The double of fifteen digits is the nearest one. -/
theorem size_error (d : Decimal) (short : d.mantissa < 10 ^ 15) (places : d.scale ≤ 22) :
    |d.size.value - d.number| ≤ d.slack := by
  have unit_pos : 0 < 10 ^ d.scale := Nat.pow_pos (by decide)
  by_cases whole : d.mantissa % 10 ^ d.scale = 0
  · have few : d.mantissa / 10 ^ d.scale < 2 ^ 53 :=
      Nat.lt_of_le_of_lt (Nat.div_le_self _ _) (Nat.lt_trans short (by decide))
    rw [size_of_whole whole, Magnitude.value_ofNat_short few, number_of_whole whole, sub_self,
      abs_zero]
    exact d.slack_nonneg
  · have small : d.mantissa ≤ 10 ^ d.scale * 2 ^ 128 :=
      Nat.le_trans (Nat.le_trans (Nat.le_of_lt short) (by decide))
        (Nat.le_mul_of_pos_left _ unit_pos)
    rw [size_of_short short places whole]
    exact Magnitude.near_error unit_pos small

end DataAccess.Decimal
