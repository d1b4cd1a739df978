import DataAccess.Proofs.Numeric.FromDouble
import DataAccess.Proofs.Numeric.ToDouble

/-!
Decimals through doubles and back. Whole numbers of 53 bits are kept. So are fifteen digits, unless
the doubles around them are too coarse for the digits that are read: of a double as many digits are
kept as fit fifty-two bits, and where the doubles have just begun to be twice as far apart, that is
one digit too many. What is not kept is off by little.
-/
namespace DataAccess.Decimal

open Magnitude (dropped)

/-- Numbers between these bounds have doubles too far apart for the digits that are read. -/
def coarse : List (Nat × Nat) :=
  [(2 ^ 12, 4504), (2 ^ 22, 4503600), (2 ^ 32, 4503599628), (2 ^ 42, 4503599627371)]

/-- Few enough digits and places, and doubles close enough together. -/
structure Held (d : Decimal) : Prop where
  short : d.mantissa < 10 ^ 15
  places : d.scale ≤ 22
  fine : ∀ b ∈ coarse, ¬(b.1 * 10 ^ d.scale ≤ d.mantissa ∧ d.mantissa < b.2 * 10 ^ d.scale)

/-- A whole number of 53 bits, but for zeros behind them. -/
def Round (d : Decimal) : Prop :=
  ∃ k i, k < 2 ^ 53 ∧ d.mantissa = k * 2 ^ i * 10 ^ d.scale

/-- Three digits are little less than ten bits: only there can fifty-two bits of digits be finer
than the doubles. -/
theorem critical_units : ∀ q < 29, ∀ j < 97, 10 ^ q * 2 ^ 52 ≤ (2 ^ 52 + 3) * 2 ^ j →
    8 * 2 ^ j ≤ 9 * 10 ^ q → 3 * j = 10 * q ∧ q ≤ 12 := by decide +kernel

/-- A number `n` of units of `q` places, whose doubles are `2 ^ -j` of `2 ^ 52` units apart. -/
theorem fine_or_coarse {q j n : Nat} (hq : q ≤ 28) (large : 10 ^ q * 2 ^ 52 ≤ n * 2 ^ j)
    (small : n ≤ 2 ^ 52 + 3) (whole : q = 0 → n < 2 ^ 52) :
    9 * 10 ^ q < 8 * 2 ^ j ∨ ∃ b ∈ coarse, b.1 * 10 ^ q ≤ n ∧ n < b.2 * 10 ^ q := by
  by_cases fine : 9 * 10 ^ q < 8 * 2 ^ j
  · exact .inl fine
  have some_bits : j < 97 := by
    by_contra many
    have bits : 2 ^ 97 ≤ 2 ^ j := Nat.pow_le_pow_right (by decide) (Nat.le_of_not_lt many)
    have digits : 10 ^ q ≤ 10 ^ 28 := Nat.pow_le_pow_right (by decide) hq
    omega
  obtain ⟨three, twelve⟩ := critical_units q (by omega) j some_bits
    (Nat.le_trans large (Nat.mul_le_mul_right _ small)) (Nat.le_of_not_lt fine)
  have cases : q = 0 ∧ j = 0 ∨ q = 3 ∧ j = 10 ∨ q = 6 ∧ j = 20 ∨ q = 9 ∧ j = 30 ∨
      q = 12 ∧ j = 40 := by omega
  right
  rcases cases with ⟨rfl, rfl⟩ | ⟨rfl, rfl⟩ | ⟨rfl, rfl⟩ | ⟨rfl, rfl⟩ | ⟨rfl, rfl⟩
  · have := whole rfl
    omega
  · exact ⟨(2 ^ 42, 4503599627371), by decide, by omega, by omega⟩
  · exact ⟨(2 ^ 32, 4503599628), by decide, by omega, by omega⟩
  · exact ⟨(2 ^ 22, 4503600), by decide, by omega, by omega⟩
  · exact ⟨(2 ^ 12, 4504), by decide, by omega, by omega⟩

theorem normal_digits {d : Decimal} (places : d.scale ≤ 22) (some_digit : 1 ≤ d.mantissa) :
    10 ^ d.scale * 2 ^ 52 ≤ d.mantissa * Binary64.one := by
  obtain ⟨e, he, hone⟩ := Magnitude.one_pow
  calc 10 ^ d.scale * 2 ^ 52 ≤ 10 ^ 22 * 2 ^ 52 := Nat.mul_le_mul_right _ (ten_pow_le places)
    _ ≤ 2 ^ 128 := by decide
    _ ≤ Binary64.one := by
      rw [hone]
      exact Nat.pow_le_pow_right (by decide) (by omega)
    _ ≤ d.mantissa * Binary64.one := Nat.le_mul_of_pos_left _ some_digit

/-- The doubles around fifteen digits are less than one apart. -/
theorem Held.gap {d : Decimal} (held : d.Held) (some_digit : 1 ≤ d.mantissa) :
    ∃ k j, dropped d.mantissa (10 ^ d.scale) = k ∧ Binary64.one = 2 ^ (k + (j + 1)) ∧
      2 ^ k * 2 ^ 52 * 10 ^ d.scale ≤ d.mantissa * 2 ^ (k + (j + 1)) := by
  obtain ⟨e, -, hone⟩ := Magnitude.one_pow
  have unit_pos : 0 < 10 ^ d.scale := Nat.pow_pos (by decide)
  have normal := normal_digits held.places some_digit
  rw [Nat.mul_comm, ← Nat.le_div_iff_mul_le unit_pos] at normal
  have gap := (Nat.le_div_iff_mul_le unit_pos).mp (Magnitude.dropped_mul_le normal)
  rw [hone] at gap
  generalize dropped d.mantissa (10 ^ d.scale) = k at *
  have below : k < e := by
    by_contra beyond
    have bits : 2 ^ e ≤ 2 ^ k := Nat.pow_le_pow_right (by decide) (Nat.le_of_not_lt beyond)
    have many : 2 ^ 52 * 2 ^ e ≤ d.mantissa * 2 ^ e := by
      calc 2 ^ 52 * 2 ^ e = 2 ^ e * 2 ^ 52 * 1 := by ring
        _ ≤ 2 ^ k * 2 ^ 52 * 10 ^ d.scale :=
          Nat.mul_le_mul (Nat.mul_le_mul_right _ bits) unit_pos
        _ ≤ d.mantissa * 2 ^ e := gap
    have short := held.short
    have := Nat.le_of_mul_le_mul_right many (Nat.two_pow_pos e)
    omega
  obtain ⟨j, rfl⟩ := Nat.exists_eq_add_of_lt below
  exact ⟨k, j, rfl, hone, gap⟩

/-- Half a gap, in units of no more places than the digits that are kept, is less than four
ninths. -/
theorem slack_lt {d : Decimal} (held : d.Held) (some_digit : 1 ≤ d.mantissa) {i : Nat}
    (places : d.scale + i ≤ 28) (small : d.mantissa * 10 ^ i ≤ 2 ^ 52 + 3)
    (whole : d.scale + i = 0 → d.mantissa * 10 ^ i < 2 ^ 52) :
    d.slack * 10 ^ (d.scale + i) < 4 / 9 := by
  obtain ⟨k, j, bits, hone, gap⟩ := held.gap some_digit
  rw [slack, hone, bits]
  have large : 10 ^ (d.scale + i) * 2 ^ 52 ≤ d.mantissa * 10 ^ i * 2 ^ (j + 1) := by
    refine Nat.le_of_mul_le_mul_left ?_ (Nat.two_pow_pos k)
    calc 2 ^ k * (10 ^ (d.scale + i) * 2 ^ 52) = 2 ^ k * 2 ^ 52 * 10 ^ d.scale * 10 ^ i := by
          rw [Nat.pow_add]; ring
      _ ≤ d.mantissa * 2 ^ (k + (j + 1)) * 10 ^ i := Nat.mul_le_mul_right _ gap
      _ = 2 ^ k * (d.mantissa * 10 ^ i * 2 ^ (j + 1)) := by
          rw [Nat.pow_add 2 k]; ring
  rcases fine_or_coarse places large small whole with fine | ⟨b, hb, low, high⟩
  · have fine : (9 * 10 ^ (d.scale + i) : ℚ) < 8 * 2 ^ (j + 1) := by exact_mod_cast fine
    have half_gap : (2 ^ k / (2 * (2 ^ (k + (j + 1)) : Nat)) * 10 ^ (d.scale + i) : ℚ) =
        10 ^ (d.scale + i) / (2 * 2 ^ (j + 1)) := by
      push_cast
      rw [pow_add 2 k]
      field_simp
    rw [half_gap, div_lt_div_iff₀ (by positivity) (by norm_num)]
    linarith
  · have tens : 0 < 10 ^ i := Nat.pow_pos (by decide)
    rw [Nat.pow_add, ← Nat.mul_assoc] at low high
    exact absurd ⟨Nat.le_of_mul_le_mul_right low tens, Nat.lt_of_mul_lt_mul_right high⟩
      (held.fine b hb)

theorem slack_le {d : Decimal} (places : d.scale ≤ 22) (some_digit : 1 ≤ d.mantissa) :
    d.slack ≤ d.number / 2 ^ 53 := by
  have gap := Magnitude.gap_le (Nat.pow_pos (by decide)) (normal_digits places some_digit)
  have half : d.slack = 2 ^ dropped d.mantissa (10 ^ d.scale) / (Binary64.one : Nat) / 2 := by
    rw [slack]
    ring
  rw [half, number]
  linarith

theorem number_mul (d : Decimal) : d.number * 10 ^ d.scale = d.mantissa := by
  have tens : (0 : ℚ) < 10 ^ d.scale := by positivity
  rw [number]
  push_cast
  exact div_mul_cancel₀ _ tens.ne'

theorem number_nonneg (d : Decimal) : 0 ≤ d.number := by
  unfold number
  positivity

/-- What is left after halving is next to the number. -/
theorem Shortened.halved_bounds {d : Decimal} {z : ℚ} {r q : Nat}
    (h : Shortened d.size.value z r q) (held : d.Held) (some_digit : 1 ≤ d.mantissa) :
    d.number - d.number / 2 ^ 52 ≤ z ∧ z ≤ d.number + d.number / 2 ^ 53 := by
  obtain ⟨low, high⟩ := abs_le.mp (d.size_error held.short held.places)
  have slack := slack_le held.places some_digit
  have pos := d.number_nonneg
  obtain ⟨halved_low, halved_high⟩ := h.halved
  constructor <;> linarith

/-- The same in units of any place. -/
theorem Shortened.scaled_bounds {d : Decimal} {z : ℚ} {r q : Nat}
    (h : Shortened d.size.value z r q) (held : d.Held) (some_digit : 1 ≤ d.mantissa) (n : Nat) :
    d.number * 10 ^ n - d.number * 10 ^ n / 2 ^ 52 ≤ z * 10 ^ n ∧
      z * 10 ^ n ≤ d.number * 10 ^ n + d.number * 10 ^ n / 2 ^ 53 := by
  obtain ⟨low, high⟩ := h.halved_bounds held some_digit
  have tens : (0 : ℚ) ≤ 10 ^ n := by positivity
  have low := mul_le_mul_of_nonneg_right low tens
  have high := mul_le_mul_of_nonneg_right high tens
  rw [sub_mul, div_mul_eq_mul_div] at low
  rw [add_mul, div_mul_eq_mul_div] at high
  exact ⟨low, high⟩

/-- Units of fewer places than the number has are the number itself: nothing was cut off, since
fifteen digits need no fifty-two bits. -/
theorem Shortened.eq_of_fewer {d : Decimal} {z : ℚ} {r q : Nat}
    (h : Shortened d.size.value z r q) (held : d.Held) (some_digit : 1 ≤ d.mantissa)
    (fewer : q < d.scale) : (r / 10 ^ q : ℚ) = d.number := by
  obtain ⟨low, high⟩ := h.scaled_bounds held some_digit d.scale
  rw [d.number_mul] at low high
  have short : (d.mantissa : ℚ) < 10 ^ 15 := by exact_mod_cast held.short
  have pos : (1 : ℚ) ≤ d.mantissa := by exact_mod_cast some_digit
  obtain ⟨i, hi⟩ := Nat.exists_eq_add_of_lt fewer
  rcases h.reason with exact | full | many
  · have units : z * 10 ^ d.scale = (r * 10 ^ (i + 1) : Nat) := by
      rw [hi, Nat.add_assoc, pow_add, ← mul_assoc, ← exact]
      push_cast
      rfl
    have same : r * 10 ^ (i + 1) = d.mantissa :=
      eq_of_lt_add_one (by linarith) (by linarith)
    rw [number, ← same, hi, Nat.add_assoc]
    push_cast
    rw [pow_add]
    field_simp
    ring
  · have := held.places
    omega
  · have one_le : (1 : ℚ) ≤ 10 ^ i := one_le_pow₀ (by norm_num)
    have scaled : z * 10 ^ (q + 1) ≤ z * 10 ^ d.scale := by
      have nonneg : 0 ≤ z * 10 ^ (q + 1) := by
        by_contra negative
        linarith
      rw [hi, Nat.add_right_comm, pow_add _ (q + 1), ← mul_assoc]
      exact le_mul_of_one_le_right nonneg one_le
    linarith

/-- Units of as many places as the number has, or more, are the number: its digits lie within a
half of what the double has there, and rounding a half up again and again does not leave them. -/
theorem Shortened.eq_of_more {d : Decimal} {z : ℚ} {r q : Nat}
    (h : Shortened d.size.value z r q) (held : d.Held) (some_digit : 1 ≤ d.mantissa)
    (more : d.scale ≤ q) : (r / 10 ^ q : ℚ) = d.number := by
  obtain ⟨error_low, error_high⟩ := abs_le.mp (d.size_error held.short held.places)
  obtain ⟨halved_low, halved_high⟩ := h.halved
  obtain ⟨cut_low, cut_high⟩ := h.cut
  obtain ⟨i, rfl⟩ := Nat.exists_eq_add_of_le more
  have tens : (0 : ℚ) < 10 ^ (d.scale + i) := by positivity
  have digits : d.number * 10 ^ (d.scale + i) = (d.mantissa * 10 ^ i : Nat) := by
    rw [pow_add, ← mul_assoc, d.number_mul]
    push_cast
    rfl
  obtain ⟨low, -⟩ := h.scaled_bounds held some_digit (d.scale + i)
  rw [digits] at low
  have whole : d.scale + i = 0 → d.mantissa * 10 ^ i < 2 ^ 52 := by
    intro none
    obtain rfl : i = 0 := by omega
    have := held.short
    omega
  -- Of fifty-two bits there are few enough units for half a gap to be less than four ninths of one.
  have small : d.mantissa * 10 ^ i ≤ 2 ^ 52 + 3 := by
    rcases h.bits with none | few
    · exact Nat.le_trans (whole none).le (by omega)
    · have few : (r : ℚ) < 2 ^ 52 := by exact_mod_cast few
      have small : ((d.mantissa * 10 ^ i : Nat) : ℚ) ≤ (2 ^ 52 + 3 : Nat) := by
        push_cast at low ⊢
        linarith
      exact_mod_cast small
  have fine := slack_lt held some_digit h.places small whole
  have small : ((d.mantissa * 10 ^ i : Nat) : ℚ) ≤ (2 ^ 52 + 3 : Nat) := by exact_mod_cast small
  generalize d.mantissa * 10 ^ i = n at *
  generalize d.size.value = y at *
  have error_low := mul_le_mul_of_nonneg_right error_low tens.le
  have error_high := mul_le_mul_of_nonneg_right error_high tens.le
  have halved_low := mul_le_mul_of_nonneg_right halved_low tens.le
  have halved_high := mul_le_mul_of_nonneg_right halved_high tens.le
  rw [sub_mul, digits] at error_low error_high
  rw [mul_right_comm] at halved_low
  push_cast at small
  have same : r = n := eq_of_lt_add_one (by linarith) (by linarith)
  rw [same, ← digits, mul_div_cancel_right₀ _ tens.ne']

theorem value_eq (d : Decimal) : d.value = if d.negative then -d.number else d.number := by
  rw [value, signed, number]
  split
  · rw [Int.cast_neg, Int.cast_natCast, neg_div]
    rfl
  · rw [Int.cast_natCast]
    rfl

theorem abs_value (d : Decimal) : |d.value| = d.number := by
  rw [value_eq]
  split
  · rw [abs_neg, abs_of_nonneg d.number_nonneg]
  · rw [abs_of_nonneg d.number_nonneg]

/-- Decimals are equal if they denote one number. -/
theorem beq_iff {a b : Decimal} : (a == b) = true ↔ a.value = b.value := by
  have unit (d : Decimal) : ((Nat.pow 10 d.scale : Nat) : ℚ) ≠ 0 := by
    exact_mod_cast d.unit_pos.ne'
  rw [value, value, div_eq_div_iff (unit a) (unit b)]
  have same : (a == b) = (a.compare b == .eq) := rfl
  rw [same, beq_iff_eq, compare, Std.LawfulEqOrd.compare_eq_iff_eq]
  norm_cast

theorem number_ge {d : Decimal} (some_digit : 1 ≤ d.mantissa) : 1 / 10 ^ 28 ≤ d.number := by
  have some_digit : (1 : ℚ) ≤ d.mantissa := by exact_mod_cast some_digit
  have unit : ((10 ^ d.scale : Nat) : ℚ) ≤ 10 ^ 28 := by
    exact_mod_cast Nat.pow_le_pow_right (by decide) d.scale_le
  exact div_le_div₀ (by linarith) some_digit (by positivity) unit

/-- What is read of the double of a decimal other than zero: the double as it is, or what is left
of it when it has been shortened. -/
theorem read_back {d w : Decimal} (some_digit : 1 ≤ d.mantissa)
    (h : ofBinary64? d.toBinary64 = some w) : w.negative = d.negative ∧
      (2 ^ 52 ≤ d.size.value ∧ w.number = d.size.value ∨
        ∃ z r q, Shortened d.size.value z r q ∧ w.number = r / 10 ^ q) := by
  obtain ⟨negative, double, sign⟩ := d.toBinary64_eq
  obtain rfl := sign (Nat.one_le_iff_ne_zero.mp some_digit)
  obtain ⟨low, -⟩ := d.size_close.bounds (by decide) d.number_nonneg
  have least := number_ge some_digit
  rw [double] at h
  by_cases fraction : d.size.shift < 1074
  · have there := Magnitude.mantissa_ne_zero (a := d.size) (by linarith)
    obtain ⟨w', read, signed, number⟩ := ofBinary64?_fraction d.negative there fraction
    obtain rfl := Option.some.inj (h.symm.trans read)
    obtain ⟨z, r, q, kept, shortened⟩ := shorten_shortened fraction (by linarith)
    refine ⟨signed, .inr ⟨z, r, q, shortened, ?_⟩⟩
    rw [kept] at number
    rw [Decimal.number, Nat.cast_pow, Nat.cast_ofNat, number, denoted]
  · have whole := value_whole (Nat.le_of_not_lt fraction)
    have large : 2 ^ 52 ≤ d.size.value := by
      by_contra small
      exact fraction (shift_lt (lt_of_not_ge small))
    rw [ofBinary64?_whole _ whole, ofParts?] at h
    split at h
    · obtain rfl := Option.some.inj h
      refine ⟨rfl, .inl ⟨large, ?_⟩⟩
      rw [Decimal.number, pow_zero, Nat.cast_one, div_one, whole]
    · cases h

theorem eq_of_number {d w : Decimal} (sign : w.negative = d.negative)
    (number : w.number = d.number) : (w == d) = true := by
  rw [beq_iff, value_eq, value_eq, sign, number]

theorem Round.of_zero {d : Decimal} (zero : d.mantissa = 0) : d.Round :=
  ⟨0, 0, by decide, by rw [zero, Nat.zero_mul, Nat.zero_mul]⟩

theorem beq_of_zero {d w : Decimal} (hd : d.mantissa = 0) (hw : w.mantissa = 0) :
    (w == d) = true := by
  have zero {x : Decimal} (hx : x.mantissa = 0) : x.value = 0 := by
    rw [value_eq, number, hx, Nat.cast_zero, zero_div, neg_zero, ite_self]
  rw [beq_iff, zero hd, zero hw]

/-- A whole number of 53 bits, zeros behind them aside, is read back. -/
theorem Round.kept {d : Decimal} (round : d.Round) :
    ∃ w, ofBinary64? d.toBinary64 = some w ∧ (w == d) = true := by
  obtain ⟨k, i, hk, whole⟩ := round
  have unit_pos : 0 < 10 ^ d.scale := Nat.pow_pos (by decide)
  have remainder : d.mantissa % 10 ^ d.scale = 0 := by rw [whole, Nat.mul_mod_left]
  have digits : d.mantissa / 10 ^ d.scale = k * 2 ^ i := by
    rw [whole, Nat.mul_div_cancel _ unit_pos]
  have fits : k * 2 ^ i < 2 ^ 96 := by
    rw [← digits]
    exact Nat.lt_of_le_of_lt (Nat.div_le_self _ _) d.mantissa_lt
  obtain ⟨negative, double, sign⟩ := d.toBinary64_eq
  have value := Magnitude.value_ofNat (i := i) hk (Nat.le_trans fits.le (by decide))
  rw [← digits, ← size_of_whole remainder, digits] at value
  refine ⟨⟨negative, k * 2 ^ i, 0, fits, by decide⟩, ?_, ?_⟩
  · rw [double, ofBinary64?_whole _ value]
    exact dif_pos ⟨fits, by decide⟩
  · by_cases zero : d.mantissa = 0
    · refine beq_of_zero zero ?_
      rw [zero, Nat.zero_div] at digits
      exact digits.symm
    · refine eq_of_number (sign zero) ?_
      rw [number_of_whole remainder, digits, number, pow_zero, Nat.cast_one, div_one]

/-- Fifteen digits are read back where the doubles are close enough together. -/
theorem Held.kept {d : Decimal} (held : d.Held) :
    ∃ w, ofBinary64? d.toBinary64 = some w ∧ (w == d) = true := by
  by_cases zero : d.mantissa = 0
  · exact (Round.of_zero zero).kept
  · have some_digit := Nat.one_le_iff_ne_zero.mpr zero
    have short : (d.mantissa : ℚ) < 10 ^ 15 := by exact_mod_cast held.short
    have unit : (1 : ℚ) ≤ (10 ^ d.scale : Nat) := by exact_mod_cast Nat.pow_pos (by decide)
    have small : d.number < 10 ^ 15 :=
      lt_of_le_of_lt (div_le_self (Nat.cast_nonneg _) unit) short
    have missed := (abs_le.mp (d.size_close.error d.number_nonneg)).2
    push_cast at missed
    obtain ⟨negative, double, -⟩ := d.toBinary64_eq
    have read : (ofBinary64? d.toBinary64).isSome := by
      rw [double, ofBinary64?_isSome]
      linarith
    obtain ⟨w, read⟩ := Option.isSome_iff_exists.mp read
    refine ⟨w, read, ?_⟩
    obtain ⟨sign, ⟨large, -⟩ | ⟨z, r, q, shortened, number⟩⟩ := read_back some_digit read
    · linarith
    · refine eq_of_number sign (number.trans ?_)
      by_cases fewer : q < d.scale
      · exact shortened.eq_of_fewer held some_digit fewer
      · exact shortened.eq_of_more held some_digit (Nat.le_of_not_lt fewer)

end DataAccess.Decimal
