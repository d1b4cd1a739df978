import DataAccess.Proofs.Numeric.ThroughDouble
import DataAccess.Proofs.Value.Exact
import DataAccess.Proofs.Value.Preorder
import DataAccess.Proofs.Value.Spelled
import Mathlib.Algebra.Order.Group.Pointwise.Interval

/-!
Machine words and decimals. A decimal without fraction is compared with a word as the integer that it
is. One with a fraction is compared as its double, which may be on the word or beyond it; then the
verdict is not that of the numbers. Of fifteen digits the double never gets so far.
-/
namespace DataAccess

/-- A number is on one side of two others unless it is between them. -/
theorem cmp_eq_cmp_iff {α : Type} [LinearOrder α] {a b x : α} (h : a ≠ b) :
    cmp a x = cmp a b ↔ a ∉ Set.uIcc b x := by
  rw [Set.mem_uIcc]
  rcases lt_or_gt_of_ne h with below | above
  · rw [below.cmp_eq_lt, cmp_eq_lt_iff]
    simp [below.not_ge, below.le]
  · rw [above.cmp_eq_gt, cmp_eq_gt_iff]
    simp [above.not_ge, above.le]

namespace Decimal

variable {d : Decimal} {n : Int}

/-- What the double denotes. -/
def rounded (d : Decimal) : ℚ := if d.negative then -d.size.value else d.size.value

theorem denoted_toBinary64 (fraction : d.integer? = none) :
    d.toBinary64.denoted = some (d.rounded : Extended) := by
  have value : (Binary64.signed d.negative d.size.steps / Binary64.one : ℚ) = d.rounded := by
    rw [rounded, Magnitude.value, Binary64.signed]
    split
    · rw [Int.cast_neg, Int.cast_natCast, neg_div]
    · rw [Int.cast_natCast]
  rw [toBinary64_of_fraction fraction, Binary64.denoted, value]

theorem abs_rounded_sub (d : Decimal) : |d.rounded - d.value| = |d.size.value - d.number| := by
  rw [rounded, value_eq]
  split
  · rw [neg_sub_neg, abs_sub_comm]
  · rfl

/-- Decimal and double are off by little in proportion. -/
theorem rounded_error (d : Decimal) : |d.rounded - d.value| ≤ |d.value| / 2 ^ 47 := by
  rw [abs_rounded_sub, abs_value]
  refine (d.size_close.error d.number_nonneg).trans (le_of_eq ?_)
  push_cast
  ring

theorem value_mul (d : Decimal) : d.value * (10 ^ d.scale : Nat) = d.signed :=
  div_mul_cancel₀ _ (by exact_mod_cast d.unit_pos.ne')

theorem value_eq_iff : d.value = n ↔ d.integer? = some n := by
  have unit : ((10 ^ d.scale : Nat) : ℚ) ≠ 0 := by exact_mod_cast d.unit_pos.ne'
  rw [integer?_eq_some_iff, ← mul_left_inj' unit, value_mul]
  exact_mod_cast Iff.rfl

/-- A decimal that is no integer is at least a unit of its last place off. -/
theorem unit_le_apart (fraction : d.integer? = none) (n : Int) :
    1 ≤ |(n : ℚ) - d.value| * (10 ^ d.scale : Nat) := by
  have apart : n * (10 ^ d.scale : Nat) - d.signed ≠ 0 := by
    rw [sub_ne_zero]
    intro same
    exact Option.some_ne_none n ((integer?_eq_some_iff.mpr same.symm).symm.trans fraction)
  have unit : (0 : ℚ) ≤ (10 ^ d.scale : Nat) := Nat.cast_nonneg _
  rw [← abs_of_nonneg unit, ← abs_mul, sub_mul, value_mul]
  exact_mod_cast Int.one_le_abs apart

/-- No integer itself, but its double is on the integer or beyond it. -/
def Oversteps (d : Decimal) (n : Int) : Prop :=
  d.integer? = none ∧ ∃ x : ℚ, d.toBinary64.denoted = some (x : Extended) ∧
    (n : ℚ) ∈ Set.uIcc d.value x

theorem oversteps_iff :
    d.Oversteps n ↔ d.integer? = none ∧ (n : ℚ) ∈ Set.uIcc d.value d.rounded := by
  refine and_congr_right fun fraction => ?_
  rw [denoted_toBinary64 fraction]
  constructor
  · rintro ⟨x, same, between⟩
    rwa [WithBotTop.coe_injective (Option.some.inj same)]
  · exact fun between => ⟨d.rounded, rfl, between⟩

/-- What is overstepped is next to the decimal. -/
theorem Oversteps.near (h : d.Oversteps n) : |(n : ℚ) - d.value| ≤ |d.rounded - d.value| :=
  Set.abs_sub_left_of_mem_uIcc (oversteps_iff.mp h).2

theorem not_oversteps_of_short (short : d.mantissa < 10 ^ 15) (places : d.scale ≤ 22) (n : Int) :
    ¬d.Oversteps n := by
  intro h
  have fraction := h.1
  have some_digit : 1 ≤ d.mantissa := by
    rw [Nat.one_le_iff_ne_zero]
    intro zero
    exact some_fraction fraction (by rw [zero, Nat.zero_mod])
  have near := h.near
  rw [abs_rounded_sub] at near
  have missed := near.trans ((d.size_error short places).trans (slack_le places some_digit))
  have apart := unit_le_apart fraction n
  have unit : (0 : ℚ) ≤ (10 ^ d.scale : Nat) := Nat.cast_nonneg _
  have short : (d.mantissa : ℚ) < 10 ^ 15 := by exact_mod_cast short
  have digits := d.number_mul
  have scaled := mul_le_mul_of_nonneg_right missed unit
  rw [div_mul_eq_mul_div] at scaled
  push_cast at scaled apart
  linarith

/-- Decimals compare as the numbers they are. -/
theorem compare_eq_cmp (a b : Decimal) : a.compare b = cmp a.value b.value := by
  have unit (d : Decimal) : (0 : ℚ) < (10 ^ d.scale : Nat) := by exact_mod_cast d.unit_pos
  have scaled : cmp a.value b.value =
      cmp ((a.signed * (10 ^ b.scale : Nat) : Int) : ℚ) (b.signed * (10 ^ a.scale : Nat) : Int) := by
    rw [← cmp_mul_pos_right (mul_pos (unit a) (unit b)), ← mul_assoc, value_mul,
      mul_comm ((10 ^ a.scale : Nat) : ℚ), ← mul_assoc, value_mul]
    rw [Int.cast_mul, Int.cast_mul, Int.cast_natCast, Int.cast_natCast]
  rw [scaled, Int.cast_strictMono.cmp_map_eq, cmp_eq_compare]
  rfl

theorem ofInt?_value (small : n.natAbs < Nat.pow 2 96) :
    ∃ e, ofInt? n = some e ∧ e.value = n := by
  refine ⟨⟨decide (n < 0), n.natAbs, 0, small, Nat.zero_le _⟩, dif_pos ⟨small, Nat.zero_le _⟩, ?_⟩
  rw [value_eq_iff, integer?_eq_some_iff, signed]
  simp only [decide_eq_true_eq, Nat.pow_eq, pow_zero, Nat.cast_one, mul_one]
  split <;> omega

end Decimal

namespace Scalar

variable {s : Scalar} {n : Int}

theorem compare_word_decimal (word : s.word? = some n) (d : Decimal) :
    s.compare (.decimal d) =
      some (cmp (n : ℚ) (if d.integer? = none then d.rounded else d.value)) := by
  cases whole : d.integer? with
  | some m =>
    have exact : s.compare (.decimal d) = some (Ord.compare n m) := by
      cases s <;> cases word <;> simp [compare, compareNumbers, integer?, whole]
    rw [exact, if_neg (Option.some_ne_none m), Decimal.value_eq_iff.mpr whole,
      Int.cast_strictMono.cmp_map_eq, cmp_eq_compare]
  | none =>
    have double : s.compare (.decimal d) = Binary64.compareWide n d.toBinary64 := by
      cases s <;> cases word <;> simp [compare, compareNumbers, integer?, double?, whole]
    rw [double, if_pos rfl, compareWide_of_integer? (integer?_of_word word),
      Binary64.compareInt_eq_cmp, Decimal.denoted_toBinary64 whole,
      Option.map_some, Extended.cmp_rat]

/-- The verdict is that of the numbers unless the decimal oversteps the word. -/
theorem cmp_rounded_iff (d : Decimal) (n : Int) :
    cmp (n : ℚ) (if d.integer? = none then d.rounded else d.value) = cmp (n : ℚ) d.value ↔
      ¬d.Oversteps n := by
  rw [Decimal.oversteps_iff]
  by_cases fraction : d.integer? = none
  · have apart : (n : ℚ) ≠ d.value := by
      intro same
      rw [Decimal.value_eq_iff.mp same.symm] at fraction
      exact Option.some_ne_none n fraction
    rw [if_pos fraction, cmp_eq_cmp_iff apart]
    simp [fraction]
  · rw [if_neg fraction]
    exact iff_of_true rfl fun oversteps => fraction oversteps.1

end Scalar

namespace Value

/-- A machine word and a decimal always compare, and the same way from either side. The verdict is
that of the numbers, as for the word's own decimal, just where the decimal does not overstep the
word. It can only overstep what is next to it, and with fifteen digits it oversteps nothing. -/
theorem words_among_decimals {s : Scalar} {n : Int} (word : s.word? = some n) (d : Decimal) :
    ∃ o, (Value.of s).compare (.of (.decimal d)) = some o ∧
      (Value.of (.decimal d)).compare (.of s) = some o.swap ∧
      (o = cmp (n : ℚ) d.value ↔ ¬d.Oversteps n) ∧
      (∃ e, Decimal.ofInt? n = some e ∧
        (Value.of (.decimal e)).compare (.of (.decimal d)) = some (cmp (n : ℚ) d.value)) ∧
      (d.Oversteps n → |(n : ℚ) - d.value| ≤ |d.value| / 2 ^ 47) ∧
      (d.mantissa < 10 ^ 15 → d.scale ≤ 22 → ¬d.Oversteps n) := by
  have verdict := Scalar.compare_word_decimal word d
  have swapped := (Scalar.compare_swap s (.decimal d)).trans (congrArg (Option.map _) verdict)
  obtain ⟨e, own, number⟩ := Decimal.ofInt?_value
    (Scalar.natAbs_lt_of_integer? (Scalar.integer?_of_word word))
  have exact : e.compare d = cmp (n : ℚ) d.value := by rw [Decimal.compare_eq_cmp, number]
  exact ⟨_, verdict, swapped, Scalar.cmp_rounded_iff d n, ⟨e, own, congrArg some exact⟩,
    fun oversteps => oversteps.near.trans d.rounded_error,
    fun short places => Decimal.not_oversteps_of_short short places n⟩

def twoAndHalf : Decimal := .ofCents false 250

/-- Three is more than two and a half. One is overstepped by the decimal next to it. -/
theorem words_among_decimals_halves :
    (Value.of (.int64 3)).compare (.of (.decimal twoAndHalf)) = some .gt ∧
      nearOne.Oversteps 1 := by
  constructor
  · obtain ⟨o, compared, -, exact, -, -, short⟩ :=
      words_among_decimals (s := .int64 3) (n := 3) (by decide) twoAndHalf
    have more : twoAndHalf.value < (3 : Int) := by decide +kernel
    rw [compared, exact.mpr (short (by decide) (by decide)), (cmp_eq_gt_iff _ _).mpr more]
  · obtain ⟨o, compared, -, exact, -⟩ :=
      words_among_decimals (s := .int64 1) (n := 1) (by decide) nearOne
    have tie : (Value.of (.int64 1)).compare (.of (.decimal nearOne)) = some .eq := by
      decide +kernel
    have more : nearOne.value < (1 : Int) := by decide +kernel
    obtain rfl : o = .eq := Option.some.inj (compared.symm.trans tie)
    rw [(cmp_eq_gt_iff _ _).mpr more] at exact
    exact not_not.mp fun within => absurd (exact.mpr within) (by decide)

/-- Half above an integer that is no double. -/
def oddAndHalf : Decimal := .ofCents false 900719925474099350

/-- One ties with a decimal below it, and another integer is put above a decimal that is greater. -/
theorem words_overstepped :
    (Value.of (.int64 1)).compare (.of (.decimal nearOne)) = some .eq ∧ nearOne.value < 1 ∧
      (Value.of (.int64 9007199254740993)).compare (.of (.decimal oddAndHalf)) = some .gt ∧
      9007199254740993 < oddAndHalf.value := by
  decide +kernel

end Value
end DataAccess
