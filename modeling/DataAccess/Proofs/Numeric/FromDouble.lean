import DataAccess.Numeric.Decimal.Binary
import DataAccess.Proofs.Numeric.Nearest
import Mathlib.Data.Nat.Cast.Order.Field
import Mathlib.Logic.Function.Iterate

/-!
The decimal of a double. Halving is exact but for bits beyond the ninety-sixth; then digits are cut
off one by one, each time rounding a half up, until places and bits are few enough.
-/
namespace DataAccess.Decimal

/-- The number that a count of units of some places is. -/
def denoted (r : Nat × Nat) : ℚ := r.1 / 10 ^ r.2

/-- What one halving of a count without room for another digit loses, at most. -/
def halfLoss : ℚ := 1 / 2 ^ 93

theorem half_le {m : Nat} (full : m % 2 ≠ 0 → 2 ^ 96 ≤ m * 5) :
    (m / 2 * (1 - halfLoss) : ℚ) ≤ (m / 2 : Nat) := by
  have parts := Nat.div_add_mod m 2
  rcases Nat.mod_two_eq_zero_or_one m with even | odd
  · have whole : (2 * (m / 2 : Nat) : ℚ) = m := by exact_mod_cast (by omega : 2 * (m / 2) = m)
    have pos : (0 : ℚ) ≤ (m / 2 : Nat) := Nat.cast_nonneg _
    rw [halfLoss]
    linarith
  · have whole : (2 * (m / 2 : Nat) + 1 : ℚ) = m := by
      exact_mod_cast (by omega : 2 * (m / 2) + 1 = m)
    have large : (2 ^ 96 : ℚ) ≤ m * 5 := by exact_mod_cast full (by omega)
    rw [halfLoss]
    linarith

/-- The count denotes the number, less what so many halvings lose. -/
structure Halved (q : ℚ) (k : Nat) (r : Nat × Nat) : Prop where
  upper : denoted r ≤ q
  lower : q * (1 - k * halfLoss) ≤ denoted r

/-- One halving more, of a number that is at most that and less by no more than it loses. -/
theorem Halved.step {q q' : ℚ} {k : Nat} {r : Nat × Nat} (h : Halved q' k r) (few : k ≤ 2 ^ 93)
    (pos : 0 ≤ q) (upper : q' ≤ q) (lower : q * (1 - halfLoss) ≤ q') : Halved q (k + 1) r where
  upper := h.upper.trans upper
  lower := by
    have loss : (0 : ℚ) ≤ 1 - k * halfLoss := by
      have : (k : ℚ) ≤ 2 ^ 93 := by exact_mod_cast few
      rw [halfLoss]
      linarith
    have losses : (1 - (k + 1 : Nat) * halfLoss : ℚ) ≤ (1 - halfLoss) * (1 - k * halfLoss) := by
      have : (0 : ℚ) ≤ halfLoss * (k * halfLoss) := by
        rw [halfLoss]
        positivity
      push_cast
      linarith
    calc q * (1 - (k + 1 : Nat) * halfLoss)
        ≤ q * ((1 - halfLoss) * (1 - k * halfLoss)) := mul_le_mul_of_nonneg_left losses pos
      _ = q * (1 - halfLoss) * (1 - k * halfLoss) := by ring
      _ ≤ q' * (1 - k * halfLoss) := mul_le_mul_of_nonneg_right lower loss
      _ ≤ denoted r := h.lower

theorem ofHalves_bounds (k i : Nat) {m : Nat} (few : k ≤ 2 ^ 93) (small : m < 2 ^ 96) :
    (ofHalves k m (k + i)).1 < 2 ^ 96 ∧
      Halved (m / (2 ^ k * 10 ^ i)) k (ofHalves k m (k + i)) := by
  -- A halving makes one more place, of which there are `i`, or drops a bit.
  induction k generalizing m i with
  | zero => refine ⟨small, ?_, ?_⟩ <;> simp [ofHalves, denoted]
  | succ k ih =>
    have few' : k ≤ 2 ^ 93 := Nat.le_of_succ_le few
    have pos : (0 : ℚ) ≤ m / (2 ^ (k + 1) * 10 ^ i) := by positivity
    rw [ofHalves]
    split
    · next odd =>
      obtain ⟨fits, halved⟩ := ih (i + 1) few' odd.2
      have same : ((m * 5 : Nat) / (2 ^ k * 10 ^ (i + 1)) : ℚ) = m / (2 ^ (k + 1) * 10 ^ i) := by
        push_cast
        field_simp
        ring
      rw [same] at halved
      rw [Nat.add_right_comm, Nat.add_assoc]
      refine ⟨fits, halved.step few' pos le_rfl (mul_le_of_le_one_right pos ?_)⟩
      rw [halfLoss]
      linarith
    · next full =>
      have half : (m / 2 * (1 - halfLoss) : ℚ) ≤ (m / 2 : Nat) :=
        half_le fun odd => Nat.le_of_not_lt fun less => full ⟨odd, less⟩
      have half' : ((m / 2 : Nat) : ℚ) ≤ m / 2 := Nat.cast_div_le
      obtain ⟨fits, halved⟩ := ih i few' (Nat.lt_of_le_of_lt (Nat.div_le_self m 2) small)
      have index : k + 1 + i - 1 = k + i := by omega
      have unit : (0 : ℚ) ≤ 2 ^ k * 10 ^ i := by positivity
      have split : (m / (2 ^ (k + 1) * 10 ^ i) : ℚ) = m / 2 / (2 ^ k * 10 ^ i) := by
        rw [div_div]
        ring
      rw [index]
      rw [split] at pos ⊢
      refine ⟨fits, halved.step few' pos (div_le_div_of_nonneg_right half' unit) ?_⟩
      rw [div_mul_eq_mul_div]
      exact div_le_div_of_nonneg_right half unit

theorem cut_bounds (m : Nat) : m ≤ 10 * cut m + 4 ∧ 10 * cut m ≤ m + 5 := by
  unfold cut
  split <;> omega

theorem cut_le (m : Nat) : cut m ≤ m := by
  unfold cut
  split <;> omega

/-- However many digits are cut off, what is left is off by less than five ninths of a unit above
and four ninths below. -/
theorem cuts_bounds (m c : Nat) :
    (m / 10 ^ c - 4 / 9 : ℚ) ≤ (cut^[c] m : Nat) ∧
      ((cut^[c] m : Nat) : ℚ) ≤ m / 10 ^ c + 5 / 9 := by
  induction c with
  | zero =>
    rw [Function.iterate_zero, id, pow_zero, div_one]
    constructor <;> linarith
  | succ c ih =>
    obtain ⟨low, high⟩ := cut_bounds (cut^[c] m)
    have low : ((cut^[c] m : Nat) : ℚ) ≤ 10 * (cut (cut^[c] m) : Nat) + 4 := by exact_mod_cast low
    have high : (10 * (cut (cut^[c] m) : Nat) : ℚ) ≤ (cut^[c] m : Nat) + 5 := by exact_mod_cast high
    have tenth : (m / 10 ^ (c + 1) : ℚ) = m / 10 ^ c / 10 := by
      rw [div_div, pow_succ]
    rw [Function.iterate_succ_apply', tenth]
    constructor <;> linarith [ih.1, ih.2]

theorem cuts_le (m c : Nat) : cut^[c] m ≤ m := by
  induction c with
  | zero => exact Nat.le_refl m
  | succ c ih =>
    rw [Function.iterate_succ_apply']
    exact Nat.le_trans (cut_le _) ih

theorem limitPlaces_short {p : Nat} (m : Nat) (h : p ≤ 28) : limitPlaces m p = (m, p) := by
  cases p with
  | zero => rfl
  | succ p => rw [limitPlaces, if_pos (Nat.lt_of_succ_le h)]

/-- A number that is all but a unit of the last place keeps its digits. -/
theorem limitPlaces_long {m e : Nat} (large : 19 * 10 ^ (28 + e) ≤ 20 * (m * 10 ^ 28)) :
    limitPlaces m (28 + e) = (cut^[e] m, 28) := by
  have left (b : Nat) (h : b ≤ e) :
      limitPlaces m (28 + e) = limitPlaces (cut^[b] m) (28 + (e - b)) := by
    induction b with
    | zero => rfl
    | succ b ih =>
      have digits : 9 < cut^[b] m := by
        have low := (cuts_bounds m b).1
        have large : (19 * 10 ^ (28 + e) : ℚ) ≤ 20 * (m * 10 ^ 28) := by exact_mod_cast large
        have split : (10 ^ (28 + e) : ℚ) = 10 ^ (b + 1) * 10 ^ (e - b - 1) * 10 ^ 28 := by
          rw [← pow_add, ← pow_add]
          congr 1
          omega
        have more : (10 ^ (b + 1) : ℚ) ≤ 10 ^ (b + 1) * 10 ^ (e - b - 1) :=
          le_mul_of_one_le_right (by positivity) (one_le_pow₀ (by norm_num))
        have more : (19 / 2 : ℚ) ≤ m / 10 ^ b := by
          rw [le_div_iff₀ (by positivity)]
          rw [split] at large
          rw [pow_succ] at large more
          linarith
        have digits : (9 : ℚ) < (cut^[b] m : Nat) := by linarith
        exact_mod_cast digits
      have next : 28 + (e - b) = 28 + (e - (b + 1)) + 1 := by omega
      rw [ih (by omega), next, limitPlaces, if_neg (by omega), if_neg (by omega),
        Function.iterate_succ_apply']
  rw [left e (Nat.le_refl e), Nat.sub_self, limitPlaces_short _ (Nat.le_refl 28)]

theorem limitPlaces_eq {m p : Nat} (large : 19 * 10 ^ p ≤ 20 * (m * 10 ^ 28)) :
    ∃ c ≤ p, limitPlaces m p = (cut^[c] m, p - c) ∧ p - c ≤ 28 ∧ (c = 0 ∨ p - c = 28) := by
  by_cases short : p ≤ 28
  · exact ⟨0, Nat.zero_le p, limitPlaces_short m short, short, .inl rfl⟩
  · obtain ⟨e, rfl⟩ := Nat.exists_eq_add_of_le (Nat.le_of_not_le short)
    refine ⟨e, Nat.le_add_left e 28, ?_, ?_⟩
    · rw [limitPlaces_long large, Nat.add_sub_cancel]
    · rw [Nat.add_sub_cancel]
      exact ⟨Nat.le_refl 28, .inr rfl⟩

theorem limitPlaces_le (m p : Nat) : (limitPlaces m p).1 ≤ m ∧ (limitPlaces m p).2 ≤ 28 := by
  induction p generalizing m with
  | zero => exact ⟨Nat.le_refl m, Nat.zero_le 28⟩
  | succ p ih =>
    rw [limitPlaces]
    split
    · next short => exact ⟨Nat.le_refl m, short⟩
    · split
      · exact ⟨Nat.zero_le m, Nat.zero_le 28⟩
      · exact ⟨Nat.le_trans (ih (cut m)).1 (cut_le m), (ih (cut m)).2⟩

/-- Digits are cut off until the bits are few enough or all places are gone, and not before. -/
theorem limitBits_eq (m p : Nat) : ∃ c ≤ p, limitBits m p = (cut^[c] m, p - c) ∧
    (p - c = 0 ∨ cut^[c] m < 2 ^ 52) ∧ ∀ b, c = b + 1 → 2 ^ 52 ≤ cut^[b] m := by
  induction p generalizing m with
  | zero => exact ⟨0, Nat.le_refl 0, rfl, .inl rfl, nofun⟩
  | succ p ih =>
    rw [limitBits]
    split
    · next few => exact ⟨0, Nat.zero_le _, rfl, .inr few, nofun⟩
    · next many =>
      obtain ⟨c, hc, left, ends, before⟩ := ih (cut m)
      refine ⟨c + 1, Nat.succ_le_succ hc, ?_, ?_, fun b hb => ?_⟩
      · rw [left, Function.iterate_succ_apply, Nat.succ_sub_succ]
      · rwa [Function.iterate_succ_apply, Nat.succ_sub_succ]
      · obtain rfl := Nat.succ.inj hb
        cases c with
        | zero => exact Nat.le_of_not_lt many
        | succ c =>
          rw [Function.iterate_succ_apply]
          exact before c rfl

/-- Digits are cut off for the places, and then for the bits. -/
theorem limits_eq {m p : Nat} (large : 19 * 10 ^ p ≤ 20 * (m * 10 ^ 28)) : ∃ c ≤ p,
    limitBits (limitPlaces m p).1 (limitPlaces m p).2 = (cut^[c] m, p - c) ∧ p - c ≤ 28 ∧
      (p - c = 0 ∨ cut^[c] m < 2 ^ 52) ∧
      (c = 0 ∨ p - c = 28 ∨ ∃ b, c = b + 1 ∧ 2 ^ 52 ≤ cut^[b] m) := by
  obtain ⟨c, hc, limited, places, ends⟩ := limitPlaces_eq large
  obtain ⟨b, hb, shortened, bits, before⟩ := limitBits_eq (cut^[c] m) (p - c)
  have all (b : Nat) : cut^[b] (cut^[c] m) = cut^[b + c] m :=
    (Function.iterate_add_apply _ _ _ _).symm
  have rest : p - c - b = p - (b + c) := by omega
  rw [limited, shortened, rest, all]
  rw [rest, all] at bits
  refine ⟨b + c, by omega, rfl, by omega, bits, ?_⟩
  cases b with
  | zero =>
    rw [Nat.zero_add]
    exact ends.imp_right .inl
  | succ b => exact .inr (.inr ⟨b + c, by omega, all b ▸ before b rfl⟩)

/-- Zeros at the end are places that say nothing. -/
theorem stripZeros_eq (m p : Nat) :
    (stripZeros m p).2 ≤ p ∧ (stripZeros m p).1 * 10 ^ (p - (stripZeros m p).2) = m := by
  induction p generalizing m with
  | zero => exact ⟨Nat.le_refl 0, Nat.mul_one m⟩
  | succ p ih =>
    rw [stripZeros]
    split
    · next zero =>
      obtain ⟨le, same⟩ := ih (m / 10)
      refine ⟨Nat.le_succ_of_le le, ?_⟩
      rw [Nat.succ_sub le, Nat.pow_succ, ← Nat.mul_assoc, same]
      exact Nat.div_mul_cancel (Nat.dvd_of_mod_eq_zero zero)
    · refine ⟨Nat.le_refl _, ?_⟩
      rw [Nat.sub_self, Nat.pow_zero, Nat.mul_one]

/-- What is made of a positive number `y`: `r` units of `q` places. Bits lost in halving leave `z`,
and of its digits some are cut off, so as to leave twenty-eight places, or because there were too
many bits. -/
structure Shortened (y z : ℚ) (r q : Nat) : Prop where
  halved : y * (1 - 1 / 2 ^ 82) ≤ z ∧ z ≤ y
  cut : z * 10 ^ q - 4 / 9 ≤ r ∧ (r : ℚ) ≤ z * 10 ^ q + 5 / 9
  places : q ≤ 28
  bits : q = 0 ∨ r < 2 ^ 52
  reason : r = z * 10 ^ q ∨ q = 28 ∨ (2 ^ 52 : ℚ) ≤ z * 10 ^ (q + 1) + 5 / 9

/-- What is missed by cutting off and what is missed by halving add up. -/
theorem missed_le {y z a b : ℚ} {r q : Nat} (cut : |(r : ℚ) - z * 10 ^ q| ≤ a * 10 ^ q)
    (halved : |z - y| ≤ b) : |(r / 10 ^ q : ℚ) - y| ≤ a + b := by
  have tens : (0 : ℚ) < 10 ^ q := by positivity
  have apart : (r / 10 ^ q - y : ℚ) = (r - z * 10 ^ q) / 10 ^ q + (z - y) := by
    field_simp
    ring
  have cut : |((r : ℚ) - z * 10 ^ q) / 10 ^ q| ≤ a := by
    rwa [abs_div, abs_of_pos tens, div_le_iff₀ tens]
  calc |(r / 10 ^ q : ℚ) - y|
      ≤ |((r : ℚ) - z * 10 ^ q) / 10 ^ q| + |z - y| := apart ▸ abs_add_le _ _
    _ ≤ a + b := add_le_add cut halved

theorem value_fraction {size : Magnitude} (fraction : size.shift < 1074) :
    size.value = size.mantissa / (2 ^ (1074 - size.shift) * 10 ^ 0) := by
  obtain ⟨e, he, hone⟩ := Magnitude.one_pow
  have bits : e = size.shift + (1074 - size.shift) := by omega
  have steps : size.steps = size.mantissa * 2 ^ size.shift := rfl
  rw [Magnitude.value, hone, steps, bits]
  push_cast
  rw [pow_add, pow_zero, mul_one]
  field_simp

/-- The digits that are kept of `m / 2 ^ k`. -/
def shorten (m k : Nat) : Nat × Nat :=
  let halved := ofHalves k m k
  let limited := limitPlaces halved.1 halved.2
  limitBits limited.1 limited.2

theorem shorten_lt {m : Nat} (k : Nat) (few : k ≤ 2 ^ 93) (small : m < 2 ^ 96) :
    (shorten m k).1 < 2 ^ 96 ∧ (shorten m k).2 ≤ 28 := by
  obtain ⟨fits, -⟩ := ofHalves_bounds k 0 few small
  rw [Nat.add_zero] at fits
  obtain ⟨less, places⟩ := limitPlaces_le (ofHalves k m k).1 (ofHalves k m k).2
  obtain ⟨c, -, shortened, -⟩ := limitBits_eq
    (limitPlaces (ofHalves k m k).1 (ofHalves k m k).2).1
    (limitPlaces (ofHalves k m k).1 (ofHalves k m k).2).2
  have kept : shorten m k = _ := shortened
  rw [kept]
  exact ⟨Nat.lt_of_le_of_lt (Nat.le_trans (cuts_le _ _) less) fits,
    Nat.le_trans (Nat.sub_le _ _) places⟩

/-- Cutting off `i` of the places leaves the point in front of the other `j`. -/
theorem denoted_mul_pow {m p i j : Nat} (h : i + j = p) : denoted (m, p) * 10 ^ i = m / 10 ^ j := by
  rw [denoted, ← h, pow_add]
  field_simp

/-- What is worth nearly a unit of the twenty-eighth place has a digit there. -/
theorem digit_of_denoted {m p : Nat} (large : (19 / (20 * 10 ^ 28) : ℚ) ≤ denoted (m, p)) :
    19 * 10 ^ p ≤ 20 * (m * 10 ^ 28) := by
  have tens : (0 : ℚ) < 10 ^ p := by positivity
  rw [denoted, div_le_div_iff₀ (by positivity) tens] at large
  have digit : (19 * 10 ^ p : ℚ) ≤ 20 * (m * 10 ^ 28) := by linarith
  exact_mod_cast digit

theorem shorten_shortened {size : Magnitude} (fraction : size.shift < 1074)
    (large : 99 / 100 / 10 ^ 28 ≤ size.value) :
    ∃ z r q, shorten size.mantissa (1074 - size.shift) = (r, q) ∧ Shortened size.value z r q := by
  have value := value_fraction fraction
  have pos : (0 : ℚ) < size.value := lt_of_lt_of_le (by positivity) large
  obtain ⟨-, upper, lower⟩ := ofHalves_bounds (1074 - size.shift) 0 (m := size.mantissa)
    (Nat.le_trans (Nat.sub_le _ _) (by decide)) (Nat.lt_trans size.mantissa_lt (by decide))
  rw [Nat.add_zero, ← value] at upper lower
  have halvings : ((1074 - size.shift : Nat) : ℚ) ≤ 1074 := by exact_mod_cast Nat.sub_le _ _
  unfold shorten
  generalize (1074 - size.shift : Nat) = k at *
  generalize ofHalves k size.mantissa k = halves at *
  obtain ⟨m, p⟩ := halves
  have kept : size.value * (1 - 1 / 2 ^ 82) ≤ denoted (m, p) := by
    refine le_trans (mul_le_mul_of_nonneg_left ?_ pos.le) lower
    rw [halfLoss]
    linarith
  have large : (19 / (20 * 10 ^ 28) : ℚ) ≤ denoted (m, p) := le_trans (by linarith) kept
  obtain ⟨c, hc, limited, places, bits, ends⟩ := limits_eq (digit_of_denoted large)
  refine ⟨denoted (m, p), cut^[c] m, p - c, limited, ⟨kept, upper⟩, ?_, places, bits, ?_⟩
  · rw [denoted_mul_pow (Nat.sub_add_cancel hc)]
    exact cuts_bounds m c
  · rcases ends with rfl | full | ⟨b, rfl, many⟩
    · left
      rw [denoted_mul_pow (Nat.sub_add_cancel hc), pow_zero, div_one]
      rfl
    · exact .inr (.inl full)
    · right
      right
      rw [denoted_mul_pow (by omega : p - (b + 1) + 1 + b = p)]
      refine le_trans ?_ (cuts_bounds m b).2
      exact_mod_cast many

/-- A double with bits behind the point has a decimal, whose units are those that were kept. -/
theorem ofBinary64?_fraction (negative : Bool) {size : Magnitude} (some_bit : size.mantissa ≠ 0)
    (fraction : size.shift < 1074) :
    ∃ d, ofBinary64? (.finite negative size) = some d ∧ d.negative = negative ∧
      (d.mantissa / 10 ^ d.scale : ℚ) = denoted (shorten size.mantissa (1074 - size.shift)) := by
  obtain ⟨fits, places⟩ := shorten_lt (1074 - size.shift) (m := size.mantissa)
    (Nat.le_trans (Nat.sub_le _ _) (by decide)) (Nat.lt_trans size.mantissa_lt (by decide))
  have read : ofBinary64? (.finite negative size) =
      ofParts? negative (stripZeros (shorten size.mantissa (1074 - size.shift)).1
        (shorten size.mantissa (1074 - size.shift)).2).1
        (stripZeros (shorten size.mantissa (1074 - size.shift)).1
        (shorten size.mantissa (1074 - size.shift)).2).2 := by
    rw [ofBinary64?, if_neg some_bit, if_neg (Nat.not_le_of_lt fraction)]
    rfl
  generalize shorten size.mantissa (1074 - size.shift) = kept at *
  obtain ⟨r, q⟩ := kept
  obtain ⟨fewer, same⟩ := stripZeros_eq r q
  generalize stripZeros r q = stripped at *
  obtain ⟨m, p⟩ := stripped
  have unit_pos : 0 < 10 ^ (q - p) := Nat.pow_pos (by decide)
  have less : m < 2 ^ 96 :=
    Nat.lt_of_le_of_lt (Nat.le_mul_of_pos_right m unit_pos) (same ▸ fits)
  have within : p ≤ 28 := Nat.le_trans fewer places
  refine ⟨⟨negative, m, p, less, within⟩, read.trans (dif_pos ⟨less, within⟩), rfl, ?_⟩
  obtain ⟨i, rfl⟩ := Nat.exists_eq_add_of_le fewer
  simp only [Nat.add_sub_cancel_left] at same
  rw [denoted, ← same]
  push_cast
  rw [pow_add]
  field_simp

theorem ofHalves_whole (n k p : Nat) : ofHalves k (n * 2 ^ k) (p + k) = (n, p) := by
  induction k generalizing p with
  | zero => rw [Nat.pow_zero, Nat.mul_one]; rfl
  | succ k ih =>
    have twice : n * 2 ^ (k + 1) = n * 2 ^ k * 2 := by rw [Nat.pow_succ, Nat.mul_assoc]
    have even : n * 2 ^ (k + 1) % 2 = 0 := by rw [twice, Nat.mul_mod_left]
    have half : n * 2 ^ (k + 1) / 2 = n * 2 ^ k := by rw [twice, Nat.mul_div_cancel _ (by decide)]
    rw [ofHalves, if_neg (fun h => h.1 even), half]
    exact ih p

/-- A double that is a whole number has that number for its decimal, if there is room. -/
theorem ofBinary64?_whole (negative : Bool) {size : Magnitude} {n : Nat} (whole : size.value = n) :
    ofBinary64? (.finite negative size) = ofParts? negative n 0 := by
  have steps := Magnitude.steps_of_value whole
  obtain ⟨e, he, hone⟩ := Magnitude.one_pow
  have steps : size.mantissa * 2 ^ size.shift = n * 2 ^ e := by rw [← hone, ← steps]; rfl
  rw [ofBinary64?]
  by_cases zero : size.mantissa = 0
  · have none : n = 0 := by
      rw [zero, Nat.zero_mul] at steps
      exact (Nat.mul_eq_zero.mp steps.symm).resolve_right (Nat.two_pow_pos e).ne'
    rw [if_pos zero, none]
  · rw [if_neg zero, ← he]
    by_cases large : e ≤ size.shift
    · have digits : size.mantissa * 2 ^ (size.shift - e) = n := by
        refine Nat.eq_of_mul_eq_mul_right (Nat.two_pow_pos e) ?_
        rw [Nat.mul_assoc, ← Nat.pow_add, Nat.sub_add_cancel large, steps]
      rw [if_pos large]
      exact congrArg (ofParts? negative · 0) digits
    · have digits : size.mantissa = n * 2 ^ (e - size.shift) := by
        refine Nat.eq_of_mul_eq_mul_right (Nat.two_pow_pos size.shift) ?_
        rw [Nat.mul_assoc, ← Nat.pow_add, Nat.sub_add_cancel (by omega), steps]
      have halved := ofHalves_whole n (e - size.shift) 0
      rw [Nat.zero_add, ← digits] at halved
      rw [if_neg large, halved]
      rfl

theorem value_whole {size : Magnitude} (large : 1074 ≤ size.shift) :
    size.value = (size.mantissa * 2 ^ (size.shift - 1074) : Nat) := by
  obtain ⟨e, he, hone⟩ := Magnitude.one_pow
  have steps : size.steps = size.mantissa * 2 ^ size.shift := rfl
  rw [← he] at large ⊢
  obtain ⟨i, hi⟩ := Nat.exists_eq_add_of_le large
  rw [Magnitude.value, steps, hi, hone, Nat.add_sub_cancel_left, Nat.pow_add]
  push_cast
  field_simp

/-- Of small doubles the last bit is behind the point. -/
theorem shift_lt {size : Magnitude} (small : size.value < 2 ^ 52) : size.shift < 1074 := by
  by_contra whole
  have large := Nat.le_of_not_lt whole
  have bits : 2 ^ 52 ≤ size.mantissa :=
    size.leading.resolve_right fun none => by omega
  have some_bit : 2 ^ 52 ≤ size.mantissa * 2 ^ (size.shift - 1074) :=
    Nat.le_trans bits (Nat.le_mul_of_pos_right _ (Nat.two_pow_pos _))
  have some_bit : (2 ^ 52 : ℚ) ≤ (size.mantissa * 2 ^ (size.shift - 1074) : Nat) := by
    exact_mod_cast some_bit
  rw [value_whole large] at small
  linarith

/-- A double has a decimal if there is room for its bits. -/
theorem ofBinary64?_isSome (negative : Bool) (size : Magnitude) :
    (ofBinary64? (.finite negative size)).isSome ↔ size.value < 2 ^ 96 := by
  by_cases large : 1074 ≤ size.shift
  · have whole := value_whole large
    generalize size.mantissa * 2 ^ (size.shift - 1074) = n at whole
    rw [ofBinary64?_whole negative whole, whole, ofParts?]
    have bound : ((n : ℚ) < 2 ^ 96) ↔ n < Nat.pow 2 96 := by
      rw [← Nat.cast_lt (α := ℚ)]
      exact Iff.of_eq (by norm_num)
    rw [bound]
    split
    · next fits => exact iff_of_true rfl fits.1
    · next full => exact iff_of_false nofun fun fits => full ⟨fits, by decide⟩
  · have small : size.value < 2 ^ 96 := by
      have bits : (size.mantissa : ℚ) < 2 ^ 53 := by exact_mod_cast size.mantissa_lt
      have unit : (1 : ℚ) ≤ 2 ^ (1074 - size.shift) * 10 ^ 0 := by
        rw [pow_zero, mul_one]
        exact one_le_pow₀ (by norm_num)
      rw [value_fraction (Nat.lt_of_not_le large)]
      have := div_le_self (Nat.cast_nonneg (α := ℚ) size.mantissa) unit
      linarith
    refine iff_of_true ?_ small
    by_cases zero : size.mantissa = 0
    · rw [ofBinary64?, if_pos zero]
      rfl
    · obtain ⟨d, read, -⟩ := ofBinary64?_fraction negative zero (Nat.lt_of_not_le large)
      rw [read]
      rfl

end DataAccess.Decimal
