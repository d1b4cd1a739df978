import DataAccess.Numeric.Binary64
import DataAccess.Numeric.Decimal

/-! Numbers that compare as equal: what they have in common, and the comparisons seen from the
other side. -/
namespace DataAccess

namespace Magnitude

theorem steps_lt_of_lt_gap {a : Magnitude} {k : Nat} (coarse : a.shift < k) :
    a.steps < Nat.pow 2 52 * Nat.pow 2 k := by
  obtain ⟨i, rfl⟩ := Nat.exists_eq_add_of_lt coarse
  calc a.mantissa * 2 ^ a.shift < 2 ^ 53 * 2 ^ a.shift :=
        Nat.mul_lt_mul_of_pos_right a.mantissa_lt (Nat.two_pow_pos _)
    _ ≤ 2 ^ 53 * 2 ^ (a.shift + i) :=
        Nat.mul_le_mul_left _ (Nat.pow_le_pow_right (by decide) (Nat.le_add_right _ _))
    _ = 2 ^ 52 * 2 ^ (a.shift + i + 1) := by
        rw [Nat.pow_succ 2 (a.shift + i)]
        omega

/-- A shift is there to keep the first bit in front. -/
theorem steps_lt_of_shift_lt {a b : Magnitude} (h : a.shift < b.shift) : a.steps < b.steps := by
  have leading : Nat.pow 2 52 ≤ b.mantissa := b.leading.resolve_right (by omega)
  exact Nat.lt_of_lt_of_le (steps_lt_of_lt_gap h) (Nat.mul_le_mul_right _ leading)

/-- Each size has one mantissa and one shift. -/
theorem eq_of_steps_eq {a b : Magnitude} (h : a.steps = b.steps) : a = b := by
  have shift : a.shift = b.shift := by
    rcases Nat.lt_trichotomy a.shift b.shift with less | same | more
    · exact absurd h (Nat.ne_of_lt (steps_lt_of_shift_lt less))
    · exact same
    · exact absurd h (Nat.ne_of_gt (steps_lt_of_shift_lt more))
  have mantissa : a.mantissa = b.mantissa := by
    refine Nat.eq_of_mul_eq_mul_right (Nat.two_pow_pos b.shift) ?_
    rwa [steps, steps, shift] at h
  cases a
  cases b
  simp_all

end Magnitude

namespace Binary64

theorem signed_eq_iff {s t : Bool} {m n : Nat} :
    signed s m = signed t n ↔ m = n ∧ (s = t ∨ m = 0) := by
  cases s <;> cases t <;> simp [signed] <;> omega

theorem compare_swap (x y : Binary64) : y.compare x = (x.compare y).map Ordering.swap := by
  cases x with
  | nan => cases y <;> rfl
  | infinite s =>
    cases y with
    | nan => rfl
    | infinite t => exact congrArg some Std.OrientedOrd.eq_swap
    | finite t b => cases s <;> rfl
  | finite s a =>
    cases y with
    | nan => rfl
    | infinite t => cases t <;> rfl
    | finite t b => exact congrArg some Std.OrientedOrd.eq_swap

/-- Doubles that compare as equal are the same, or zeros. -/
theorem eq_of_compare_eq {x y : Binary64} (h : x.compare y = some .eq) :
    x = y ∨ x.integer? = some 0 ∧ y.integer? = some 0 := by
  cases x with
  | nan => simp [compare] at h
  | infinite s =>
    cases y with
    | nan => simp [compare] at h
    | infinite t =>
      refine Or.inl (congrArg _ ?_)
      cases s <;> cases t <;> first | rfl | simp [compare] at h
    | finite t b => cases s <;> simp [compare] at h
  | finite s a =>
    cases y with
    | nan => simp [compare] at h
    | infinite t => cases t <;> simp [compare] at h
    | finite t b =>
      have he : signed s a.steps = signed t b.steps := by simpa [compare] using h
      obtain ⟨hn, hst⟩ := signed_eq_iff.mp he
      obtain rfl := Magnitude.eq_of_steps_eq hn
      rcases hst with rfl | hz
      · exact Or.inl rfl
      · right
        constructor <;> simp [integer?, hz, signed]

theorem signed_mul (s : Bool) (k c : Nat) : signed s (k * c) = signed s k * c := by
  cases s with
  | false => simp [signed]
  | true => simp only [signed, Int.natCast_mul, Int.neg_mul, if_true]

/-- A signed number is a multiple just where its size is one. -/
theorem signed_eq_mul_iff {s : Bool} {m c : Nat} {n : Int} (hc : 0 < c) :
    signed s m = n * c ↔ m % c = 0 ∧ signed s (m / c) = n := by
  have hci : (c : Int) ≠ 0 := by omega
  constructor
  · intro h
    have hm : m = n.natAbs * c := by
      have := congrArg Int.natAbs h
      rw [Int.natAbs_mul, Int.natAbs_natCast] at this
      rw [← this]
      cases s <;> simp [signed]
    rw [hm, Nat.mul_mod_left, Nat.mul_div_cancel _ hc]
    rw [hm, signed_mul] at h
    exact ⟨rfl, Int.eq_of_mul_eq_mul_right hci h⟩
  · intro h
    obtain ⟨hm, rfl⟩ := h
    rw [← signed_mul, Nat.div_mul_cancel (Nat.dvd_of_mod_eq_zero hm)]

theorem one_pos : 0 < one := by decide +kernel

/-- The floor compares, and then the fraction, as the number itself does. -/
theorem compare_floor {n k c : Int} (hc : 0 < c) :
    (Ord.compare n (k / c)).then (if k / c * c < k then .lt else .eq) = Ord.compare (n * c) k := by
  rcases Int.lt_trichotomy n (k / c) with less | rfl | more
  · have below : n * c < k := by
      have next : (n + 1) * c ≤ k := (Int.le_ediv_iff_mul_le hc).mp less
      rw [Int.add_mul, Int.one_mul] at next
      omega
    rw [Int.compare_eq_lt.mpr less, Int.compare_eq_lt.mpr below]
    rfl
  · have floor : k / c * c ≤ k := Int.ediv_mul_le k (Int.ne_of_gt hc)
    rw [Int.compare_eq_eq.mpr rfl, Ordering.eq_then]
    split
    · next fraction => exact (Int.compare_eq_lt.mpr fraction).symm
    · next whole => exact (Int.compare_eq_eq.mpr (by omega)).symm
  · have above : k < n * c := (Int.ediv_lt_iff_lt_mul hc).mp more
    rw [Int.compare_eq_gt.mpr more, Int.compare_eq_gt.mpr above]
    rfl

/-- Integers of 128 bits meet doubles as the numbers they are. -/
theorem compareWide_eq {n : Int} (low : -Nat.pow 2 127 ≤ n) (high : n < Nat.pow 2 127)
    (x : Binary64) : compareWide n x = compareInt n x := by
  cases x with
  | nan => rfl
  | infinite s => rfl
  | finite s a =>
    have hc : (0 : Int) < one := by exact_mod_cast one_pos
    rw [compareWide, compareInt, wide]
    generalize signed s a.steps = k
    generalize (one : Int) = c at hc
    generalize (Nat.pow 2 127 : Int) = limit at low high
    -- A double beyond the limits is beyond all integers within them; any other has a floor there.
    split
    · next beyond =>
      have below : n * c < k := by
        calc n * c < limit * c := Int.mul_lt_mul_of_pos_right high hc
          _ ≤ k := beyond
      rw [Int.compare_eq_lt.mpr below]
    · next within =>
      split
      · next beyond =>
        have above : k < n * c := by
          calc k < -limit * c := by rw [Int.neg_mul]; exact beyond
            _ ≤ n * c := Int.mul_le_mul_of_nonneg_right low (Int.le_of_lt hc)
        rw [Int.compare_eq_gt.mpr above]
      · next within' =>
        have least : -limit ≤ k / c := (Int.le_ediv_iff_mul_le hc).mpr (by rw [Int.neg_mul]; omega)
        have greatest : k / c < limit := (Int.ediv_lt_iff_lt_mul hc).mpr (by omega)
        have floor : max (-limit) (min (k / c) (limit - 1)) = k / c := by omega
        rw [floor, compare_floor hc]

/-- A double equal to an integer denotes it. -/
theorem integer?_of_compareInt_eq {n : Int} {x : Binary64} (h : compareInt n x = some .eq) :
    x.integer? = some n := by
  cases x with
  | nan => simp [compareInt] at h
  | infinite s => cases s <;> simp [compareInt] at h
  | finite s a =>
    have he : n * one = signed s a.steps := by
      simpa only [compareInt, Option.some.injEq, Std.compare_eq_iff_eq] using h
    obtain ⟨hm, hd⟩ := (signed_eq_mul_iff one_pos).mp he.symm
    rw [integer?, if_pos hm, hd]

end Binary64

namespace Decimal

theorem compare_swap (a b : Decimal) : b.compare a = (a.compare b).swap :=
  Std.OrientedOrd.eq_swap

theorem unit_pos (d : Decimal) : 0 < Nat.pow 10 d.scale := Nat.pow_pos (by decide)

theorem integer?_eq_some_iff {d : Decimal} {n : Int} :
    d.integer? = some n ↔ d.signed = n * Nat.pow 10 d.scale := by
  have hs : d.signed = Binary64.signed d.negative d.mantissa := rfl
  rw [hs, Binary64.signed_eq_mul_iff d.unit_pos, integer?]
  simp [Binary64.signed]

/-- Decimals of one value are integers together. -/
theorem integer?_eq_of_compare_eq {a b : Decimal} (h : a.compare b = .eq) :
    a.integer? = b.integer? := by
  have he : a.signed * Nat.pow 10 b.scale = b.signed * Nat.pow 10 a.scale := by
    simpa [compare] using h
  have ha : (Nat.pow 10 a.scale : Int) ≠ 0 := by have := a.unit_pos; omega
  have hb : (Nat.pow 10 b.scale : Int) ≠ 0 := by have := b.unit_pos; omega
  refine Option.ext fun n => ?_
  rw [integer?_eq_some_iff, integer?_eq_some_iff]
  constructor
  · intro hn
    rw [hn, Int.mul_right_comm] at he
    exact (Int.eq_of_mul_eq_mul_right ha he).symm
  · intro hn
    rw [hn, Int.mul_right_comm] at he
    exact Int.eq_of_mul_eq_mul_right hb he

/-- A decimal's integer is no larger than its mantissa. -/
theorem natAbs_lt_of_integer? {d : Decimal} {n : Int} (h : d.integer? = some n) :
    n.natAbs < Nat.pow 2 96 := by
  have hs := congrArg Int.natAbs (integer?_eq_some_iff.mp h)
  have hm : d.signed.natAbs = d.mantissa := by
    rw [signed]
    split <;> simp
  rw [hm, Int.natAbs_mul, Int.natAbs_natCast] at hs
  have hle : n.natAbs ≤ d.mantissa := hs ▸ Nat.le_mul_of_pos_right _ d.unit_pos
  exact Nat.lt_of_le_of_lt hle d.mantissa_lt

end Decimal
end DataAccess
