import DataAccess.Proofs.Value.Numbers
import DataAccess.Value.Order
import Mathlib.Data.Int.Order.Basic
import Mathlib.Order.Compare

/-!
Comparing cells: the same verdict from both sides, and equal cells of one kind are the same, but
for numbers.
-/
namespace DataAccess

section

variable {α β : Type} (f : α → β) (cmp : β → β → Ordering)

/-- Comparing by a key. -/
theorem transCmp_key [Std.TransCmp cmp] : Std.TransCmp fun a b => cmp (f a) (f b) where
  eq_swap := Std.OrientedCmp.eq_swap
  isLE_trans := Std.TransCmp.isLE_trans

end

namespace Date

instance : Std.TransCmp compare :=
  inferInstanceAs (Std.TransCmp
    (compareLex (compareOn year) (compareLex (compareOn month) (compareOn day))))

theorem eq_of_compare_eq {a b : Date} (h : a.compare b = .eq) : a = b := by
  rw [compare, Ordering.then_eq_eq, Ordering.then_eq_eq] at h
  obtain ⟨hy, hm, hd⟩ := h
  cases a
  cases b
  simp_all

end Date

namespace Time

instance : Std.TransCmp compare := inferInstanceAs (Std.TransCmp (compareOn sinceMidnight))

theorem eq_of_compare_eq {a b : Time} (h : a.compare b = .eq) : a = b := by
  have he : a.sinceMidnight = b.sinceMidnight := by simpa [compare] using h
  obtain ⟨ha, ma, sa, na, ha', ma', sa', na'⟩ := a
  obtain ⟨hb, mb, sb, nb, hb', mb', sb', nb'⟩ := b
  have hp : Nat.pow 10 9 = 1000000000 := by decide
  simp only [sinceMidnight, hp] at he na' nb'
  have hn : na = nb := by omega
  have hs : sa = sb := by omega
  have hm : ma = mb := by omega
  have hh : ha = hb := by omega
  subst hn hs hm hh
  rfl

end Time

namespace Timestamp

instance : Std.TransCmp compare :=
  have := transCmp_key Timestamp.date Date.compare
  have := transCmp_key Timestamp.time Time.compare
  inferInstanceAs (Std.TransCmp
    (compareLex (fun a b : Timestamp => a.date.compare b.date)
      (fun a b : Timestamp => a.time.compare b.time)))

theorem eq_of_compare_eq {a b : Timestamp} (h : a.compare b = .eq) : a = b := by
  rw [compare, Ordering.then_eq_eq] at h
  have hd := Date.eq_of_compare_eq h.1
  have ht := Time.eq_of_compare_eq h.2
  cases a
  cases b
  simp_all

end Timestamp

namespace Uuid

instance : Std.TransCmp compare :=
  inferInstanceAs (Std.TransCmp (compareOn fun u : Uuid => u.number.toNat))

theorem eq_of_compare_eq {a b : Uuid} (h : a.compare b = .eq) : a = b := by
  have he : a.number.toNat = b.number.toNat := by simpa [compare] using h
  cases a
  cases b
  exact congrArg _ (BitVec.eq_of_toNat_eq he)

end Uuid

namespace Decimal

/-- The number in units of the last place there can be. -/
def units (d : Decimal) : Int := d.signed * (Nat.pow 10 (28 - d.scale) : Nat)

theorem compare_mul_right (x y : Int) {k : Nat} (hk : 0 < k) :
    Ord.compare (x * k) (y * k) = Ord.compare x y := by
  have hk' : (0 : Int) < k := by omega
  rcases Int.lt_trichotomy x y with hlt | rfl | hgt
  · have := Int.mul_lt_mul_of_pos_right hlt hk'
    rw [compare_lt_iff_lt.mpr hlt, compare_lt_iff_lt.mpr this]
  · rw [compare_eq_iff_eq.mpr rfl, compare_eq_iff_eq.mpr rfl]
  · have := Int.mul_lt_mul_of_pos_right hgt hk'
    rw [compare_gt_iff_gt.mpr hgt, compare_gt_iff_gt.mpr this]

theorem scaled_eq (x : Int) {s p : Nat} (t : Nat) (hs : s ≤ p) :
    x * Nat.pow 10 t * Nat.pow 10 p = x * Nat.pow 10 (p - s) * Nat.pow 10 (s + t) := by
  have hp : 10 ^ t * 10 ^ p = 10 ^ (p - s) * 10 ^ (s + t) := by
    rw [← Nat.pow_add, ← Nat.pow_add]
    congr 1
    omega
  have hi := congrArg Int.ofNat hp
  simp only [Int.ofNat_eq_natCast, Int.natCast_mul] at hi
  rw [Int.mul_assoc, Int.mul_assoc]
  exact congrArg (x * ·) hi

/-- In units of one place, decimals compare as integers. -/
theorem compare_eq_units (a b : Decimal) : a.compare b = Ord.compare a.units b.units := by
  have hk (n : Nat) : 0 < Nat.pow 10 n := Nat.pow_pos (by decide)
  have ha := scaled_eq a.signed b.scale a.scale_le
  have hb := scaled_eq b.signed a.scale b.scale_le
  rw [Nat.add_comm b.scale] at hb
  rw [compare, ← compare_mul_right _ _ (hk 28), ha, hb]
  exact compare_mul_right _ _ (hk _)

instance : Std.TransCmp compare := by
  have he : compare = fun a b => Ord.compare (units a) (units b) := by
    funext a b
    exact compare_eq_units a b
  rw [he]
  exact transCmp_key units Ord.compare

end Decimal

namespace Scalar

theorem natAbs_lt_of_integer? {a : Scalar} {n : Int} (h : a.integer? = some n) :
    n.natAbs < Nat.pow 2 96 := by
  have hp : Nat.pow 2 96 = 79228162514264337593543950336 := by decide
  cases a with
  | int32 k =>
    obtain rfl : k.toInt = n := by simpa [integer?] using h
    have := k.toInt_lt
    have := k.le_toInt
    omega
  | int64 k =>
    obtain rfl : k.toInt = n := by simpa [integer?] using h
    have := k.toInt_lt
    have := k.le_toInt
    omega
  | decimal d => exact Decimal.natAbs_lt_of_integer? h
  | _ => simp [integer?] at h

/-- The integers that cells denote are well within 128 bits. -/
theorem compareWide_of_integer? {a : Scalar} {n : Int} (h : a.integer? = some n) :
    Binary64.compareWide n = Binary64.compareInt n := by
  have small := natAbs_lt_of_integer? h
  rw [Nat.pow_eq] at small
  refine funext (Binary64.compareWide_eq ?_ ?_) <;> simp only [Nat.pow_eq] <;> omega

theorem compareNumbers_swap (a b : Scalar) :
    compareNumbers b a = (compareNumbers a b).map Ordering.swap := by
  have doubles (x y : Option Binary64) : (y.bind fun b => x.bind fun a => b.compare a) =
      (x.bind fun a => y.bind fun b => a.compare b).map Ordering.swap := by
    cases x with
    | none => cases y <;> rfl
    | some a =>
      cases y with
      | none => rfl
      | some b => exact Binary64.compare_swap a b
  have twice (o : Option Ordering) : (o.map Ordering.swap).map Ordering.swap = o := by
    cases o with
    | none => rfl
    | some o => exact congrArg some (Ordering.swap_swap)
  simp only [compareNumbers]
  cases a.integer? with
  | none =>
    cases b.integer? with
    | none => exact doubles _ _
    | some n => exact (twice _).symm
  | some m =>
    cases b.integer? with
    | none => rfl
    | some n => exact congrArg some Std.OrientedOrd.eq_swap

/-- The same verdict from both sides. -/
theorem compare_swap (a b : Scalar) : b.compare a = (a.compare b).map Ordering.swap := by
  have numbers := compareNumbers_swap a b
  cases a <;> cases b <;>
    first | exact numbers | exact congrArg some Std.OrientedCmp.eq_swap

/-- What compares as equal is the same, or a number of the same size. -/
theorem eq_of_compare_eq {a b : Scalar} (h : a.compare b = some .eq) :
    a = b ∨ compareNumbers a b = some .eq ∨
      ∃ d e, a = .decimal d ∧ b = .decimal e ∧ d.compare e = .eq := by
  cases a <;> cases b <;>
    first
    | exact Or.inr (Or.inl h)
    | exact Or.inr (Or.inr ⟨_, _, rfl, rfl, Option.some.inj h⟩)
    | exact Or.inl (congrArg _ (Std.LawfulEqCmp.eq_of_compare (Option.some.inj h)))
    | exact Or.inl (congrArg _ (Date.eq_of_compare_eq (Option.some.inj h)))
    | exact Or.inl (congrArg _ (Time.eq_of_compare_eq (Option.some.inj h)))
    | exact Or.inl (congrArg _ (Timestamp.eq_of_compare_eq (Option.some.inj h)))
    | exact Or.inl (congrArg _ (Uuid.eq_of_compare_eq (Option.some.inj h)))

end Scalar

/-! Being equal is the same from both sides too. -/

theorem Binary64.beq_comm (x y : Binary64) : (x == y) = (y == x) := by
  change (x.compare y == some .eq) = (y.compare x == some .eq)
  rw [compare_swap x y]
  rcases x.compare y with _ | _ | _ | _ <;> rfl

theorem Decimal.beq_comm (a b : Decimal) : (a == b) = (b == a) := by
  change (a.compare b == .eq) = (b.compare a == .eq)
  rw [compare_swap a b]
  cases a.compare b <;> rfl

theorem Scalar.beq_comm (s t : Scalar) : (s == t) = (t == s) := by
  cases s <;> cases t <;>
    first
    | exact Binary64.beq_comm _ _
    | exact Decimal.beq_comm _ _
    | exact decide_eq_decide.mpr eq_comm

theorem Value.beq_comm (v w : Value) : (v == w) = (w == v) := by
  cases v <;> cases w
  case null.null => exact decide_eq_decide.mpr eq_comm
  case of.of => exact Scalar.beq_comm _ _
  all_goals rfl

end DataAccess
