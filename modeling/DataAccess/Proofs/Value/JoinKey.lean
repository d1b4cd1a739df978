import DataAccess.Proofs.Numeric.ToDouble
import DataAccess.Proofs.Value.Compare
import Mathlib.Data.Nat.Basic

/-!
Look-up keys of cells that compare as equal. They are the same but for decimals of one value whose
doubles differ: a double is computed from the digits as they are written, trailing zeros included.
Of fifteen digits it is the nearest one however they are written.
-/
namespace DataAccess

namespace Magnitude

theorem pack_lt (a : Magnitude) : a.pack < Nat.pow 2 63 := by
  have hp : Nat.pow 2 52 = 4503599627370496 ∧ Nat.pow 2 53 = 9007199254740992 ∧
    Nat.pow 2 63 = 9223372036854775808 := by decide
  have hs := a.shift_le
  have hm := a.mantissa_lt
  simp only [pack, hp] at hm ⊢
  omega

theorem eq_of_pack_eq {a b : Magnitude} (h : a.pack = b.pack) : a = b := by
  have hp : Nat.pow 2 52 = 4503599627370496 ∧ Nat.pow 2 53 = 9007199254740992 := by decide
  obtain ⟨ma, sa, hma, hsa, hla⟩ := a
  obtain ⟨mb, sb, hmb, hsb, hlb⟩ := b
  simp only [pack, hp.1, hp.2] at h hma hmb hla hlb
  have hs : sa = sb := by omega
  have hm : ma = mb := by omega
  subst hs hm
  rfl

end Magnitude

namespace Binary64

theorem toBits_inj {s : Bool} {a b : Magnitude}
    (h : (finite s a).toBits = (finite s b).toBits) : a = b := by
  have hb : signBit s ≤ Nat.pow 2 63 := by cases s <;> decide
  have hp : Nat.pow 2 63 + Nat.pow 2 63 = 18446744073709551616 := by decide
  have ha := a.pack_lt
  have hb' := b.pack_lt
  have he := congrArg UInt64.toNat h
  simp only [toBits, UInt64.toNat_ofNat'] at he
  rw [Nat.mod_eq_of_lt (by omega), Nat.mod_eq_of_lt (by omega)] at he
  exact Magnitude.eq_of_pack_eq (Nat.add_left_cancel he)

end Binary64

namespace JoinKey

/-- A double's key is the integer it denotes, or its bits. -/
theorem ofDouble_cases (x : Binary64) :
    (∃ n, x.integer? = some n ∧ ofDouble x = .integer n) ∨ ofDouble x = .double x.toBits := by
  rw [ofDouble]
  cases x.integer? with
  | none => exact Or.inr rfl
  | some n =>
    dsimp only
    split
    · exact Or.inl ⟨n, rfl, rfl⟩
    · exact Or.inr rfl

/-- Doubles of one sign have keys of their own. -/
theorem ofDouble_inj {s : Bool} {a b : Magnitude}
    (h : ofDouble (.finite s a) = ofDouble (.finite s b)) : a = b := by
  have steps {c : Magnitude} {n : Int} (hc : (Binary64.finite s c).integer? = some n) :
      Binary64.signed s c.steps = n * Binary64.one := by
    refine (Binary64.signed_eq_mul_iff Binary64.one_pos).mpr ?_
    simpa [Binary64.integer?] using hc
  rcases ofDouble_cases (.finite s a) with ⟨m, hm, ha⟩ | ha <;>
    rcases ofDouble_cases (.finite s b) with ⟨n, hn, hb⟩ | hb <;> rw [ha, hb] at h
  · obtain rfl : m = n := by simpa using h
    have he := (steps hm).trans (steps hn).symm
    exact Magnitude.eq_of_steps_eq (Binary64.signed_eq_iff.mp he).1
  · simp at h
  · simp at h
  · exact Binary64.toBits_inj (by simpa using h)

/-- Integers of decimals and machine words are within the bound. -/
theorem ofDouble_of_integer {x : Binary64} {n : Int} (hx : x.integer? = some n)
    (hn : n.natAbs < Nat.pow 2 96) : ofDouble x = .integer n := by
  have hb : Nat.pow 2 96 < bound := by decide
  rw [ofDouble, hx]
  exact if_pos (Nat.lt_trans hn hb)

end JoinKey

namespace Decimal

/-- Of one value, but with different doubles. -/
def Parted (d e : Decimal) : Prop :=
  d.compare e = .eq ∧ d.integer? = none ∧ d.toBinary64 ≠ e.toBinary64

/-- Decimals of one value other than zero have one sign. -/
theorem negative_eq_of_compare_eq {d e : Decimal} (h : d.compare e = .eq)
    (hd : d.integer? = none) : d.negative = e.negative := by
  have hv : d.signed * Nat.pow 10 e.scale = e.signed * Nat.pow 10 d.scale := by
    simpa [compare] using h
  have nonneg {x : Decimal} (k : Nat) (hx : x.negative = false) : 0 ≤ x.signed * k := by
    simp [signed, hx, Int.mul_nonneg]
  have nonpos {x : Decimal} (k : Nat) (hx : x.negative = true) : x.signed * k ≤ 0 := by
    have := Int.mul_nonneg (Int.natCast_nonneg x.mantissa) (Int.natCast_nonneg k)
    simp only [signed, hx, if_true, Int.neg_mul]
    omega
  have nonzero : d.signed * Nat.pow 10 e.scale ≠ 0 := by
    intro hz
    have he : (Nat.pow 10 e.scale : Int) ≠ 0 := by have := e.unit_pos; omega
    have hs : d.signed = 0 * Nat.pow 10 d.scale := by
      rw [Int.zero_mul]
      exact (Int.mul_eq_zero.mp hz).resolve_right he
    rw [integer?_eq_some_iff.mpr hs] at hd
    exact Option.some_ne_none 0 hd
  cases hdn : d.negative <;> cases hen : e.negative
  · rfl
  · have := nonneg (Nat.pow 10 e.scale) hdn
    have := nonpos (Nat.pow 10 d.scale) hen
    omega
  · have := nonpos (Nat.pow 10 e.scale) hdn
    have := nonneg (Nat.pow 10 d.scale) hen
    omega
  · rfl

theorem some_fraction {d : Decimal} (h : d.integer? = none) : d.mantissa % 10 ^ d.scale ≠ 0 := by
  intro none
  simp [integer?, none] at h

theorem toBinary64_of_fraction {d : Decimal} (h : d.integer? = none) :
    d.toBinary64 = .finite d.negative d.size := by
  obtain ⟨negative, rounded, kept⟩ := d.toBinary64_eq
  rw [rounded, kept fun zero => some_fraction h (by rw [zero, Nat.zero_mod])]

/-- Their keys tell parted decimals from others of one value. -/
theorem ofDouble_eq_iff {d e : Decimal} (h : d.compare e = .eq) (hd : d.integer? = none) :
    JoinKey.ofDouble d.toBinary64 = JoinKey.ofDouble e.toBinary64 ↔ ¬ d.Parted e := by
  have he : e.integer? = none := integer?_eq_of_compare_eq h ▸ hd
  have hn := negative_eq_of_compare_eq h hd
  constructor
  · rintro hk ⟨-, -, hp⟩
    rw [toBinary64_of_fraction hd, toBinary64_of_fraction he, hn] at hk
    exact hp (by rw [toBinary64_of_fraction hd, toBinary64_of_fraction he, hn,
      JoinKey.ofDouble_inj hk])
  · intro hp
    by_cases hne : d.toBinary64 = e.toBinary64
    · rw [hne]
    · exact (hp ⟨h, hd, hne⟩).elim

/-- Decimals of one value and one sign have digits in proportion to their units. -/
theorem digits_of_compare_eq {d e : Decimal} (h : d.compare e = .eq)
    (sign : d.negative = e.negative) :
    d.mantissa * 10 ^ e.scale = e.mantissa * 10 ^ d.scale := by
  have hv : d.signed * Nat.pow 10 e.scale = e.signed * Nat.pow 10 d.scale := by
    simpa [compare] using h
  simp only [signed, sign, Nat.pow_eq] at hv
  cases hn : e.negative
  · simp only [hn, Bool.false_eq_true, if_false] at hv
    exact_mod_cast hv
  · simp only [hn, if_true, Int.neg_mul, Int.neg_inj] at hv
    exact_mod_cast hv

/-- The nearest double is told by the value. -/
theorem not_parted_of_short {d e : Decimal} (hd : d.mantissa < 10 ^ 15) (hd' : d.scale ≤ 22)
    (he : e.mantissa < 10 ^ 15) (he' : e.scale ≤ 22) : ¬ d.Parted e := by
  rintro ⟨equal, fraction, apart⟩
  have fraction' : e.integer? = none := integer?_eq_of_compare_eq equal ▸ fraction
  have sign := negative_eq_of_compare_eq equal fraction
  refine apart ?_
  rw [toBinary64_of_fraction fraction, toBinary64_of_fraction fraction', sign,
    size_of_short hd hd' (some_fraction fraction), size_of_short he he' (some_fraction fraction'),
    Magnitude.near_congr (Nat.pow_pos (by decide)) (Nat.pow_pos (by decide))
      (digits_of_compare_eq equal sign)]

end Decimal

namespace Scalar

theorem key_of_integer? {a : Scalar} {n : Int} (h : a.integer? = some n) :
    JoinKey.ofScalar a = .integer n := by
  unfold JoinKey.ofScalar
  rw [h]

theorem key_of_double? {a : Scalar} {x : Binary64} (h : a.integer? = none)
    (hx : a.double? = some x) : JoinKey.ofScalar a = JoinKey.ofDouble x := by
  cases a with
  | float64 y => simp_all [double?, JoinKey.ofScalar]
  | decimal d => simp_all [double?, JoinKey.ofScalar]
  | int32 k => simp [integer?] at h
  | int64 k => simp [integer?] at h
  | _ => simp [double?] at hx

/-- A number equal to an integer is looked up as that integer. -/
theorem key_of_compareWide {a b : Scalar} {m : Int} (ha : a.integer? = some m)
    (hb : b.integer? = none) (h : b.double?.bind (Binary64.compareWide m) = some .eq) :
    JoinKey.ofScalar b = .integer m := by
  rw [compareWide_of_integer? ha] at h
  obtain ⟨x, hx, he⟩ := Option.bind_eq_some_iff.mp h
  rw [key_of_double? hb hx]
  exact JoinKey.ofDouble_of_integer (Binary64.integer?_of_compareInt_eq he)
    (natAbs_lt_of_integer? ha)

theorem key_of_compareNumbers {a b : Scalar} (h : compareNumbers a b = some .eq) :
    JoinKey.ofScalar a = JoinKey.ofScalar b := by
  unfold compareNumbers at h
  cases ha : a.integer? with
  | some m =>
    cases hb : b.integer? with
    | some n =>
      rw [ha, hb] at h
      obtain rfl : m = n := by simpa using h
      rw [key_of_integer? ha, key_of_integer? hb]
    | none =>
      rw [ha, hb] at h
      rw [key_of_integer? ha, key_of_compareWide ha hb h]
  | none =>
    cases hb : b.integer? with
    | some n =>
      rw [ha, hb] at h
      have he : a.double?.bind (Binary64.compareWide n) = some .eq := by
        obtain ⟨o, ho, hs⟩ := Option.map_eq_some_iff.mp h
        rw [ho, Ordering.swap_eq_eq.mp hs]
      rw [key_of_integer? hb, key_of_compareWide hb ha he]
    | none =>
      rw [ha, hb] at h
      obtain ⟨x, hx, he⟩ := Option.bind_eq_some_iff.mp h
      obtain ⟨y, hy, hxy⟩ := Option.bind_eq_some_iff.mp he
      rw [key_of_double? ha hx, key_of_double? hb hy]
      rcases Binary64.eq_of_compare_eq hxy with rfl | ⟨h0, h1⟩
      · rfl
      · rw [JoinKey.ofDouble_of_integer h0 (by decide), JoinKey.ofDouble_of_integer h1 (by decide)]

end Scalar

theorem Decimal.key_eq_iff {d e : Decimal} (h : d.compare e = .eq) :
    JoinKey.ofScalar (.decimal d) = JoinKey.ofScalar (.decimal e) ↔ ¬ d.Parted e := by
  cases hd : d.integer? with
  | some n =>
    have he := (integer?_eq_of_compare_eq h).symm.trans hd
    rw [Scalar.key_of_integer? (a := .decimal d) hd, Scalar.key_of_integer? (a := .decimal e) he]
    simp [Parted, hd]
  | none =>
    have he := (integer?_eq_of_compare_eq h).symm.trans hd
    rw [Scalar.key_of_double? (a := .decimal d) hd rfl,
      Scalar.key_of_double? (a := .decimal e) he rfl]
    exact ofDouble_eq_iff h hd

namespace Value

/-- Decimals of one value whose doubles differ. -/
def Parted : Value → Value → Prop
  | .of (.decimal d), .of (.decimal e) => d.Parted e
  | _, _ => False

/-- Among cells that compare as equal, only parted decimals have different keys. -/
theorem joinKey?_eq_iff {v w : Value} (h : v.compare w = some .eq) :
    v.joinKey? = w.joinKey? ↔ ¬ v.Parted w := by
  cases v with
  | null k => simp [compare] at h
  | of a =>
    cases w with
    | null k => simp [compare] at h
    | of b =>
      have keys : (Value.of a).joinKey? = (Value.of b).joinKey? ↔
          JoinKey.ofScalar a = JoinKey.ofScalar b := Option.some_inj
      rw [keys]
      constructor
      · intro hk hp
        cases a with
        | decimal d =>
          cases b with
          | decimal e => exact (Decimal.key_eq_iff hp.1).mp hk hp
          | _ => exact hp
        | _ => exact hp
      · intro hp
        rcases Scalar.eq_of_compare_eq h with rfl | hn | ⟨d, e, rfl, rfl, hde⟩
        · rfl
        · exact Scalar.key_of_compareNumbers hn
        · exact (Decimal.key_eq_iff hde).mpr hp

theorem joinKey?_eq_none_iff {v : Value} : v.joinKey? = none ↔ v.isNull = true := by
  cases v <;> simp [joinKey?, isNull]

/-- Of fifteen digits and twenty-two places at most, if it is a decimal. -/
def Short : Value → Prop
  | .of (.decimal d) => d.mantissa < 10 ^ 15 ∧ d.scale ≤ 22
  | _ => True

theorem not_parted_of_short {v w : Value} (hv : v.Short) (hw : w.Short) : ¬ v.Parted w := by
  intro parted
  unfold Parted at parted
  split at parted
  · exact Decimal.not_parted_of_short hv.1 hv.2 hw.1 hw.2 parted
  · exact parted

/-- All but NULLs have a key, and cells that compare as equal share theirs unless they are parted
decimals, which short ones never are. -/
theorem joinKey?_shared (v w : Value) : (v.joinKey? = none ↔ v.isNull = true) ∧
    (v.compare w = some .eq → (v.joinKey? = w.joinKey? ↔ ¬ v.Parted w) ∧
      (v.Short → w.Short → v.joinKey? = w.joinKey?)) := by
  refine ⟨joinKey?_eq_none_iff, fun equal => ⟨joinKey?_eq_iff equal, fun hv hw => ?_⟩⟩
  exact (joinKey?_eq_iff equal).mpr (not_parted_of_short hv hw)

/-- One and nine tenths, with zeros behind them. -/
def padded (zeros : Fin 22) : Value :=
  .of (.decimal ⟨false, 19 * 10 ^ zeros.val, zeros + 1, by
    have : 10 ^ zeros.val ≤ 10 ^ 21 := Nat.pow_le_pow_right (by decide) (by omega)
    simp only [Nat.pow_eq]
    omega, by omega⟩)

/-- One zero more leaves the key as it is, but twenty-one do not. -/
theorem joinKey?_shared_padded : (padded 0).compare (padded 1) = some .eq ∧
    (padded 0).joinKey? = (padded 1).joinKey? ∧
    (padded 0).compare (padded 21) = some .eq ∧ (padded 0).joinKey? ≠ (padded 21).joinKey? := by
  have short : (padded 0).compare (padded 1) = some .eq := by decide +kernel
  have long : (padded 0).compare (padded 21) = some .eq := by decide +kernel
  have parted : (padded 0).Parted (padded 21) :=
    ⟨by decide +kernel, by decide +kernel, by decide +kernel⟩
  refine ⟨short, ?_, long, fun same => ?_⟩
  · exact ((joinKey?_shared _ _).2 short).2 ⟨by decide, by decide⟩ ⟨by decide, by decide⟩
  · exact ((joinKey?_shared _ _).2 long).1.mp same parted

end Value
end DataAccess
