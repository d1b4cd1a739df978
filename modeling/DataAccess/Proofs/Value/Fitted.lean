import DataAccess.Evaluation.Clause
import DataAccess.Proofs.Value.Converted

/-!
A cell compared with an operand that has been converted into the kind of the cell. Words never see
a difference. A double sees one where it is the double of an integer that it is not, and a decimal
where its own double, or the decimal of the operand's double, is on another side.
-/
namespace DataAccess

namespace Scalar

variable {s t : Scalar} {n : Int} {d : Decimal} {x y : Binary64}

theorem natAbs_le_of_integer? (integer : t.integer? = some n) : n.natAbs ≤ 2 ^ 128 :=
  Nat.le_trans (natAbs_lt_of_integer? integer).le (by decide)

theorem fitted_self (t : Scalar) : (Value.of t).fitted (some t.kind) = .of t := if_pos rfl

theorem fitted_of_coerce {kind : Kind} {made : Option Scalar} {shown : Scalar}
    (other : t.kind ≠ kind) (h : (Value.of t).coerce (some kind) = madeOr made shown kind) :
    (Value.of t).fitted (some kind) = .of (made.getD t) := by
  have unlike : (Value.of t).kind ≠ some kind := fun same => other (Option.some.inj same)
  rw [Value.fitted, if_neg unlike, h]
  cases made <;> rfl

theorem fitted_of_convert? {kind : Kind} (other : t.kind ≠ kind)
    (plain : t.coerce kind = t.convert kind) :
    (Value.of t).fitted (some kind) = .of ((t.convert? kind).getD t) :=
  fitted_of_coerce other (coerce_eq_convert? plain)

/-- The conversion of the operand into the kind of the cell makes a difference: the cell is the
double of an integer that is no double, or the operand, or else what the decimal of a cell counts
as, is on another side after it. -/
def Shifted : Scalar → Scalar → Prop
  | .float64 x, t => ∃ n, t.integer? = some n ∧ x.StandsFor n
  | .decimal d, .float64 y => d.Crossed y
  | .decimal d, t => ∃ n, t.word? = some n ∧ d.Oversteps n
  | _, _ => False

/-- An operand becomes a word only as the integer that it is. -/
theorem compare_fitted_word {bits : Nat} (width : s.kind.bits? = some bits)
    (hs : s.kind.rank = 2) (ht : t.kind.rank = 2) :
    (Value.of s).compare ((Value.of t).fitted (some s.kind)) = s.compare t := by
  by_cases same : t.kind = s.kind
  · rw [← same, fitted_self]
    rfl
  by_cases way : t.kind = .float64 → s.kind = .int64
  · obtain ⟨shown, -, coerced⟩ := coerce_word ht width way
    rw [fitted_of_coerce same coerced]
    cases made : t.whole?.bind (ofInteger? · s.kind) with
    | none => rfl
    | some w =>
      obtain ⟨n, whole, word⟩ := Option.bind_eq_some_iff.mp made
      obtain ⟨kind, word⟩ := (ofInteger?_eq_some_iff width).mp word
      have unlike : s.kind ≠ .decimal := fun h => by rw [h] at width; cases width
      have exact : s.compare w = s.compare t := by
        rw [compare_eq_met hs (kind ▸ hs) (.inl unlike), compare_eq_met hs ht (.inl unlike),
          met_of_word word, met_of_whole? whole]
      exact exact
  · obtain ⟨double, narrow⟩ := Classical.not_imp.mp way
    cases t with
    | float64 y =>
      have coerced : (Value.of (float64 y)).coerce (some s.kind) =
          madeOr none (float64 y) s.kind := by
        cases h : s.kind <;> rw [h] at width narrow <;> cases width
        · rfl
        · exact absurd rfl narrow
      rw [fitted_of_coerce same coerced]
      rfl
    | _ => cases double

/-- The double that an operand becomes: that of the integer it is, or the number it counts as. -/
theorem exists_fitted_double (ht : t.kind.rank = 2) :
    ∃ y, (Value.of t).fitted (some .float64) = .of (.float64 y) ∧
      (∀ n, t.integer? = some n → y.denoted = (Binary64.ofInt n).denoted) ∧
      (t.integer? = none → y.denoted = t.met) := by
  rcases numeric_cases ht with ⟨n, word⟩ | ⟨y, rfl⟩ | ⟨d, rfl⟩
  · have whole := integer?_of_word word
    refine ⟨.ofInt n, ?_, fun m same => ?_, fun none => ?_⟩
    · cases t <;> cases word <;> rfl
    · rw [Option.some.inj (whole.symm.trans same)]
    · exact nomatch whole.symm.trans none
  · exact ⟨y, rfl, nofun, fun _ => rfl⟩
  · exact ⟨d.toBinary64, rfl, fun n whole => Decimal.denoted_whole whole, fun fraction => by
      have none : d.integer? = none := fraction
      rw [Decimal.denoted_toBinary64 none, met, Decimal.met, if_pos none]⟩

theorem compare_fitted_double (x : Binary64) (ht : t.kind.rank = 2) :
    (Value.of (.float64 x)).compare ((Value.of t).fitted (some .float64)) =
      (float64 x).compare t ↔ ¬(float64 x).Shifted t := by
  obtain ⟨y, fitted, whole, fraction⟩ := exists_fitted_double ht
  have verdict : (Value.of (.float64 x)).compare (.of (.float64 y)) =
      x.denoted.bind fun p => y.denoted.map (cmp p) := Binary64.compare_eq_cmp x y
  have unlike : (float64 x).kind ≠ .decimal ∨ t.kind ≠ .decimal :=
    .inl (kind_ne_decimal_of_double x)
  rw [fitted, verdict]
  cases integer : t.integer? with
  | none =>
    rw [fraction integer, compare_eq_met rfl ht unlike]
    exact iff_of_true rfl fun ⟨n, same, _⟩ => nomatch integer.symm.trans same
  | some n =>
    have small := natAbs_le_of_integer? integer
    have number := met_of_whole? (whole?_of_integer? integer)
    have shifted : (float64 x).Shifted t ↔ x.StandsFor n :=
      ⟨fun ⟨m, same, stands⟩ => Option.some.inj (integer.symm.trans same) ▸ stands,
        fun stands => ⟨n, integer, stands⟩⟩
    rw [whole n integer, ← Binary64.compare_eq_cmp, shifted, ← Binary64.compare_ofInt_iff small,
      compare_eq_map_met rfl ht unlike number]
    rfl

theorem exists_fitted_decimal (word : t.word? = some n) :
    ∃ e, (Value.of t).fitted (some .decimal) = .of (.decimal e) ∧ e.value = n := by
  obtain ⟨e, made, number⟩ :=
    Decimal.ofInt?_value (natAbs_lt_of_integer? (integer?_of_word word))
  refine ⟨e, ?_, number⟩
  rw [fitted_of_convert? (kind_ne_decimal_of_word word) (by cases t <;> cases word <;> rfl)]
  cases t <;> cases word <;> simp [convert?, ofInteger?, made]

theorem fitted_double_decimal (y : Binary64) : (Value.of (.float64 y)).fitted (some .decimal) =
    .of (((Decimal.ofBinary64? y).map decimal).getD (.float64 y)) :=
  fitted_of_convert? (kind_ne_decimal_of_double y) rfl

theorem shifted_word_iff (word : t.word? = some n) : (decimal d).Shifted t ↔ d.Oversteps n := by
  cases t <;> cases word <;>
    exact ⟨fun ⟨m, same, past⟩ => Option.some.inj same ▸ past, fun past => ⟨_, rfl, past⟩⟩

theorem compare_fitted_decimal (d : Decimal) (ht : t.kind.rank = 2) :
    (Value.of (.decimal d)).compare ((Value.of t).fitted (some .decimal)) =
      (decimal d).compare t ↔ ¬(decimal d).Shifted t := by
  rcases numeric_cases ht with ⟨n, word⟩ | ⟨y, rfl⟩ | ⟨e, rfl⟩
  · obtain ⟨e, fitted, number⟩ := exists_fitted_decimal word
    rw [fitted, compare_decimals, number, compare_decimal_word d word, shifted_word_iff word,
      Decimal.oversteps_iff_met, not_ne_iff, Option.some_inj, eq_comm]
  · rw [fitted_double_decimal, compare_decimal_double]
    cases made : Decimal.ofBinary64? y with
    | none =>
      exact iff_of_true (compare_decimal_double d y) fun ⟨e, _, same, _⟩ =>
        nomatch made.symm.trans same
    | some e =>
      obtain ⟨p, number⟩ := Decimal.exists_denoted made
      have crossed := Decimal.crossed_iff (d := d) made number
      rw [Option.map_some, Option.getD_some, compare_decimals, number, Option.map_some,
        Option.some_inj, Extended.cmp_rat]
      exact eq_comm.trans (not_ne_iff.symm.trans crossed.symm.not)
  · rw [show Kind.decimal = (decimal e).kind from rfl, fitted_self]
    exact iff_of_true rfl nofun

theorem Shifted.not_word (h : s.Shifted t) : s.kind.bits? = none := by
  cases s with
  | int32 m => cases t <;> exact h.elim
  | int64 m => cases t <;> exact h.elim
  | _ => rfl

/-- A conversion makes the difference only where a cell compares as it is, and where it compares
with the operand converted. A double then ties with the operand converted. -/
theorem Shifted.verdicts (ht : t.kind.rank = 2) (h : s.Shifted t) :
    ∃ o o', s.compare t = some o ∧
      (Value.of s).compare ((Value.of t).fitted (some s.kind)) = some o' ∧
      (s.kind = .float64 → o' = .eq) := by
  cases s with
  | float64 x =>
    obtain ⟨n, integer, stands, -⟩ := h
    obtain ⟨y, fitted, whole, -⟩ := exists_fitted_double ht
    have small := natAbs_le_of_integer? integer
    obtain ⟨p, rounded, -⟩ := Binary64.denoted_ofInt small
    have tie : (Value.of (.float64 x)).compare (.of (.float64 y)) = some .eq :=
      Binary64.compare_eq_iff.mpr ⟨_, stands.trans rounded, (whole n integer).trans rounded⟩
    have exact := compare_eq_map_met (s := .float64 x) rfl ht (.inl (kind_ne_decimal_of_double x))
      (met_of_whole? (whole?_of_integer? integer))
    have number : (float64 x).met = some (p : Extended) := stands.trans rounded
    rw [number, Option.map_some] at exact
    exact ⟨_, _, exact, (congrArg _ fitted).trans tie, fun _ => rfl⟩
  | decimal d =>
    rcases numeric_cases ht with ⟨n, word⟩ | ⟨y, rfl⟩ | ⟨e, rfl⟩
    · obtain ⟨e, fitted, -⟩ := exists_fitted_decimal word
      have converted := (congrArg _ fitted).trans (compare_decimals d e)
      exact ⟨_, _, compare_decimal_word d word, converted, nofun⟩
    · obtain ⟨e, p, made, number, -⟩ := h
      have fitted := fitted_double_decimal y
      rw [made] at fitted
      have converted := (congrArg _ fitted).trans (compare_decimals d e)
      have exact := compare_decimal_double d y
      rw [number, Option.map_some] at exact
      exact ⟨_, _, exact, converted, nofun⟩
    · obtain ⟨n, word, -⟩ := h
      cases word
  | _ => cases t <;> exact h.elim

theorem compare_fitted_iff (hs : s.kind.rank = 2) (ht : t.kind.rank = 2) :
    (Value.of s).compare ((Value.of t).fitted (some s.kind)) = s.compare t ↔ ¬s.Shifted t := by
  cases s with
  | int32 m => exact iff_of_true (compare_fitted_word rfl hs ht) (by cases t <;> exact id)
  | int64 m => exact iff_of_true (compare_fitted_word rfl hs ht) (by cases t <;> exact id)
  | float64 x => exact compare_fitted_double x ht
  | decimal d => exact compare_fitted_decimal d ht
  | _ => cases hs

/-- A conversion makes a difference only for cells next to the operand. -/
theorem Shifted.near (ht : t.kind.rank = 2) (h : s.Shifted t) :
    ∃ p q : ℚ, s.number = some (p : Extended) ∧ t.number = some (q : Extended) ∧
      |p - q| ≤ |q| / 2 ^ 46 + 2 / 10 ^ 28 := by
  cases s with
  | float64 x =>
    obtain ⟨n, integer, stands, -⟩ := h
    have small := natAbs_le_of_integer? integer
    obtain ⟨p, rounded, close⟩ := Binary64.denoted_ofInt small
    have pos := abs_nonneg (n : ℚ)
    exact ⟨p, n, stands.trans rounded, number_eq_int_iff.mpr (whole?_of_integer? integer),
      close.trans (by linarith)⟩
  | decimal d =>
    rcases numeric_cases ht with ⟨n, word⟩ | ⟨y, rfl⟩ | ⟨e, rfl⟩
    · have near := ((shifted_word_iff word).mp h).near.trans d.rounded_error
      rw [abs_sub_comm] at near
      have number := number_eq_int_iff.mpr (whole?_of_integer? (integer?_of_word word))
      exact ⟨d.value, n, rfl, number, (relative_swap near).trans (by linarith)⟩
    · obtain ⟨e, p, -, number, -⟩ := id h
      exact ⟨d.value, p, rfl, number, Decimal.Crossed.near h number⟩
    · obtain ⟨n, word, -⟩ := h
      cases word
  | _ => cases t <;> exact h.elim

/-- No conversion of an integer that a double holds makes a difference for cells of few digits. -/
theorem not_shifted_of_short (ht : t.kind.rank = 2) (whole : t.whole? = some n)
    (short : n.natAbs < 2 ^ 53)
    (digits : ∀ d, s = .decimal d → d.mantissa < 10 ^ 15 ∧ d.scale ≤ 22) : ¬s.Shifted t := by
  cases s with
  | float64 x =>
    rintro ⟨m, integer, stands⟩
    obtain rfl := Option.some.inj (whole.symm.trans (whole?_of_integer? integer))
    exact Binary64.not_standsFor_of_short short stands
  | decimal d =>
    obtain ⟨few, places⟩ := digits d rfl
    rcases numeric_cases ht with ⟨m, word⟩ | ⟨y, rfl⟩ | ⟨e, rfl⟩
    · rw [shifted_word_iff word]
      exact Decimal.not_oversteps_of_short few places m
    · exact Decimal.not_crossed_of_short few places whole
    · rintro ⟨m, word, -⟩
      cases word
  | _ => cases t <;> exact id

end Scalar
end DataAccess
