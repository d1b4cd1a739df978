import DataAccess.Criteria
import DataAccess.Proofs.Value.Fitted

/-!
Clauses on numeric cells and the conversion of their operands: what a clause says of a cell is what
it says with its operands as they stand, unless the conversion of one of them makes a difference.
-/
namespace DataAccess

namespace Value

theorem fitted_none (v : Value) : v.fitted none = v := by
  rw [fitted]
  split <;> rfl

theorem compare_null (cell : Value) (k kind : Option Kind) :
    cell.compare ((null k).fitted kind) = cell.compare (.null k) := by
  have undecided (k : Option Kind) : cell.compare (.null k) = none := by cases cell <;> rfl
  cases kind with
  | none => rw [fitted_none]
  | some kind =>
    rw [fitted]
    split
    · rfl
    · exact (undecided _).trans (undecided k).symm

end Value

namespace Clause

/-- What a clause compares with a cell. -/
def operands : Clause → List Value
  | .equal v | .equalIgnoringCase v | .greater v | .lesser v => [v]
  | .between low high => [low, high]
  | .inList vs => vs
  | .like _ | .likeIgnoringCase _ | .hasBits _ => []

/-- A clause depends on the kind of its column only by what its operands compare as. -/
theorem truth_congr {kind : Option Kind} {cell : Value} (clause : Clause)
    (same : ∀ v ∈ clause.operands, cell.compare (v.fitted kind) = cell.compare v) :
    clause.truth kind cell = clause.truth none cell := by
  have alike {v : Value} (h : v ∈ clause.operands) :
      cell.compare (v.fitted kind) = cell.compare (v.fitted none) := by
    rw [Value.fitted_none, same v h]
  cases clause with
  | equal v => simp [truth, compares, alike (v := v) (by simp [operands])]
  | equalIgnoringCase v => simp [truth, compares, alike (v := v) (by simp [operands])]
  | greater v => simp [truth, compares, alike (v := v) (by simp [operands])]
  | lesser v => simp [truth, compares, alike (v := v) (by simp [operands])]
  | between low high =>
    simp [truth, alike (v := low) (by simp [operands]), alike (v := high) (by simp [operands])]
  | inList vs =>
    have found : (vs.any fun v => cell.compare (v.fitted kind) == some .eq) =
        vs.any fun v => cell.compare (v.fitted none) == some .eq := by
      rw [Bool.eq_iff_iff, List.any_eq_true, List.any_eq_true]
      exact exists_congr fun v => and_congr_right fun h => by rw [alike h]
    simp only [truth, found]
  | _ => rfl

end Clause

namespace Scalar

variable {s : Scalar}

/-- Among numbers, an operand converted into the kind of the cell compares as it did before unless
the conversion makes a difference. It never does to words; a double then ties; and whatever is
shifted is next to the cell, and is no integer that a double holds beside a cell of few digits. A
clause whose operands are not shifted says the same of the cell with and without conversion. -/
theorem comparisons_fitted (numeric : s.kind.rank = 2) :
    (∀ t : Scalar, t.kind.rank = 2 →
      ((Value.of s).compare ((Value.of t).fitted (some s.kind)) = (Value.of s).compare (.of t) ↔
        ¬s.Shifted t) ∧
      (s.Shifted t → s.kind.bits? = none ∧
        (∃ o o', (Value.of s).compare (.of t) = some o ∧
          (Value.of s).compare ((Value.of t).fitted (some s.kind)) = some o' ∧
          (s.kind = .float64 → o' = .eq)) ∧
        ∃ p q : ℚ, s.number = some (p : Extended) ∧ t.number = some (q : Extended) ∧
          |p - q| ≤ |q| / 2 ^ 46 + 2 / 10 ^ 28) ∧
      ∀ n : Int, t.whole? = some n → n.natAbs < 2 ^ 53 →
        (∀ d, s = .decimal d → d.mantissa < 10 ^ 15 ∧ d.scale ≤ 22) → ¬s.Shifted t) ∧
    ∀ clause : Clause,
      (∀ t : Scalar, .of t ∈ clause.operands → t.kind.rank = 2 ∧ ¬s.Shifted t) →
      clause.truth (some s.kind) (.of s) = clause.truth none (.of s) := by
  refine ⟨fun t ht => ⟨compare_fitted_iff numeric ht,
    fun h => ⟨h.not_word, h.verdicts ht, h.near ht⟩,
    fun n whole short digits => not_shifted_of_short ht whole short digits⟩, fun clause same => ?_⟩
  refine clause.truth_congr fun v h => ?_
  cases v with
  | null k => exact Value.compare_null _ k _
  | of t => exact (compare_fitted_iff numeric (same t h).1).mpr (same t h).2

def evenCell : Scalar := .float64 Value.evenLimit
def oddOperand : Scalar := .int64 9007199254740993

/-- The integer next to the cell is made the cell itself. Three is left as it is. -/
theorem comparisons_fitted_odd :
    evenCell.Shifted oddOperand ∧
      (Clause.greater (.of (.int64 3))).truth (some .float64) (.of evenCell) =
        (Clause.greater (.of (.int64 3))).truth none (.of evenCell) := by
  obtain ⟨each, clauses⟩ := comparisons_fitted (s := evenCell) rfl
  constructor
  · obtain ⟨exact, -⟩ := each oddOperand rfl
    by_contra same
    exact absurd (exact.mpr same) (by decide +kernel)
  · refine clauses _ fun t h => ?_
    obtain rfl : t = .int64 3 := by simpa [Clause.operands] using h
    obtain ⟨-, -, short⟩ := each (.int64 3) rfl
    exact ⟨rfl, short 3 (by decide) (by decide) nofun⟩

/-- A decimal a little above three tenths, and a double a little above that. -/
def tenthsCell : Decimal := ⟨false, 30000000000000001, 17, by decide, by decide⟩
def tenthsOperand : Binary64 := .ofBits 0x3FD3333333333334

/-- The order is lost when the integer is made a double, and turned around when the double is cut to
the digits of a decimal. A test for equality then holds of a cell that is less. -/
theorem comparisons_lost :
    (Value.of evenCell).compare (.of oddOperand) = some .lt ∧
      (Value.of evenCell).compare ((Value.of oddOperand).fitted (some .float64)) = some .eq ∧
      (Clause.equal (.of oddOperand)).truth none (.of evenCell) = some false ∧
      (Clause.equal (.of oddOperand)).truth (some .float64) (.of evenCell) = some true ∧
      (Value.of (.decimal tenthsCell)).compare (.of (.float64 tenthsOperand)) = some .lt ∧
      (Value.of (.decimal tenthsCell)).compare
        ((Value.of (.float64 tenthsOperand)).fitted (some .decimal)) = some .gt := by
  decide +kernel

end Scalar
end DataAccess
