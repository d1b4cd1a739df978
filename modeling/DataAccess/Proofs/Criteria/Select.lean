import DataAccess.Evaluation.Select
import DataAccess.Proofs.Criteria.Truth
import DataAccess.Proofs.Outcome

/-! Criteria that are valid select the rows they admit, sorted and cut. -/
namespace DataAccess.Criteria

variable {m : Mapping} {c : Criteria}

/-- Whether the row is admitted. -/
def passes (c : Criteria) (m : Mapping) (row : Row) : Bool :=
  (c.admits m row).toOption == some true

theorem validate_eq_ok : c.validate m = .ok () ↔
    (∀ e ∈ c.expressions, e.check m = .ok ()) ∧
      ∃ places, SortKey.places m c.orders = .ok places := by
  simp only [validate, Outcome.bind_eq_ok, Outcome.pure_eq_ok, ← Expression.checkAll_eq_ok]
  constructor
  · intro h
    obtain ⟨_, hc, places, hp, -⟩ := h
    exact ⟨hc, places, hp⟩
  · intro h
    obtain ⟨hc, places, hp⟩ := h
    exact ⟨(), hc, places, hp, trivial⟩

/-- Admitting never fails where every expression passes the check. -/
theorem admits_eq_passes (valid : ∀ e ∈ c.expressions, e.check m = .ok ()) (row : Row) :
    c.admits m row = .ok (c.passes m row) := by
  have verdict : ∃ b, c.admits m row = .ok b := by
    unfold admits
    split
    · exact ⟨true, rfl⟩
    · have each : c.expressions.map (Expression.holds m row) =
          (c.expressions.map (Expression.admits m row)).map .ok := by
        rw [List.map_map]
        refine List.map_congr_left fun e he => ?_
        have hh : e.holds m row = _ := Expression.holds_eq_truth (valid e he)
        simp [Expression.admits, hh, Except.toOption]
      rw [Expression.verdicts_eq_map, each, Connective.combine_ok]
      exact ⟨_, rfl⟩
  obtain ⟨b, hb⟩ := verdict
  rw [passes, hb]
  cases b <;> rfl

/-- The truths of the expressions, connected. -/
def truth (c : Criteria) (m : Mapping) (row : Row) : Option Bool :=
  c.operator.kleene (c.expressions.map (·.truth m row))

/-- Criteria with expressions pass the rows for which they are true. -/
theorem passes_eq_truth (nonempty : c.isEmpty = false)
    (valid : ∀ e ∈ c.expressions, e.check m = .ok ()) (row : Row) :
    c.passes m row = (c.truth m row == some true) := by
  have members : c.expressions.map (Expression.holds m row) =
      ((c.expressions.map (·.truth m row)).map (· == some true)).map .ok := by
    rw [List.map_map, List.map_map]
    exact List.map_congr_left fun e he => Expression.holds_eq_truth (valid e he)
  rw [passes, admits, nonempty, if_neg (by simp), Expression.verdicts_eq_map, members,
    Connective.combine_ok, Connective.decided_true, truth]
  cases c.operator.kleene (c.expressions.map (·.truth m row)) == some true <;> rfl

theorem filter_eq (valid : ∀ e ∈ c.expressions, e.check m = .ok ()) (rows : List Row) :
    c.filter m rows = .ok (rows.filter (c.passes m)) := by
  induction rows with
  | nil => rfl
  | cons row rest ih =>
    rw [filter, admits_eq_passes valid, ih, List.filter_cons]
    cases c.passes m row <;> rfl

/-- Selecting filters, sorts and cuts. -/
theorem select_eq (valid : ∀ e ∈ c.expressions, e.check m = .ok ())
    {places : List (Nat × Direction)} (placed : SortKey.places m c.orders = .ok places)
    (rows : List Row) : c.select m rows =
      .ok (c.window.take (StableSort.sort (Row.compareAt places) (rows.filter (c.passes m)))) := by
  simp [select, placed, filter_eq valid]

end DataAccess.Criteria
