import DataAccess.Join.Expression
import DataAccess.Proofs.Value.Compare

/-!
Predicates between the cells of a pair, seen from the other side and turned into their negations. A
pair of cells that do not compare is matched by neither a predicate nor its negation.
-/
namespace DataAccess

theorem Value.compare_swap (v w : Value) : w.compare v = (v.compare w).map Ordering.swap := by
  cases v <;> cases w <;> first | rfl | exact Scalar.compare_swap _ _

theorem Relation.flip_flip (r : Relation) : r.flip.flip = r := by cases r <;> rfl

theorem Relation.holds_flip (r : Relation) (o : Ordering) : r.flip.holds o.swap = r.holds o := by
  cases r <;> cases o <;> rfl

namespace JoinExpression

theorem matchesCells_flip (e : JoinExpression) (v w : Value) :
    e.flip.matchesCells w v = e.matchesCells v w := by
  rw [matchesCells, matchesCells, Value.compare_swap v w]
  cases v.compare w with
  | none => rfl
  | some o => exact congrArg (· == e.positive) (e.relation.holds_flip o)

theorem flip_flip (e : JoinExpression) : e.flip.flip = e := by
  rw [flip, flip, Relation.flip_flip]

theorem invert_invert (e : JoinExpression) : e.invert.invert = e := by
  rw [invert, invert, Bool.not_not]

/-- The negation is matched by what compares and does not match. -/
theorem matchesCells_invert (e : JoinExpression) (v w : Value) :
    e.invert.matchesCells v w = ((v.compare w).isSome && !e.matchesCells v w) := by
  rw [matchesCells, matchesCells]
  cases v.compare w with
  | none => rfl
  | some o =>
    simp only [invert, Option.isSome_some, Bool.true_and]
    cases e.relation.holds o <;> cases e.positive <;> rfl

theorem compare_of_matchesCells {e : JoinExpression} {v w : Value}
    (h : e.matchesCells v w = true) : (v.compare w).isSome = true := by
  rw [matchesCells] at h
  cases found : v.compare w with
  | none => simp [found] at h
  | some o => rfl

/-- Flipping keeps what is matched and inverting excludes it. Both are undone by doing them again,
and it does not matter which is done first. Of a predicate and its negation never both match, and one
of them does just where the cells compare, which they do in opposite ways from the two sides. -/
theorem flip_and_invert (e : JoinExpression) (v w : Value) :
    e.flip.matchesCells w v = e.matchesCells v w ∧
      e.flip.flip = e ∧ e.invert.invert = e ∧ e.flip.invert = e.invert.flip ∧
      (e.matchesCells v w && e.invert.matchesCells v w) = false ∧
      (e.matchesCells v w ^^ e.invert.matchesCells v w) = (v.compare w).isSome ∧
      w.compare v = (v.compare w).map Ordering.swap ∧
      (w.compare v).isSome = (v.compare w).isSome := by
  refine ⟨e.matchesCells_flip v w, e.flip_flip, e.invert_invert, rfl, ?_, ?_,
    Value.compare_swap v w, ?_⟩
  · rw [matchesCells_invert]
    cases e.matchesCells v w <;> simp
  · rw [matchesCells_invert]
    cases matched : e.matchesCells v w with
    | true => simp [compare_of_matchesCells matched]
    | false => simp
  · rw [Value.compare_swap v w, Option.isSome_map]

end JoinExpression
end DataAccess
