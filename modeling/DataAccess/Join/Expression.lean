import DataAccess.Value.Order

/-! Predicates between a column of the left table and one of the right. -/
namespace DataAccess

inductive Relation where
  | equal | greater | lesser
deriving DecidableEq

namespace Relation

def holds : Relation → Ordering → Bool
  | .equal, o => o == .eq
  | .greater, o => o == .gt
  | .lesser, o => o == .lt

/-- The relation seen from the other side. -/
def flip : Relation → Relation
  | .equal => .equal
  | .greater => .lesser
  | .lesser => .greater

end Relation

structure JoinExpression where
  relation : Relation
  left : String
  right : String
  positive : Bool
deriving DecidableEq

namespace JoinExpression

def invert (e : JoinExpression) : JoinExpression := { e with positive := !e.positive }
def flip (e : JoinExpression) : JoinExpression := ⟨e.relation.flip, e.right, e.left, e.positive⟩

/-- Cells that do not compare match neither the predicate nor its negation. -/
def matchesCells (e : JoinExpression) (left right : Value) : Bool :=
  match left.compare right with
  | some o => e.relation.holds o == e.positive
  | none => false

end JoinExpression
end DataAccess
