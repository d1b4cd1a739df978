import DataAccess.Evaluation.Clause
import DataAccess.Mapping

/-! Filters applied to rows, and the check that they can be. -/
namespace DataAccess

/-- Who refuses what only an engine understands. -/
def inProcess : String := "In process evaluation"

def rawRefused (clause : String) : Failure :=
  .unsupportedClause inProcess ("raw clause `" ++ clause ++ "`")

namespace Expression

mutual

def check (m : Mapping) : Expression → Outcome Unit
  | .test property clause _ => do
    let _ ← m.find property
    clause.check property
  | .group _ expressions _ _ =>
    if expressions.isEmpty then .error emptyGroup else checkAll m expressions
  | .raw clause _ => .error (rawRefused clause)

def checkAll (m : Mapping) : List Expression → Outcome Unit
  | [] => .ok ()
  | e :: rest => do
    check m e
    checkAll m rest

end

mutual

def holds (m : Mapping) (row : Row) : Expression → Outcome Bool
  | .test property clause positive => do
    let (i, column) ← m.find property
    pure (clause.matchesCell column.kind (row.cell i) positive)
  | .group operator expressions _ _ =>
    if expressions.isEmpty then .error emptyGroup else operator.combine (verdicts m row expressions)
  | .raw clause _ => .error (rawRefused clause)

def verdicts (m : Mapping) (row : Row) : List Expression → List (Outcome Bool)
  | [] => []
  | e :: rest => holds m row e :: verdicts m row rest

end

end Expression

namespace SortKey

def place (m : Mapping) (key : SortKey) : Outcome (Nat × Direction) :=
  match key.direction with
  | .computed => .error (.unsupportedClause inProcess ("computed order `" ++ key.property ++ "`"))
  | direction => (m.position key.property).map (·, direction)

def places (m : Mapping) (keys : List SortKey) : Outcome (List (Nat × Direction)) :=
  keys.mapM (place m)

end SortKey

namespace Criteria

/-- Whether the criteria can be evaluated, known before any row is seen. -/
def validate (m : Mapping) (c : Criteria) : Outcome Unit := do
  Expression.checkAll m c.expressions
  let _ ← SortKey.places m c.orders

/-- No expressions admit every row, whatever the operator. -/
def admits (m : Mapping) (c : Criteria) (row : Row) : Outcome Bool :=
  if c.isEmpty then .ok true else c.operator.combine (Expression.verdicts m row c.expressions)

end Criteria
end DataAccess
