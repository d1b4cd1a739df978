import DataAccess.Failure

/-! Joining terms by AND or OR. -/
namespace DataAccess

inductive Connective where
  | and | or
deriving DecidableEq

namespace Connective

def display : Connective → String
  | .and => "AND"
  | .or => "OR"

def dual : Connective → Connective
  | .and => .or
  | .or => .and

/-- The truth of no terms, which further terms may change. -/
def neutral : Connective → Bool
  | .and => true
  | .or => false

/-- The first term that fails or decides is the answer. -/
def combine (c : Connective) : List (Outcome Bool) → Outcome Bool
  | [] => .ok c.neutral
  | term :: rest => do if (← term) = c.neutral then c.combine rest else pure !c.neutral

/-- How many terms have a say. -/
def reached (c : Connective) : List (Outcome Bool) → Nat
  | [] => 0
  | .ok b :: rest => if b = c.neutral then c.reached rest + 1 else 1
  | .error _ :: _ => 1

end Connective
end DataAccess
