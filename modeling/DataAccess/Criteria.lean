import DataAccess.Criteria.Connective
import DataAccess.Criteria.Sorting
import DataAccess.Criteria.Window

/-! What rows are asked for: a filter, an order and a window. -/
namespace DataAccess

/-- What is asked of one cell. Ends of `between` are in; `hasBits` wants every bit of the mask. -/
inductive Clause where
  | equal (operand : Value)
  | equalIgnoringCase (operand : Value)
  | greater (operand : Value)
  | lesser (operand : Value)
  | between (low high : Value)
  | like (pattern : String)
  | likeIgnoringCase (pattern : String)
  | hasBits (mask : Int64)
  | inList (operands : List Value)
deriving BEq

/-- A clause on a property, or its negation; a group; or an engine's own text. -/
inductive Expression where
  | test (property : String) (clause : Clause) (positive : Bool)
  | group (operator : Connective) (expressions : List Expression) (orders : List SortKey)
      (window : Window)
  | raw (clause : String) (params : List Value)
deriving BEq

structure Criteria where
  operator : Connective
  expressions : List Expression
  orders : List SortKey
  window : Window
deriving BEq

def Clause.name : Clause → String
  | .equal _ => "Equal"
  | .equalIgnoringCase _ => "EqualCaseInsensitive"
  | .greater _ => "Greater"
  | .lesser _ => "Lesser"
  | .between .. => "Between"
  | .like _ => "Like"
  | .likeIgnoringCase _ => "LikeCaseInsensitive"
  | .hasBits _ => "BitwiseAnd"
  | .inList _ => "PropertyInList"

def emptyGroup : Failure := .emptyCriteria "nested criteria"

/-- The operands a clause cannot do with. -/
def Clause.check (property : String) (clause : Clause) : Outcome Unit :=
  match clause with
  | .greater v | .lesser v =>
    if v.isNull then .error (.nullOperand property clause.name) else .ok ()
  | .between low high =>
    if low.isNull || high.isNull then .error (.nullOperand property clause.name) else .ok ()
  | .inList operands => if operands.isEmpty then .error (.emptyInList property) else .ok ()
  | _ => .ok ()

namespace Expression

def name : Expression → String
  | .test _ clause _ => clause.name
  | .group .. => "Nested"
  | .raw .. => "RawClause"

def property? : Expression → Option String
  | .test property .. => some property
  | _ => none

def isPositive : Expression → Bool
  | .test _ _ positive => positive
  | _ => true

mutual

/-- The complement. What an engine's own text excludes is not known. -/
def invert : Expression → Outcome Expression
  | .test property clause positive => .ok (.test property clause !positive)
  | .group operator expressions orders window => do
    pure (.group operator.dual (← invertAll expressions) orders window)
  | .raw clause _ => .error (.unsupportedInvert clause)

def invertAll : List Expression → Outcome (List Expression)
  | [] => .ok []
  | e :: rest => do pure ((← invert e) :: (← invertAll rest))

end

end Expression

namespace Criteria

/-- Every row, in storage order. -/
def all : Criteria := ⟨.and, [], [], .all⟩

def allOf (expressions : List Expression) : Criteria := { all with expressions }
def anyOf (expressions : List Expression) : Criteria := { all with operator := .or, expressions }
def isEmpty (c : Criteria) : Bool := c.expressions.isEmpty
def filterOnly (c : Criteria) : Criteria := { c with orders := [], window := .all }
def start (c : Criteria) (n : Nat) : Criteria :=
  { c with window := { c.window with start := some n } }
def limit (c : Criteria) (n : Nat) : Criteria :=
  { c with window := { c.window with limit := some n } }
def orderBy (c : Criteria) (property : String) (direction : Direction) : Criteria :=
  { c with orders := c.orders ++ [⟨property, direction⟩] }

def invert (c : Criteria) : Outcome Criteria := do
  pure { c with expressions := (← Expression.invertAll c.expressions), operator := c.operator.dual }

/-- As one expression, order and window included. -/
def grouped (c : Criteria) : Expression := .group c.operator c.expressions c.orders c.window

end Criteria

/-- A group has neither order nor window. -/
def Expression.nested (c : Criteria) : Expression := c.filterOnly.grouped

end DataAccess
