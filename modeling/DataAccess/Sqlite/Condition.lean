import DataAccess.Mapping
import DataAccess.Sqlite.Table

/-! Filters on the cells of a table, with the columns found. -/
namespace DataAccess.Sqlite

inductive Condition where
  | test (place : Nat) (clause : Clause) (positive : Bool)
  | group (operator : Connective) (parts : List Condition)

/-- What cannot be evaluated is no statement that the engine knows. -/
def readable {α : Type} : Outcome α → Answer α := Except.mapError (.unreadable ·.message)

/-- The place of a property's column. -/
def Table.find (t : Table) (m : Mapping) (property : String) : Answer Nat := do
  let c ← readable (m.column property)
  match t.place? c.name with
  | some i => .ok i
  | none => .error (.noSuchColumn c.name none)

namespace Condition

/-- True of every row. -/
def always : Condition := .group .and []

/-- NULL has no case to ignore. -/
def plain : Clause → Clause
  | .equalIgnoringCase v => if v.isNull then .equal v else .equalIgnoringCase v
  | clause => clause

mutual

def ofExpression (t : Table) (m : Mapping) : Expression → Answer Condition
  | .test property clause positive => do pure (.test (← t.find m property) (plain clause) positive)
  | .group operator expressions _ _ => do
    pure (.group operator (← ofExpressions t m expressions))
  | .raw clause _ => .error (.unreadable clause)

def ofExpressions (t : Table) (m : Mapping) : List Expression → Answer (List Condition)
  | [] => .ok []
  | e :: rest => do pure ((← ofExpression t m e) :: (← ofExpressions t m rest))

end

/-- No expressions admit every row, whatever the operator. -/
def ofCriteria (t : Table) (m : Mapping) (c : Criteria) : Answer Condition := do
  if c.isEmpty then pure always else pure (.group c.operator (← ofExpressions t m c.expressions))

mutual

def holds (t : Table) (s : Stored) : Condition → Bool
  | .test place clause positive =>
    (t.affinity place).admits (s.cells.getD place .null) positive clause
  | .group .and parts => holdsAll t s parts
  | .group .or parts => holdsAny t s parts

def holdsAll (t : Table) (s : Stored) : List Condition → Bool
  | [] => true
  | c :: rest => holds t s c && holdsAll t s rest

def holdsAny (t : Table) (s : Stored) : List Condition → Bool
  | [] => false
  | c :: rest => holds t s c || holdsAny t s rest

end

mutual

/-- What must hold together. -/
def conjuncts : Condition → List Condition
  | .group .and parts => conjunctsAll parts
  | .group .or [part] => conjuncts part
  | c => [c]

def conjunctsAll : List Condition → List Condition
  | [] => []
  | c :: rest => conjuncts c ++ conjunctsAll rest

end

mutual

/-- Of what one must hold. -/
def disjuncts : Condition → List Condition
  | .group .or parts => disjunctsAll parts
  | .group .and [part] => disjuncts part
  | .test place (.between low high) false =>
    [.test place (.lesser low) true, .test place (.greater high) true]
  | c => [c]

def disjunctsAll : List Condition → List Condition
  | [] => []
  | c :: rest => disjuncts c ++ disjunctsAll rest

end

mutual

/-- The columns that a condition is about. -/
def places : Condition → List Nat
  | .test place _ _ => [place]
  | .group _ parts => placesAll parts

def placesAll : List Condition → List Nat
  | [] => []
  | c :: rest => places c ++ placesAll rest

end

mutual

/-- How many groups a condition is made of. -/
def groups : Condition → Nat
  | .test .. => 0
  | .group _ parts => groupsAll parts + 1

def groupsAll : List Condition → Nat
  | [] => 0
  | c :: rest => groups c + groupsAll rest

end

end Condition
end DataAccess.Sqlite
