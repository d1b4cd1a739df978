import DataAccess.Evaluation.StableSort
import DataAccess.Join.Criteria
import DataAccess.Query
import DataAccess.Sqlite.Condition

/-!
Joins of tables of the engine. Pairs come in the order of the left rows, then of the right ones, and
right rows left over come last.
-/
namespace DataAccess.Sqlite

/-- A predicate between a column of each side, compared as their classes say. -/
structure JoinTest where
  left : Nat
  right : Nat
  affinity : Affinity
  expression : JoinExpression

def JoinTest.holds (k : JoinTest) (left right : Stored) : Bool :=
  (k.affinity.compare (left.cells.getD k.left .null) (right.cells.getD k.right .null)).any fun o =>
    k.expression.relation.holds o == k.expression.positive

/-- An outer join leaves a side out where there was no partner. -/
abbrev StoredPair := Option Stored × Option Stored

/-- A side of a join: the rows of a table that pass a filter. -/
structure JoinSide where
  mapping : Mapping
  table : Table
  filter : Condition

namespace JoinSide

def rows (j : JoinSide) : List Stored := j.table.rows.filter (j.filter.holds j.table)

/-- The cells of the mapping's columns, NULL for a side left out. -/
def cells (j : JoinSide) (row : Option Stored) : Row :=
  j.mapping.columns.map fun c =>
    (row.bind fun s => (j.table.place? c.name).bind (s.cells[·]?)).elim (.null none) Cell.toValue

end JoinSide

structure Joined where
  kind : JoinKind
  operator : Connective
  left : JoinSide
  right : JoinSide
  tests : List JoinTest
  orders : List (Side × Nat × Direction)

namespace Joined

def sideOf (t : Table) (m : Mapping) (filter : Option Criteria) : Answer JoinSide := do
  pure ⟨m, t, ← Condition.ofCriteria t m (filter.getD .all)⟩

def testOf (left right : JoinSide) (e : JoinExpression) : Answer JoinTest := do
  let l ← left.table.find left.mapping e.left
  let r ← right.table.find right.mapping e.right
  pure ⟨l, r, (left.table.affinity l).join (right.table.affinity r), e⟩

def ofCriteria (left right : Table) (p : Sql.Pair) (criteria : JoinCriteria) : Answer Joined := do
  let left ← sideOf left p.left (criteria.filter? .left)
  let right ← sideOf right p.right (criteria.filter? .right)
  let tests ← criteria.expressions.mapM (testOf left right)
  let orders ← criteria.orders.mapM fun k => do
    if k.direction = .computed then throw (.unreadable k.property)
    let j := match k.side with
      | .left => left
      | .right => right
    pure (k.side, ← j.table.find j.mapping k.property, k.direction)
  pure ⟨criteria.kind, criteria.operator, left, right, tests, orders⟩

def meets (j : Joined) (left right : Stored) : Bool :=
  match j.operator with
  | .and => j.tests.all (·.holds left right)
  | .or => j.tests.any (·.holds left right)

def pairs (j : Joined) : List StoredPair :=
  let left := j.left.rows
  let right := j.right.rows
  let partnered := left.flatMap fun l =>
    let partners := right.filter (j.meets l)
    if partners.isEmpty && j.kind.preservesLeft then [(some l, none)]
    else partners.map fun r => (some l, some r)
  partnered ++ if j.kind.preservesRight then
      (right.filter fun r => !left.any (j.meets · r)).map fun r => (none, some r)
    else []

def cellAt (pair : StoredPair) (side : Side) (place : Nat) : Cell :=
  let row := match side with
    | .left => pair.1
    | .right => pair.2
  row.elim .null fun s => s.cells.getD place .null

def comparePairs (j : Joined) (a b : StoredPair) : Ordering :=
  j.orders.foldl (fun o (side, i, direction) =>
    o.then (direction.apply ((cellAt a side i).compare (cellAt b side i)))) .eq

def sorted (j : Joined) : List StoredPair := StableSort.sort j.comparePairs j.pairs

def cells (j : Joined) (pair : StoredPair) : Row := j.left.cells pair.1 ++ j.right.cells pair.2

end Joined
end DataAccess.Sqlite
