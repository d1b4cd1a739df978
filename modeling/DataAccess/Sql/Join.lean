import DataAccess.Join.Criteria
import DataAccess.Sql.Filter

/-!
Joins as SQL. A side filter holds before the join. For a side whose rows need no partner to be
listed it goes behind WHERE, for the other side behind ON; where both are kept each is filtered in
a table of its own.
-/
namespace DataAccess.Sql

def leftAlias : String := "la"
def rightAlias : String := "rb"

def aliasOf : Side → String
  | .left => leftAlias
  | .right => rightAlias

/-- The two tables of a join. -/
structure Pair where
  left : Mapping
  right : Mapping
deriving DecidableEq

def Pair.mapping (p : Pair) : Side → Mapping
  | .left => p.left
  | .right => p.right

def joinKeyword (d : Dialect) : JoinKind → String
  | .inner => "INNER JOIN"
  | .leftOuter => "LEFT JOIN"
  | .rightOuter => "RIGHT JOIN"
  | .outer => d.fullJoin

def relation : Relation → Bool → String
  | .equal, true => " = "
  | .equal, false => " <> "
  | .greater, true => " > "
  | .greater, false => " <= "
  | .lesser, true => " < "
  | .lesser, false => " >= "

def joinExpression (ctx : Context) (p : Pair) (e : JoinExpression) : Outcome Pieces := do
  let left ← p.left.column e.left
  let right ← p.right.column e.right
  pure (Pieces.parenthesized (column (ctx.qualified leftAlias) left ++
    .text (relation e.relation e.positive) :: column (ctx.qualified rightAlias) right))

def joinSource (d : Dialect) (ctx : Context) (m : Mapping) (name : String) :
    Option Criteria → Outcome Pieces
  | none => .ok (tableRef d (ctx.qualified name) m.table)
  | some c => do
    let inner := Context.plain .select
    pure (.text "(SELECT * FROM " :: tableRef d inner m.table ++
      .text " WHERE " :: (← filter (inner.at .selectWhere) m c) ++ [.text (") AS " ++ name)])

/-- Sides filtered in a table of their own, behind ON, and behind WHERE. -/
def sourceSides : JoinKind → List Side
  | .outer => [.left, .right]
  | _ => []
def onSide? : JoinKind → Option Side
  | .leftOuter => some .right
  | .rightOuter => some .left
  | _ => none
def whereSides : JoinKind → List Side
  | .inner => [.left, .right]
  | .leftOuter => [.left]
  | .rightOuter => [.right]
  | .outer => []

def sideFilter (ctx : Context) (p : Pair) (grouped : Bool) (side : Side) (c : Criteria) :
    Outcome Pieces := do
  pure ((← filter (ctx.qualified (aliasOf side)) (p.mapping side) c).parenthesizedIf
    (grouped && decide (1 < c.expressions.length)))

def joinBody (d : Dialect) (p : Pair) (c : JoinCriteria) : Outcome Pieces := do
  c.validate
  let ctx := Context.plain .join
  let source (side : Side) : Outcome Pieces :=
    joinSource d ctx (p.mapping side) (aliasOf side)
      (if side ∈ sourceSides c.kind then c.filter? side else none)
  let left ← source .left
  let right ← source .right
  let on := ctx.at .joinOn
  let onFilter := (onSide? c.kind).bind fun side => (c.filter? side).map (side, ·)
  let predicates ← c.expressions.mapM (joinExpression on p)
  let predicates := (conjoined c.operator predicates).parenthesizedIf
    (onFilter.isSome && decide (1 < c.expressions.length))
  let onFilter ← match onFilter with
    | some (side, f) => do pure (.text " AND " :: (← sideFilter on p true side f) : Pieces)
    | none => pure []
  let filters := (whereSides c.kind).filterMap fun side => (c.filter? side).map (side, ·)
  let filters ← filters.mapM fun (side, f) =>
    sideFilter (ctx.at .selectWhere) p (decide (1 < filters.length)) side f
  let filtered : Pieces :=
    if filters.isEmpty then [] else .text "\nWHERE " :: separated " AND " filters
  pure (.text "\nFROM " :: left ++ .text ("\n" ++ joinKeyword d c.kind ++ " ") :: right ++
    .text " ON " :: predicates ++ onFilter ++ filtered)

def joinColumns (p : Pair) : Pieces :=
  let side (side : Side) : List Pieces := (p.mapping side).columns.map fun c =>
    column ⟨.select, aliasOf side⟩ c ++ [.columnAlias (aliasOf side ++ "_" ++ c.name)]
  separated ", " (side .left ++ side .right)

def joinOrderBy (p : Pair) (orders : List JoinSortKey) : Outcome Pieces := do
  pure (orderedBy (← orders.mapM fun k =>
    sortKey ⟨.selectOrderBy, aliasOf k.side⟩ (p.mapping k.side) k.property k.direction))

end DataAccess.Sql
