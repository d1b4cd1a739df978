import DataAccess.Criteria
import DataAccess.Mapping
import DataAccess.Sql.Dialect

/-! Filters and sort keys as SQL. -/
namespace DataAccess.Sql

def column (ctx : Context) (c : Column) : Pieces :=
  if ctx.qualifier = "" then [.name c.name] else [.text (ctx.qualifier ++ "."), .name c.name]

def tableRef (d : Dialect) (ctx : Context) (t : TableRef) : Pieces :=
  (if t.schema = "" then [] else [.name t.schema, .text "."]) ++ .name t.name ::
    if d.declaresAlias ctx.part ∧ ctx.qualifier ≠ "" then [.text (" AS " ++ ctx.qualifier)] else []

def nullTest (positive : Bool) : Pieces := [.text (if positive then " IS NULL" else " IS NOT NULL")]

/-- A clause on a column, or its negation. -/
def clause (col : Pieces) (positive : Bool) : Clause → Pieces
  | .equal v =>
    if v.isNull then col ++ nullTest positive
    else col ++ [.text (if positive then " = " else " <> "), .parameter v]
  | .equalIgnoringCase v =>
    if v.isNull then col ++ nullTest positive
    else .text "LOWER(" :: col ++
      [.text (if positive then ") = " else ") <> "), .text "LOWER(", .parameter v, .text ")"]
  | .greater v => col ++ [.text (if positive then " > " else " <= "), .parameter v]
  | .lesser v => col ++ [.text (if positive then " < " else " >= "), .parameter v]
  | .between low high =>
    col ++ [.text (if positive then " >= " else " < "), .parameter low,
      .text (if positive then " AND " else " OR ")] ++
      col ++ [.text (if positive then " <= " else " > "), .parameter high]
  | .like pattern =>
    col ++ [.text (if positive then " LIKE " else " NOT LIKE "),
      .parameter (.of (.varchar pattern))]
  | .likeIgnoringCase pattern =>
    .text "LOWER(" :: col ++ [.text (if positive then ") LIKE LOWER(" else ") NOT LIKE LOWER("),
      .parameter (.of (.varchar pattern)), .text ")"]
  | .hasBits mask =>
    .text "(" :: col ++ [.text " & ", .parameter (.of (.int64 mask)),
      .text (if positive then ") = " else ") <> "), .parameter (.of (.int64 mask))]
  | .inList operands =>
    col ++ [.text (if positive then " IN (" else " NOT IN (")] ++
      separated ", " (operands.map fun v => [.parameter v]) ++ [.text ")"]

def conjoined (operator : Connective) (items : List Pieces) : Pieces :=
  separated (" " ++ operator.display ++ " ") items

mutual

/-- In parentheses, whatever it is. -/
def expression (ctx : Context) (m : Mapping) : Expression → Outcome Pieces
  | .test property c positive => do
    let (_, col) ← m.find property
    c.check property
    pure (clause (column ctx col) positive c).parenthesized
  | .group operator expressions _ _ =>
    if expressions.isEmpty then .error emptyGroup
    else do pure (conjoined operator (← expressionList ctx m expressions)).parenthesized
  | .raw clause params => .ok (Pieces.parenthesized (.text clause :: params.map .bound))

def expressionList (ctx : Context) (m : Mapping) : List Expression → Outcome (List Pieces)
  | [] => .ok []
  | e :: rest => do pure ((← expression ctx m e) :: (← expressionList ctx m rest))

end

def expressions (ctx : Context) (m : Mapping) (operator : Connective) (es : List Expression) :
    Outcome Pieces := do
  pure (conjoined operator (← expressionList ctx m es))

def filter (ctx : Context) (m : Mapping) (c : Criteria) : Outcome Pieces :=
  expressions ctx m c.operator c.expressions

/-- Nothing when every row is admitted. -/
def whereClause (ctx : Context) (m : Mapping) (c : Criteria) : Outcome Pieces :=
  if c.isEmpty then .ok []
  else do pure (.text "\nWHERE " :: (← filter (ctx.at .selectWhere) m c))

/-- A computed key is written as it is. -/
def sortKey (ctx : Context) (m : Mapping) (property : String) : Direction → Outcome Pieces
  | .computed => .ok [.text property]
  | direction => do
    let col ← m.column property
    pure (column ctx col ++ [.text (if direction = .descending then " DESC" else " ASC")])

def orderedBy (keys : List Pieces) : Pieces :=
  if keys.isEmpty then [] else .text "\nORDER BY " :: separated ", " keys

def orderBy (ctx : Context) (m : Mapping) (orders : List SortKey) : Outcome Pieces := do
  pure (orderedBy (← orders.mapM fun k => sortKey (ctx.at .selectOrderBy) m k.property k.direction))

end DataAccess.Sql
