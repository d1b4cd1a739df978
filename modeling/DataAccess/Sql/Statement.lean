import DataAccess.Sql.Join

/-! Statements and their text. -/
namespace DataAccess

/-- A new value for each property. -/
abbrev Assignments := List (String × Value)

inductive Statement where
  | createTable (m : Mapping) (ifNotExists : Bool)
  | dropTable (m : Mapping) (ifExists : Bool)
  | insert (m : Mapping) (row : Row)
  | update (m : Mapping) (c : Criteria) (values : Assignments)
  | delete (m : Mapping) (c : Criteria)
  | deleteAll (m : Mapping)
  | select (m : Mapping) (c : Criteria)
  | count (m : Mapping) (c : Criteria)
  | countGrouped (m : Mapping) (c : Criteria) (groupBy : List String)
  | join (p : Sql.Pair) (c : JoinCriteria)
  | joinCount (p : Sql.Pair) (c : JoinCriteria)

namespace Sql

def createTable (d : Dialect) (m : Mapping) (ifNotExists : Bool) : Pieces :=
  let keys := m.columns.filter (·.primaryKey)
  let column (c : Column) : Pieces := [.name c.name, .text " ", .kind c.kind] ++
    if c.primaryKey ∧ keys.length = 1 then [.text " PRIMARY KEY"]
    else if c.nullable then [] else [.text " NOT NULL"]
  .text ("CREATE TABLE " ++ if ifNotExists then "IF NOT EXISTS " else "") ::
    tableRef d (.plain .createTable) m.table ++
    .text " (\n" :: separated ",\n" (m.columns.map column) ++
    (if 1 < keys.length then
      .text ",\nPRIMARY KEY (" :: separated ", " (keys.map fun c => [.name c.name]) ++ [.text ")"]
    else []) ++ [.text "\n);"]

def dropTable (d : Dialect) (m : Mapping) (ifExists : Bool) : Pieces :=
  .text ("DROP TABLE " ++ if ifExists then "IF EXISTS " else "") ::
    tableRef d (.plain .dropTable) m.table ++ [.text ";"]

def insert (d : Dialect) (m : Mapping) (row : Row) : Outcome Pieces :=
  if row.length ≠ m.columns.length then
    .error (.other ("Table `" ++ m.table.fullName ++ "` has " ++ toString m.columns.length ++
      " columns but the row has " ++ toString row.length ++ " values"))
  else .ok (.text "INSERT INTO " :: tableRef d (.plain .insertInto) m.table ++
    .text " (" :: separated ", " (m.columns.map fun c => [.name c.name]) ++
    .text ") VALUES (" :: separated ", " (row.map fun v => [.parameter v]) ++ [.text ");"])

def assignment (m : Mapping) (a : String × Value) : Outcome Pieces := do
  pure [.name (← m.column a.1).name, .text " = ", .parameter a.2]

def update (d : Dialect) (m : Mapping) (c : Criteria) (values : Assignments) : Outcome Pieces := do
  if c.isEmpty then throw (.emptyCriteria "update")
  if values.isEmpty then throw .emptyAssignment
  let assignments ← values.mapM (assignment m)
  pure (.text "UPDATE " :: tableRef d (.plain .update) m.table ++
    .text " SET " :: separated ", " assignments ++
    (← whereClause (.plain .updateWhere) m c) ++ [.text ";"])

def delete (d : Dialect) (m : Mapping) (c : Criteria) : Outcome Pieces := do
  if c.isEmpty then throw (.emptyCriteria "delete")
  pure (.text "DELETE FROM " :: tableRef d (.plain .deleteFrom) m.table ++
    (← whereClause (.plain .deleteFromWhere) m c) ++ [.text ";"])

def deleteAll (d : Dialect) (m : Mapping) : Pieces :=
  .text "DELETE FROM " :: tableRef d (.plain .deleteFrom) m.table ++ [.text ";"]

/-- From a table, what passes the filter. -/
def fromWhere (d : Dialect) (m : Mapping) (c : Criteria) : Outcome Pieces := do
  pure (.text "\nFROM " :: tableRef d (.plain .selectFrom) m.table ++
    (← whereClause (.plain .select) m c))

def select (d : Dialect) (m : Mapping) (c : Criteria) : Outcome Pieces := do
  pure (.text "SELECT *" :: (← fromWhere d m c) ++ (← orderBy (.plain .select) m c.orders) ++
    [.text (d.window c.window), .text ";"])

/-- The window is applied to the total by the caller. -/
def count (d : Dialect) (m : Mapping) (c : Criteria) : Outcome Pieces := do
  pure (.text "SELECT COUNT(*)" :: (← fromWhere d m c) ++ [.text ";"])

def groupLabel (i : Nat) : String := "gb_" ++ toString i
def countLabel : String := "gb_count"

/-- A group's cells, then its count; groups in the order of their cells. -/
def countGrouped (d : Dialect) (m : Mapping) (c : Criteria) (groupBy : List String) :
    Outcome Pieces := do
  let columns ← groupBy.mapM m.column
  let shown := columns.zipIdx.flatMap fun (col, i) =>
    column (.plain .select) col ++ [.columnAlias (groupLabel i), .text ", "]
  let listed := separated ", " (columns.map (column (.plain .selectGroupBy)))
  let grouped : Pieces :=
    if columns.isEmpty then [] else .text "\nGROUP BY " :: listed ++ .text "\nORDER BY " :: listed
  pure (.text "SELECT " :: shown ++ [.text "COUNT(*)", .columnAlias countLabel] ++
    (← fromWhere d m c) ++ grouped ++ [.text (d.window c.window), .text ";"])

def joinSelect (d : Dialect) (p : Pair) (c : JoinCriteria) : Outcome Pieces := do
  pure (.text "SELECT " :: joinColumns p ++ (← joinBody d p c) ++ (← joinOrderBy p c.orders) ++
    [.text (d.window c.window), .text ";"])

def joinCount (d : Dialect) (p : Pair) (c : JoinCriteria) : Outcome Pieces := do
  pure (.text "SELECT COUNT(*)" :: (← joinBody d p c) ++ [.text ";"])

def begin : String := "BEGIN;"
def commit : String := "COMMIT;"
def rollback : String := "ROLLBACK;"

end Sql

namespace Statement

def pieces (d : Sql.Dialect) : Statement → Outcome Sql.Pieces
  | .createTable m ifNotExists => .ok (Sql.createTable d m ifNotExists)
  | .dropTable m ifExists => .ok (Sql.dropTable d m ifExists)
  | .insert m row => Sql.insert d m row
  | .update m c values => Sql.update d m c values
  | .delete m c => Sql.delete d m c
  | .deleteAll m => .ok (Sql.deleteAll d m)
  | .select m c => Sql.select d m c
  | .count m c => Sql.count d m c
  | .countGrouped m c groupBy => Sql.countGrouped d m c groupBy
  | .join p c => Sql.joinSelect d p c
  | .joinCount p c => Sql.joinCount d p c

end Statement
end DataAccess
