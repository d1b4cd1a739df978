import DataAccess.Result.Labeled
import DataAccess.Sqlite.Catalog
import DataAccess.Sqlite.Joined
import DataAccess.Sqlite.Naming
import DataAccess.Sqlite.Scan

/-! What the engine makes of a statement. -/
namespace DataAccess.Sqlite

/-- What a statement brings about: a table more or less, changed rows and the number of an inserted
one, or rows. -/
inductive Reply where
  | done
  | changed (rows : Nat) (inserted : Option Int64)
  | found (rows : List LabeledRow)

/-- The windows that the engine reads are a limit with an offset behind it. A word where no window
can stand is taken for another name of the table. -/
def checkSyntax (w : Written) : Answer Unit := do
  let d := w.dialect
  let size := d.size (w.pieces.toOption.getD [])
  let check (window : Window) (named : Bool) : Answer Unit :=
    let text := d.window window
    if text = Sql.Dialect.sqlite.window window then .ok ()
    else
      let start := size - text.utf8ByteSize - 1
      let words := Form.split ' ' (text.toList.drop 1)
      let word (i : Nat) : String := String.ofList (words.getD i [])
      if named then .error (.malformed ⟨word 1, start + (word 0).utf8ByteSize + 2⟩)
      else .error (.malformed ⟨word 0, start + 1⟩)
  match w.statement with
  | .insert m _ =>
    if m.columns.isEmpty then .error (.malformed ⟨")", size - ") VALUES ();".utf8ByteSize⟩)
    else .ok ()
  | .select _ c => check c.window (c.isEmpty && c.orders.isEmpty)
  | .countGrouped _ c groupBy => check c.window (c.isEmpty && groupBy.isEmpty)
  | .join _ c => check c.window false
  | _ => .ok ()

/-- Limits and offsets are signed words; an offset is not looked at when no row is wanted. -/
def checkWindow (w : Window) : Answer Unit :=
  let fits (n : Option Nat) := n.getD 0 < Nat.pow 2 63
  if w.limit = some 0 ∨ fits w.start ∧ fits w.limit then .ok () else .error .mismatch

namespace Table

def update (t : Table) (c : Condition) (cells : List (Nat × Cell)) : Answer (Nat × Table) := do
  let hits := t.rows.filter (c.holds t)
  pure (hits.length, ← hits.foldlM (Table.replace cells) t)

def delete (t : Table) (c : Condition) : Nat × Table :=
  let (hits, rest) := t.rows.partition (c.holds t)
  (hits.length, { t with rows := rest })

/-- Counts for each combination of cells, in their order. Without places all rows are one group. -/
def grouped (t : Table) (c : Condition) (places : List Nat) : List (List Cell × Nat) :=
  let rows := t.rows.filter (c.holds t)
  if places.isEmpty then [([], rows.length)]
  else
    let keys := rows.map fun s => places.map fun i => s.cells.getD i .null
    (StableSort.sort Cell.compareAll keys).foldr (fun key groups => match groups with
      | (k, n) :: rest =>
        if Cell.compareAll key k == .eq then (key, n + 1) :: rest else (key, 1) :: groups
      | [] => [(key, 1)]) []

end Table

namespace Catalog

def insert (c : Catalog) (m : Mapping) (row : Row) : Answer (Reply × Catalog) := do
  let (s, t) ← c.table m.table
  let given ← (m.columns.zip row).mapM fun (column, v) => match t.place? column.name with
    | some i => .ok (i, Cell.ofValue v)
    | none => .error (.noColumnNamed m.table.fullName column.name)
  let (number, t) ← t.insert given
  pure (.changed 1 (some number), c.put s t)

def update (c : Catalog) (w : Written) (m : Mapping) (criteria : Criteria) (values : Assignments) :
    Answer (Reply × Catalog) := do
  let (s, t) ← c.table m.table
  let cells ← values.mapM fun (property, v) => do pure (← t.find m property, Cell.ofValue v)
  t.checkFilter w m criteria
  let (n, t) ← t.update (← Condition.ofCriteria t m criteria) cells
  pure (.changed n none, c.put s t)

def delete (c : Catalog) (w : Written) (m : Mapping) (criteria : Criteria) :
    Answer (Reply × Catalog) := do
  let (s, t) ← c.table m.table
  t.checkFilter w m criteria
  let (n, t) := t.delete (← Condition.ofCriteria t m criteria)
  pure (.changed n none, c.put s t)

/-- A computed key is understood when it is a column's name. -/
def orderOf (t : Table) (m : Mapping) (k : SortKey) : Answer (Nat × Direction) :=
  match k.direction, t.place? k.property with
  | .computed, some i => .ok (i, .ascending)
  | .computed, none => .error (.unreadable k.property)
  | direction, _ => do pure (← t.find m k.property, direction)

def select (c : Catalog) (w : Written) (m : Mapping) (criteria : Criteria) :
    Answer (List LabeledRow) := do
  let (_, t) ← c.table m.table
  t.checkFilter w m criteria
  t.checkOrders w m criteria.orders
  let filter ← Condition.ofCriteria t m criteria
  let orders ← criteria.orders.mapM (orderOf t m)
  checkWindow criteria.window
  let limit := criteria.window.limit.filter (· < Nat.pow 2 31)
  let rows := criteria.window.take (t.scan filter orders limit)
  pure (rows.map fun s => ⟨t.labels, s.cells.map Cell.toValue⟩)

def whole (n : Nat) : Value := .of (.int64 (.ofNat n))
def total (n : Nat) : List LabeledRow := [⟨["COUNT(*)"], [whole n]⟩]

def count (c : Catalog) (w : Written) (m : Mapping) (criteria : Criteria) :
    Answer (List LabeledRow) := do
  let (_, t) ← c.table m.table
  t.checkFilter w m criteria
  let filter ← Condition.ofCriteria t m criteria
  pure (total (t.rows.filter (filter.holds t)).length)

def countGrouped (c : Catalog) (w : Written) (m : Mapping) (criteria : Criteria)
    (groupBy : List String) : Answer (List LabeledRow) := do
  let (_, t) ← c.table m.table
  t.checkGroups w m groupBy
  t.checkFilter w m criteria
  let places ← groupBy.mapM (t.find m)
  let filter ← Condition.ofCriteria t m criteria
  checkWindow criteria.window
  let labels := (List.range places.length).map Sql.groupLabel ++ [Sql.countLabel]
  let groups := criteria.window.take (t.grouped filter places)
  pure (groups.map fun (key, n) => ⟨labels, key.map Cell.toValue ++ [whole n]⟩)

def join (c : Catalog) (w : Written) (p : Sql.Pair) (criteria : JoinCriteria) :
    Answer (List LabeledRow) := do
  let (_, left) ← c.table p.left.table
  let (_, right) ← c.table p.right.table
  checkJoined w left right p criteria (Sql.joinColumns p)
  checkWindow criteria.window
  let j ← Joined.ofCriteria left right p criteria
  let labels (side : Side) :=
    (p.mapping side).labels.map fun label => Sql.aliasOf side ++ "_" ++ label
  pure ((criteria.window.take j.sorted).map fun pair =>
    ⟨labels .left ++ labels .right, j.cells pair⟩)

def joinCount (c : Catalog) (w : Written) (p : Sql.Pair) (criteria : JoinCriteria) :
    Answer (List LabeledRow) := do
  let criteria := { criteria with orders := [] }
  let (_, left) ← c.table p.left.table
  let (_, right) ← c.table p.right.table
  checkJoined w left right p criteria []
  pure (total (← Joined.ofCriteria left right p criteria).pairs.length)

def answer (c : Catalog) (w : Written) : Answer (Reply × Catalog) := do
  checkSyntax w
  match w.statement with
  | .createTable m flag => return (.done, ← c.create w.dialect m flag)
  | .dropTable m flag => return (.done, ← c.drop m flag)
  | .insert m row => c.insert m row
  | .update m criteria values => c.update w m criteria values
  | .delete m criteria => c.delete w m criteria
  | .deleteAll m => do
    let (s, t) ← c.table m.table
    pure (.changed t.rows.length none, c.put s { t with rows := [] })
  | .select m criteria => return (.found (← c.select w m criteria), c)
  | .count m criteria => return (.found (← c.count w m criteria), c)
  | .countGrouped m criteria groupBy =>
    return (.found (← c.countGrouped w m criteria groupBy), c)
  | .join p criteria => return (.found (← c.join w p criteria), c)
  | .joinCount p criteria => return (.found (← c.joinCount w p criteria), c)

/-- The names of the columns that a query gives; the columns of a table as it is now. -/
def labels (c : Catalog) (w : Written) : List String :=
  match w.statement with
  | .select m _ => (c.find? m.table).elim [] fun (_, t) => t.labels
  | _ => []

end Catalog
end DataAccess.Sqlite
