import DataAccess.Proofs.Criteria.Truth
import DataAccess.Proofs.Join.Relational
import DataAccess.Proofs.Sql.Reading

/-!
What conditions and joins mean for the rows of tables. Each clause has the truth it has for a cell,
and a row passes where its condition is true.
-/
namespace DataAccess.Sql

/-- What names of columns stand for: a kind, and the cell of each row. -/
abbrev Scope (ρ : Type) := ColumnRef → Option (Option Kind × (ρ → Value))

/-- The truth for each row, if all names stand for something. -/
def Condition.meaning? {ρ : Type} (scope : Scope ρ) : Condition → Option (ρ → Option Bool)
  | .test c clause positive => do
    let (kind, cell) ← scope c
    pure fun row => (clause.truth kind (cell row)).map (· == positive)
  | .compare c relation positive c' => do
    let (_, cell) ← scope c
    let (_, cell') ← scope c'
    pure fun row => ((cell row).compare (cell' row)).map fun o => relation.holds o == positive
  | .connected operator first second => do
    let a ← first.meaning? scope
    let b ← second.meaning? scope
    pure fun row => operator.kleene [a row, b row]

/-- The columns of a table in rows that hold a row of it. -/
def cells {ρ : Type} (m : Mapping) (row : ρ → Row) (name : String) :
    Option (Option Kind × (ρ → Value)) :=
  (m.named? name).map fun (i, c) => (c.kind, fun r => (row r).cell i)

/-- A table by itself. -/
def bare (m : Mapping) : Scope Row := fun c =>
  match c.qualifier with
  | none => cells m id c.name
  | some _ => none

/-- The cells of a side left out are NULL. -/
def rowOf (side : Side) (row : JoinedRow) : Row :=
  match side with
  | .left => row.left.getD []
  | .right => row.right.getD []

/-- Two tables under different names. -/
def both (left right : String) (p : Pair) : Scope JoinedRow := fun c =>
  if c.qualifier = some left then cells p.left (rowOf .left) c.name
  else if c.qualifier = some right then cells p.right (rowOf .right) c.name
  else none

/-- The rows for which a condition is true. -/
def kept? {ρ : Type} (scope : Scope ρ) (rows : List ρ) : Option Condition → Option (List ρ)
  | none => some rows
  | some c => do
    let truth ← c.meaning? scope
    pure (rows.filter fun row => truth row == some true)

/-- The tables there are, with their columns and rows. -/
abbrev Tables := TableRef → Option (Mapping × List Row)

def Source.rows? (tables : Tables) (s : Source) : Option (Mapping × List Row) := do
  let (m, rows) ← tables s.table
  pure (m, ← kept? (bare m) rows s.filter)

/-- Tables of their own are filtered first, then rows are paired, then pairs are filtered. -/
def Body.rows? (tables : Tables) (b : Body) : Option (List JoinedRow) := do
  let (left, ls) ← b.left.rows? tables
  let (right, rs) ← b.right.rows? tables
  let scope := both b.left.name b.right.name ⟨left, right⟩
  let on ← b.on.meaning? scope
  kept? scope (b.kind.paired (fun x y => on ⟨some x, some y⟩ == some true) ls rs) b.filter

end DataAccess.Sql
