import DataAccess.Evaluation.Select
import DataAccess.Keyed
import DataAccess.Sql.Statement

/-!
Tables kept in process, under their full names. What comes in takes its column's kind; keys are
compared when a row is inserted.
-/
namespace DataAccess.Memory

/-- Rows in the order they came. -/
abbrev Tables := Keyed String (List Row)

/-- Why a change is refused: by the storage, which tells its log, or as a mistake of the caller. -/
inductive Refusal where
  | storage (reason : String)
  | caller (failure : Failure)

abbrev Change := Except Refusal

def noTable (m : Mapping) : Refusal := .storage ("no such table: " ++ m.table.fullName)

namespace Tables

def rows (t : Tables) (m : Mapping) : Change (List Row) :=
  match t.find? m.table.fullName with
  | some rows => .ok rows
  | none => .error (noTable m)

def create (t : Tables) (m : Mapping) (ifNotExists : Bool) : Change Tables :=
  match t.find? m.table.fullName with
  | none => .ok (t.put m.table.fullName [])
  | some _ =>
    if ifNotExists then .ok t
    else .error (.storage ("table " ++ m.table.fullName ++ " already exists"))

def drop (t : Tables) (m : Mapping) (ifExists : Bool) : Change Tables :=
  match t.find? m.table.fullName with
  | some _ => .ok (t.erase m.table.fullName)
  | none => if ifExists then .ok t else .error (noTable m)

/-- A cell for a column: of the column's kind, and NULL only where that is allowed. -/
def cellFor (m : Mapping) (c : Column) (v : Value) : Change Value := do
  let v ← (v.coerce c.kind).mapError .caller
  if v.isNull && !c.nullable then
    throw (.storage ("NOT NULL constraint failed: " ++ m.table.fullName ++ "." ++ c.name))
  pure v

def sameKeys (keys : List Nat) (a b : Row) : Bool := keys.all fun i => a.cell i == b.cell i

def insert (t : Tables) (m : Mapping) (row : Row) : Change Tables := do
  let row ← (m.columns.zip row).mapM fun (c, v) => cellFor m c v
  let rows ← t.rows m
  if !m.primaryKeys.isEmpty && rows.any (sameKeys m.primaryKeys · row) then
    throw (.storage ("UNIQUE constraint failed: " ++ m.table.fullName))
  pure (t.put m.table.fullName (rows ++ [row]))

/-- Which rows the filter admits. -/
def matched (m : Mapping) (c : Criteria) (rows : List Row) : Change (List Bool) :=
  (rows.mapM (c.admits m)).mapError .caller

def assign (row : Row) (cells : List (Nat × Value)) : Row :=
  cells.foldl (fun row (i, v) => row.set i v) row

def update (t : Tables) (m : Mapping) (c : Criteria) (values : Assignments) :
    Change (Nat × Tables) := do
  (c.validate m).mapError .caller
  let cells ← values.mapM fun (property, v) => do
    let (i, column) ← (m.find property).mapError .caller
    pure (i, ← cellFor m column v)
  let rows ← t.rows m
  let hits ← matched m c rows
  let rows := List.zipWith (fun row hit => if hit then assign row cells else row) rows hits
  pure (hits.count true, t.put m.table.fullName rows)

def delete (t : Tables) (m : Mapping) (c : Criteria) : Change (Nat × Tables) := do
  (c.validate m).mapError .caller
  let rows ← t.rows m
  let hits ← matched m c rows
  let kept := (rows.zip hits).filterMap fun (row, hit) => if hit then none else some row
  pure (hits.count true, t.put m.table.fullName kept)

def deleteAll (t : Tables) (m : Mapping) : Change (Nat × Tables) := do
  let rows ← t.rows m
  pure (rows.length, t.put m.table.fullName [])

end Tables
end DataAccess.Memory
