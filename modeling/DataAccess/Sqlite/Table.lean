import DataAccess.Mapping
import DataAccess.Sql.Dialect
import DataAccess.Sqlite.Affinity
import DataAccess.Sqlite.Refusal

/-!
Tables of the engine. Every row has a number, which is its key where the table has a single integer
key, and rows are kept in the order of their numbers.
-/
namespace DataAccess.Sqlite

/-- Names are told apart without regard to case. -/
def sameName (a b : String) : Bool := lowered a == lowered b

structure Stored where
  number : Int64
  cells : List Cell
deriving DecidableEq

/-- A column as it was declared. Texts and blobs are taken to weigh five numbers. -/
structure Field where
  name : String
  affinity : Affinity
  weight : Nat
  required : Bool
  key : Bool
deriving DecidableEq

/-- `numberPlace` is where the number of a row is also a cell of it. -/
structure Table where
  name : String
  fields : List Field
  numberPlace : Option Nat
  rows : List Stored
deriving DecidableEq

namespace Table

/-- A column that is the whole key may be NULL; one of the type INTEGER numbers the rows. -/
def declare (d : Sql.Dialect) (m : Mapping) : Table :=
  let single := decide ((m.columns.filter (·.primaryKey)).length = 1)
  let field (c : Column) : Field :=
    let type := d.kind c.kind
    ⟨c.name, .ofType type, if sameName type "TEXT" || sameName type "BLOB" then 5 else 1,
      !c.nullable && !(c.primaryKey && single), c.primaryKey⟩
  let numbers (c : Column) : Bool := c.primaryKey && single && sameName (d.kind c.kind) "INTEGER"
  ⟨m.table.name, m.columns.map field, m.columns.findIdx? numbers, []⟩

def labels (t : Table) : List String := t.fields.map (·.name)
def affinities (t : Table) : List Affinity := t.fields.map (·.affinity)
def affinity (t : Table) (place : Nat) : Affinity := t.affinities.getD place .blob
def keyPlaces (t : Table) : List Nat := (t.fields.zipIdx.filter (·.1.key)).map (·.2)
/-- Whether no cell at a place is NULL. -/
def isRequired (t : Table) (place : Nat) : Bool :=
  t.numberPlace == some place || t.fields[place]?.any (·.required)

def place? (t : Table) (column : String) : Option Nat :=
  t.fields.findIdx? fun f => sameName f.name column

def insertRow (s : Stored) : List Stored → List Stored
  | [] => [s]
  | r :: rest => if r.number < s.number then r :: insertRow s rest else s :: r :: rest

def nextNumber (t : Table) : Int64 :=
  match t.rows.getLast? with
  | some r => r.number + 1
  | none => 1

/-- The number that the cells of a row ask for; a new row may leave it open. -/
def numberFor (t : Table) (fresh : Option Int64) (cells : List Cell) : Answer Int64 :=
  match t.numberPlace, fresh with
  | none, some number => .ok number
  | none, none => .error .mismatch
  | some i, _ => match cells[i]?, fresh with
    | some (.integer n), _ => .ok n
    | some .null, some number => .ok number
    | _, _ => .error .mismatch

def withNumber (t : Table) (number : Int64) (cells : List Cell) : List Cell :=
  match t.numberPlace with
  | some i => cells.set i (.integer number)
  | none => cells

def checkNulls (t : Table) (cells : List Cell) : Answer Unit :=
  match (t.fields.zip cells).find? fun (f, cell) => f.required && cell.isNull with
  | some (f, _) => .error (.nullCell t.name f.name)
  | none => .ok ()

def keyOf (t : Table) (s : Stored) : List Cell := t.keyPlaces.filterMap (s.cells[·]?)

/-- Two rows clash when they have one number, or one key without a NULL in it. -/
def clashes (t : Table) (a b : Stored) : Bool :=
  match t.numberPlace with
  | some _ => decide (a.number = b.number)
  | none => !t.keyPlaces.isEmpty && (t.keyOf a).all (!·.isNull) &&
    Cell.compareAll (t.keyOf a) (t.keyOf b) == .eq

def add (t : Table) (s : Stored) : Answer Table := do
  t.checkNulls s.cells
  if t.rows.any (t.clashes s) then
    throw (.notUnique t.name (t.keyPlaces.filterMap fun i => t.fields[i]?.map (·.name)))
  pure { t with rows := insertRow s t.rows }

def fitted (t : Table) (cells : List Cell) : List Cell :=
  List.zipWith Affinity.fit t.affinities cells

/-- Puts a row in and tells its number. Of several cells for one place the first one counts, but the
last one is the number. -/
def insert (t : Table) (given : List (Nat × Cell)) : Answer (Int64 × Table) := do
  let cellAt (i : Nat) : Cell :=
    ((if t.numberPlace = some i then given.reverse else given).lookup i).getD .null
  let cells := t.fitted ((List.range t.fields.length).map cellAt)
  let number ← t.numberFor (some t.nextNumber) cells
  pure (number, ← t.add ⟨number, t.withNumber number cells⟩)

def without (t : Table) (s : Stored) : Table :=
  { t with rows := t.rows.filter fun r => decide (r.number ≠ s.number) }

/-- Replaces a row. -/
def replace (given : List (Nat × Cell)) (t : Table) (s : Stored) : Answer Table := do
  let fresh := t.fitted (given.foldl (fun row (i, cell) => row.set i cell) s.cells)
  let number ← t.numberFor (if t.numberPlace.isSome then none else some s.number) fresh
  (t.without s).add ⟨number, fresh⟩

end Table
end DataAccess.Sqlite
