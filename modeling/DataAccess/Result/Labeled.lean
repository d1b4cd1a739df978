import DataAccess.Mapping

/-! Rows whose cells are found by label. -/
namespace DataAccess

structure LabeledRow where
  labels : List String
  cells : Row

namespace LabeledRow

def position? (row : LabeledRow) (label : String) : Option Nat :=
  row.labels.findIdx? (· = label)

def find? (row : LabeledRow) (label : String) : Option Value :=
  (row.position? label).bind (row.cells[·]?)

/-- Moves a cell out: the same label gives NULL from then on. -/
def take? (row : LabeledRow) (label : String) : Option (Value × LabeledRow) :=
  (row.position? label).map fun i =>
    (row.cells.cell i, { row with cells := row.cells.set i (.null none) })

end LabeledRow

namespace Mapping

/-- Failures of a row that came back, told apart from a caller's mistakes. -/
def undecodable {α : Type} (m : Mapping) : Outcome α → Outcome α :=
  Except.mapError (.resultProcessing m.table.fullName)

def projectColumns (m : Mapping) (coerce : Value → Option Kind → Outcome Value) :
    List Column → LabeledRow → Outcome Row
  | [], _ => .ok []
  | c :: rest, row => do
    let (cell, row) ← m.undecodable ((row.take? c.name).elim
      (.error (.other ("column `" ++ c.name ++ "` is missing from the row"))) .ok)
    let cell ← m.undecodable (coerce cell c.kind)
    pure (cell :: (← m.projectColumns coerce rest row))

/-- The cells in column order, each as its column's kind. -/
def project (m : Mapping) (coerce : Value → Option Kind → Outcome Value) (row : LabeledRow) :
    Outcome Row :=
  m.projectColumns coerce m.columns row

end Mapping
end DataAccess
