import DataAccess.Failure

/-! Tables and their columns. Criteria name a column by its property, statements by its name. -/
namespace DataAccess

structure TableRef where
  schema : String
  name : String
deriving DecidableEq

def TableRef.fullName (t : TableRef) : String :=
  if t.schema = "" then t.name else t.schema ++ "." ++ t.name

structure Column where
  property : String
  name : String
  kind : Option Kind
  nullable : Bool
  primaryKey : Bool
deriving DecidableEq

namespace Column

/-- A key, which is never NULL. -/
def key (property name : String) (kind : Kind) : Column := ⟨property, name, kind, false, true⟩
def required (property name : String) (kind : Kind) : Column := ⟨property, name, kind, false, false⟩
def optional (property name : String) (kind : Kind) : Column := ⟨property, name, kind, true, false⟩

end Column

structure Mapping where
  table : TableRef
  columns : List Column
deriving DecidableEq

namespace Mapping

def unknown (m : Mapping) (property : String) : Failure :=
  .unknownProperty m.table.fullName property

/-- The first column of a property, with its place in the row. -/
def find (m : Mapping) (property : String) : Outcome (Nat × Column) :=
  match m.columns.zipIdx.find? (·.1.property = property) with
  | some (column, i) => .ok (i, column)
  | none => .error (m.unknown property)

def position (m : Mapping) (property : String) : Outcome Nat := (m.find property).map (·.1)
def column (m : Mapping) (property : String) : Outcome Column := (m.find property).map (·.2)
def labels (m : Mapping) : List String := m.columns.map (·.name)

def primaryKeys (m : Mapping) : List Nat :=
  (m.columns.zipIdx.filter (·.1.primaryKey)).map (·.2)

/-- The places that tell whether a row is there: the primary key, or all without one. -/
def keyPositions (m : Mapping) : List Nat :=
  if m.primaryKeys.isEmpty then List.range m.columns.length else m.primaryKeys

end Mapping

def Row.cell (row : Row) (i : Nat) : Value := row.getD i (.null none)

end DataAccess
