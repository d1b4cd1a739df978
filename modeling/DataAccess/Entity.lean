import DataAccess.Backend
import DataAccess.Join.Execution
import DataAccess.Value.Native

/-! Types kept in a table: one row for each value. -/
namespace DataAccess

/-- Where the values of a type are kept, and how they are written and read. -/
structure Entity (α : Type) where
  mapping : Mapping
  row : α → Row
  read : LabeledRow → Outcome α

namespace LabeledRow

/-- Moves the cell of a label out. -/
def field (label : String) : StateT LabeledRow Outcome Value := fun row =>
  match row.take? label with
  | some taken => .ok taken
  | none => .error (.other ("column `" ++ label ++ "` is missing"))

def required (α : Type) [Native α] (label : String) : StateT LabeledRow Outcome α := do
  StateT.lift (Native.ofValue (← field label))

def optional (α : Type) [Native α] (label : String) : StateT LabeledRow Outcome (Option α) := do
  StateT.lift (Native.ofNullable (← field label))

end LabeledRow

namespace Entity

variable {σ α β : Type}

/-- Failures to read a row are the row's. -/
def decode (e : Entity α) (row : LabeledRow) : Outcome α := e.mapping.undecodable (e.read row)

def decodeRow (e : Entity α) (cells : Row) : Outcome α := e.decode ⟨e.mapping.labels, cells⟩

def createTable (e : Entity α) (b : Backend σ) (ifNotExists : Bool) : Action σ Unit :=
  b.createTable e.mapping ifNotExists
def dropTable (e : Entity α) (b : Backend σ) (ifExists : Bool) : Action σ Unit :=
  b.dropTable e.mapping ifExists
def insertOne (e : Entity α) (b : Backend σ) (a : α) : Action σ Affected :=
  b.insert e.mapping (e.row a)
def insertMany (e : Entity α) (b : Backend σ) (items : List α) : Action σ Affected :=
  b.insertBatch e.mapping (items.map e.row)

def findMany (e : Entity α) (b : Backend σ) (c : Criteria) : Action σ (List α) := do
  let rows ← b.fetch e.mapping c
  Action.of (rows.mapM e.decodeRow)

def findOne (e : Entity α) (b : Backend σ) (c : Criteria) : Action σ (Option α) := do
  pure (← e.findMany b (c.limit 1)).head?

def count (e : Entity α) (b : Backend σ) (c : Criteria) : Action σ Nat := b.count e.mapping c
def countGrouped (e : Entity α) (b : Backend σ) (c : Criteria) (groupBy : List String) :
    Action σ (List GroupCount) :=
  b.countGrouped e.mapping c groupBy
def updateMany (e : Entity α) (b : Backend σ) (c : Criteria) (values : Assignments) :
    Action σ Affected :=
  b.update e.mapping c values
def deleteMany (e : Entity α) (b : Backend σ) (c : Criteria) : Action σ Affected :=
  b.delete e.mapping c
def deleteAll (e : Entity α) (b : Backend σ) : Action σ Affected := b.deleteAll e.mapping

def source (e : Entity α) (b : Backend σ) : Source σ := ⟨b, e.mapping⟩

def decodePair (l : Entity α) (r : Entity β) (row : JoinedRow) : Outcome (JoinResult α β) := do
  pure ⟨← row.left.mapM l.decodeRow, ← row.right.mapM r.decodeRow⟩

def join (l : Entity α) (r : Entity β) (left right : Backend σ) (c : JoinCriteria) :
    Action σ (List (JoinResult α β)) := do
  let rows ← Join.fetch (l.source left) (r.source right) c
  Action.of (rows.mapM (decodePair l r))

def countJoin (l : Entity α) (r : Entity β) (left right : Backend σ) (c : JoinCriteria) :
    Action σ Nat :=
  Join.count (l.source left) (r.source right) c

end Entity
end DataAccess
