import DataAccess.Descriptor
import DataAccess.Effect
import DataAccess.Evaluation.Select
import DataAccess.Query
import DataAccess.Result.Affected
import DataAccess.Result.Labeled

/-! What a storage offers. -/
namespace DataAccess

/-- Takes rows one by one; a failure ends the reading. -/
abbrev Receiver (β : Type) := β → LabeledRow → β × Outcome Unit

def deliver {β : Type} (receive : Receiver β) : β → List LabeledRow → β × Outcome Unit
  | b, [] => (b, .ok ())
  | b, row :: rest => match receive b row with
    | (b, .ok ()) => deliver receive b rest
    | (b, .error f) => (b, .error f)

/-- Collects what is made of each row. -/
def collecting {α : Type} (read : LabeledRow → Outcome α) : Receiver (List α) := fun found row =>
  match read row with
  | .ok a => (found ++ [a], .ok ())
  | .error f => (found, .error f)

/-- Keeps the rows, and has had enough on getting one more than it wants. -/
def keeping (most : Option Nat) : Receiver (List LabeledRow) := fun kept row =>
  if most = some kept.length then (kept, .error (.other "stopped")) else (kept ++ [row], .ok ())

/-- Joins that a storage runs itself. `reaches` tells whether it can with another storage, given by
its family and its url, holding the right table. -/
structure Joins (σ : Type) where
  reaches : JoinCriteria → String → Descriptor → Bool
  supports : JoinKind → Bool
  compile : Sql.Pair → JoinCriteria → Action σ Query
  count : Sql.Pair → JoinCriteria → Action σ Nat

/-- Operations on a state `σ`. `name` is the family, which is the scheme of its urls; deleting and
updating need a filter; a compiled query is held until it is disposed of. -/
structure Backend (σ : Type) where
  name : String
  descriptor : Descriptor
  createTable : Mapping → Bool → Action σ Unit
  dropTable : Mapping → Bool → Action σ Unit
  insert : Mapping → Row → Action σ Affected
  insertBatch : Mapping → List Row → Action σ Affected
  update : Mapping → Criteria → Assignments → Action σ Affected
  updateBatch : Mapping → List (Criteria × Assignments) → Action σ Affected
  delete : Mapping → Criteria → Action σ Affected
  deleteAll : Mapping → Action σ Affected
  compileQuery : Mapping → Criteria → Action σ Query
  execute : {β : Type} → Query → Receiver β → β → Effect σ (β × Outcome Unit)
  dispose : Query → Effect σ Unit
  count : Mapping → Criteria → Action σ Nat
  countGrouped : Mapping → Criteria → List String → Action σ (List GroupCount)
  coerce : Value → Option Kind → Outcome Value
  joins : Option (Joins σ)

namespace Backend

variable {σ τ : Type}

/-- Item by item; what earlier items did stays done when a later one fails. -/
def oneByOne {α : Type} (change : α → Action σ Affected) (items : List α) : Action σ Affected :=
  items.foldlM (fun sum item => return sum.append (← change item)) (.ofRows 0)

/-- A storage that is part of a larger state. -/
def within (p : Place σ τ) (b : Backend τ) : Backend σ where
  name := b.name
  descriptor := b.descriptor
  createTable m flag := Action.within p (b.createTable m flag)
  dropTable m flag := Action.within p (b.dropTable m flag)
  insert m row := Action.within p (b.insert m row)
  insertBatch m rows := Action.within p (b.insertBatch m rows)
  update m c values := Action.within p (b.update m c values)
  updateBatch m items := Action.within p (b.updateBatch m items)
  delete m c := Action.within p (b.delete m c)
  deleteAll m := Action.within p (b.deleteAll m)
  compileQuery m c := Action.within p (b.compileQuery m c)
  execute q receive start := Effect.within p (b.execute q receive start)
  dispose q := Effect.within p (b.dispose q)
  count m c := Action.within p (b.count m c)
  countGrouped m c groupBy := Action.within p (b.countGrouped m c groupBy)
  coerce := b.coerce
  joins := b.joins.map fun j => {
    reaches := j.reaches
    supports := j.supports
    compile := fun pair c => Action.within p (j.compile pair c)
    count := fun pair c => Action.within p (j.count pair c) }

/-- Reads what a compiled query finds and disposes of it. -/
def collect {α : Type} (b : Backend σ) (q : Query) (read : LabeledRow → Outcome α) :
    Action σ (List α) := ExceptT.mk do
  let (found, ending) ← b.execute q (collecting read) []
  b.dispose q
  pure (ending.map fun _ => found)

/-- The rows of the criteria, in column order. -/
def fetch (b : Backend σ) (m : Mapping) (c : Criteria) : Action σ (List Row) := do
  b.collect (← b.compileQuery m c) (m.project b.coerce)

end Backend
end DataAccess
