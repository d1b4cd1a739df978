import DataAccess.Backend
import DataAccess.Memory.Store
import DataAccess.Query.Compiled

/-!
A storage in process. Criteria are evaluated here; the text of each statement is compiled for the
log and for failures. Joins are left to others.
-/
namespace DataAccess

structure Memory where
  descriptor : Descriptor
  tables : Memory.Tables
  queries : QueryPool

namespace Memory

def scheme : String := "memory"

def ofDescriptor (d : Descriptor) : Memory := ⟨d, [], .new "memory query" d.maxIdle⟩

def ofUrl (url : String) : Outcome Memory := do
  let d ← Descriptor.ofUrl url
  d.expectScheme scheme
  pure (ofDescriptor d)

def queriesPlace : Place Memory QueryPool := ⟨queries, fun queries s => { s with queries }⟩
def tablesPlace : Place Memory Tables := ⟨tables, fun tables s => { s with tables }⟩

/-- A refusal as the failure of a query. -/
def refused {α : Type} (q : Query) : Change α → Action Memory α
  | .ok a => pure a
  | .error (.caller f) => Action.of (.error f)
  | .error (.storage reason) => Action.fail (.ofExecution q.text q.params (.other reason))

/-- Compiles a statement, tells the log, and does the work while the query is held. -/
def statement {α : Type} (s : Statement) (work : Query → Action Memory α) : Action Memory α :=
  QueryPool.during queriesPlace .generic .statement s fun q => do
    Action.effect (Effect.log .debug q.display)
    work q

def currentTables : Action Memory Tables := Action.effect (Effect.read tablesPlace)
def setTables (t : Tables) : Action Memory Unit := Action.effect (Effect.write tablesPlace t)

def define (s : Statement) (change : Tables → Change Tables) : Action Memory Unit :=
  statement s fun q => do setTables (← refused q (change (← currentTables)))

def change (s : Statement) (change : Tables → Change (Nat × Tables)) : Action Memory Affected :=
  statement s fun q => do
    let (n, t) ← refused q (change (← currentTables))
    setTables t
    pure (.ofRows n)

def createTable (m : Mapping) (ifNotExists : Bool) : Action Memory Unit :=
  define (.createTable m ifNotExists) (·.create m ifNotExists)

def dropTable (m : Mapping) (ifExists : Bool) : Action Memory Unit :=
  define (.dropTable m ifExists) (·.drop m ifExists)

def insert (m : Mapping) (row : Row) : Action Memory Affected :=
  change (.insert m row) fun t => do pure (1, ← t.insert m row)

def update (m : Mapping) (c : Criteria) (values : Assignments) : Action Memory Affected :=
  change (.update m c values) (·.update m c values)

def delete (m : Mapping) (c : Criteria) : Action Memory Affected :=
  change (.delete m c) (·.delete m c)

def deleteAll (m : Mapping) : Action Memory Affected := change (.deleteAll m) (·.deleteAll m)

def compileQuery (m : Mapping) (c : Criteria) : Action Memory Query := do
  Action.of (c.validate m)
  let q ← QueryPool.compile queriesPlace .generic .select (.select m c)
  Action.effect (Effect.log .debug q.display)
  pure { q with mapping := some m, criteria := some c }

def rows (q : Query) (m : Mapping) : Action Memory (List Row) := do
  refused q ((← currentTables).rows m)

/-- The rows a query finds. -/
def selected (q : Query) : Action Memory (List LabeledRow) :=
  match q.mapping, q.criteria with
  | some m, some c => do
    let found ← Action.of (c.select m (← rows q m))
    pure (found.map (⟨m.labels, ·⟩))
  | _, _ => Action.of (.error (.other
    ("The query was not compiled by the memory backend:\n" ++ q.display)))

def execute {β : Type} (q : Query) (receive : Receiver β) (start : β) :
    Effect Memory (β × Outcome Unit) := do
  match ← (selected q).run with
  | .ok found => pure (deliver receive start found)
  | .error f => pure (start, .error f)

def count (m : Mapping) (c : Criteria) : Action Memory Nat := do
  Action.of (c.validate m)
  statement (.count m c) fun q => do
    let total ← Action.of (c.count m (← rows q m))
    pure (c.window.count total)

def countGrouped (m : Mapping) (c : Criteria) (groupBy : List String) :
    Action Memory (List GroupCount) := do
  Action.of (c.validate m)
  statement (.countGrouped m c groupBy) fun q => do
    Action.of (c.countGrouped m groupBy (← rows q m))

def backend (d : Descriptor) : Backend Memory where
  name := scheme
  descriptor := d
  createTable := createTable
  dropTable := dropTable
  insert := insert
  insertBatch m := Backend.oneByOne (insert m)
  update := update
  updateBatch m := Backend.oneByOne fun (c, values) => update m c values
  delete := delete
  deleteAll := deleteAll
  compileQuery := compileQuery
  execute := execute
  dispose := QueryPool.release queriesPlace
  count := count
  countGrouped := countGrouped
  coerce := Value.coerce
  joins := none

end Memory
end DataAccess
