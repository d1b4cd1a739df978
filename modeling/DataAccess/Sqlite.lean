import DataAccess.Query.Compiled
import DataAccess.Sqlite.Fleet
import DataAccess.Sqlite.Site
import DataAccess.Value.Native

/-!
A storage whose engine runs what is compiled, joins included. Statements run on a connection leased
for each of them, or on the one that a transaction holds.
-/
namespace DataAccess

structure Sqlite where
  descriptor : Descriptor
  connections : Pool String Sqlite.Connection
  commands : Pool (String × String) Command
  queries : QueryPool

namespace Sqlite

def scheme : String := "sqlite"

/-- Sixteen idle commands for each idle connection, counted in a word. -/
def idleCommands (d : Descriptor) : Nat := d.maxIdle * 16 % Nat.pow 2 64

def ofDescriptor (d : Descriptor) : Sqlite :=
  ⟨d, .new "sqlite connection" d.maxIdle, .new "sqlite command" (idleCommands d),
    .new "sqlite query" d.maxIdle⟩

def inspect (s : Sqlite) : String :=
  "SqliteBackend \x7b descriptor: " ++ Text.quoted s.descriptor.identity ++ ", connections: " ++
    s.connections.inspect ++ ", commands: " ++ s.commands.inspect ++ ", queries: " ++
    s.queries.inspect ++ " \x7d"

structure Transaction where
  id : Nat
  connection : Connection

/-- A storage in use, by a transaction if there is one. -/
structure Session where
  storage : Sqlite
  engine : Engine
  transaction : Option Transaction

namespace Session

variable {α β : Type}

def fleetPlace : Place Session Fleet :=
  ⟨fun s => ⟨s.storage.connections, s.engine⟩,
    fun f s => { s with storage := { s.storage with connections := f.pool }, engine := f.engine }⟩
def enginePlace : Place Session Engine := fleetPlace.comp Fleet.enginePlace
def commandsPlace : Place Session (Pool (String × String) Command) :=
  ⟨(·.storage.commands), fun commands s => { s with storage := { s.storage with commands } }⟩
def queriesPlace : Place Session QueryPool :=
  ⟨(·.storage.queries), fun queries s => { s with storage := { s.storage with queries } }⟩

def lease (site : Site) : Action Session Connection :=
  Action.within fleetPlace (Fleet.leaseBy site.identity site.connect)

def giveBack (site : Site) (c : Connection) : Effect Session Unit :=
  Effect.within fleetPlace (Fleet.giveBackBy (Link.resetBy site.control) c)

/-- Works on the transaction's connection, or on one leased for the purpose. -/
def withConnection (site : Site) (work : Effect Link α) : Action Session α := do
  let s ← Action.effect Effect.state
  match s.transaction with
  | some t => do
    let (a, connection) ←
      Action.effect (Effect.within enginePlace (Effect.beside t.connection work))
    Action.effect (Effect.modify fun s => { s with transaction := some { t with connection } })
    pure a
  | none =>
    Action.within fleetPlace
      (Fleet.withLeased site.identity site.connect (Link.resetBy site.control) work)

def linked (site : Site) (work : Action Link α) : Action Session α := do
  Action.of (← withConnection site work.run)

/-- The command of a query, to be run in the transaction if there is one. -/
def commandFor (q : Query) (transaction : Option Nat) (leased : Command) : Command :=
  { leased with params := leased.params ++ q.params, transaction, written := q.written }

def leaseCommand (site : Site) (q : Query) : Action Session Command := do
  let leased ← Pool.lease commandsPlace (q.text, site.identity) (pure (.ofText q.text))
  let s ← Action.effect Effect.state
  pure (commandFor q (s.transaction.map (·.id)) leased)

def withCommand (site : Site) (q : Query) (work : Command → Action Session α) :
    Action Session α := do
  let command ← leaseCommand site q
  Action.ensuring (work command)
    (Pool.release commandsPlace (q.text, site.identity) command.reset)

def told (q : Query) : Action Session Unit := Action.effect (Effect.log .debug q.display)

def statement (site : Site) (s : Statement) : Action Session Affected :=
  QueryPool.during queriesPlace .sqlite .statement s fun q => do
    told q
    withCommand site q fun command => linked site (site.execute command)

def define (site : Site) (s : Statement) : Action Session Unit := do
  let _ ← statement site s

def compile (shape : Shape) (s : Statement) (mapping joined : Option Mapping) :
    Action Session Query := do
  let q ← QueryPool.compile queriesPlace .sqlite shape s
  told q
  pure { q with mapping, joined }

/-- A failure to get at a connection leaves what was collected as it is. -/
def execute (site : Site) (q : Query) (receive : Receiver β) (start : β) :
    Effect Session (β × Outcome Unit) := do
  match ← (withCommand site q fun c => withConnection site (site.query c receive start)).run with
  | .ok answer => pure answer
  | .error f => pure (start, .error f)

/-- Runs a query that is compiled for the purpose. -/
def collected (site : Site) (shape : Shape) (s : Statement) (read : LabeledRow → Outcome α) :
    Action Session (List α) :=
  QueryPool.during queriesPlace .sqlite shape s fun q => do
    told q
    let (found, ending) ← Action.effect (execute site q (collecting read) [])
    Action.of ending
    pure found

def readCount (v : Value) : Outcome Nat := (Native.ofValue v).map fun n : Int64 => n.toInt.toNat

def total (site : Site) (shape : Shape) (s : Statement) (w : Window) : Action Session Nat := do
  let counts ← collected site shape s fun row => readCount (row.cells.cell 0)
  pure (w.count (counts.getLast?.getD 0))

/-- The cells of a group in their columns' kinds, then its count. -/
def readGroup (columns : List Column) (row : LabeledRow) : Outcome GroupCount := do
  let cell (label : String) := (row.find? label).getD (.null none)
  let values ← columns.zipIdx.mapM fun (c, i) => (cell (Sql.groupLabel i)).coerce c.kind
  pure ⟨← readCount (cell Sql.countLabel), values⟩

def countGrouped (site : Site) (m : Mapping) (c : Criteria) (groupBy : List String) :
    Action Session (List GroupCount) := do
  let columns ← Action.of (groupBy.mapM m.column)
  collected site .countGrouped (.countGrouped m c groupBy) (readGroup columns)

def joins (site : Site) : Joins Session where
  reaches _ name other := name == scheme && other.identity == site.identity
  supports := Sql.Dialect.sqlite.supports
  compile p c := compile .join (.join p c) (some p.left) (some p.right)
  count p c := total site .joinCount (.joinCount p c) c.window

def backend (site : Site) : Backend Session where
  name := scheme
  descriptor := site.descriptor
  createTable m flag := define site (.createTable m flag)
  dropTable m flag := define site (.dropTable m flag)
  insert m row := statement site (.insert m row)
  insertBatch m := Backend.oneByOne fun row => statement site (.insert m row)
  update m c values := statement site (.update m c values)
  updateBatch m := Backend.oneByOne fun (c, values) => statement site (.update m c values)
  delete m c := statement site (.delete m c)
  deleteAll m := statement site (.deleteAll m)
  compileQuery m c := compile .select (.select m c) (some m) none
  execute := execute site
  dispose := QueryPool.release queriesPlace
  count m c := total site .count (.count m c) c.window
  countGrouped := countGrouped site
  coerce := Value.coerce
  joins := some (joins site)

def control (site : Site) (k : Control) : Action Session Unit := do
  Action.effect (Effect.log .debug k.text)
  linked site (Link.batchBy site.control k)

/-- Takes the transaction off the session and gives its connection back. -/
def leave (site : Site) : Effect Session Unit := do
  let s ← Effect.state
  Effect.setState { s with transaction := none }
  match s.transaction with
  | some t => giveBack site t.connection
  | none => pure ()

/-- Ends the transaction, whether the engine agrees or not. -/
def finish (site : Site) (k : Control) : Action Session Unit :=
  Action.ensuring (control site k) (leave site)

def commit (site : Site) : Action Session Unit := finish site .commit
def rollback (site : Site) : Action Session Unit := finish site .rollback

/-- Ends a transaction that was neither committed nor rolled back. -/
def abandon (site : Site) : Effect Session Unit := do
  match (← Effect.state).transaction with
  | some t =>
    Effect.log .warn ("Transaction " ++ toString t.id ++ " on " ++ site.identity ++
      " was dropped without commit or rollback, rolling back")
    match ← (control site .rollback).run with
    | .ok () => pure ()
    | .error f => Effect.log .error f.inline
    leave site
  | none => pure ()

/-- Opens a transaction on a connection; the session is in it afterwards. -/
def enter (site : Site) (connection : Connection) : Action Session Transaction := do
  let engine ← Action.effect (Effect.read enginePlace)
  let t : Transaction := ⟨engine.begun + 1, connection⟩
  Action.effect (Effect.write enginePlace { engine with begun := engine.begun + 1 })
  Action.effect (Effect.modify fun s => { s with transaction := some t })
  match ← Action.effect (control site .begin).run with
  | .ok () => do
    Action.effect
      (Effect.log .debug ("Transaction " ++ toString t.id ++ " started on " ++ site.identity))
    let s ← Action.effect Effect.state
    pure (s.transaction.getD t)
  | .error f => do
    Action.effect (abandon site)
    Action.of (.error f)

/-- Opens a transaction on a connection of its own. -/
def begin (site : Site) : Action Session Transaction := do enter site (← lease site)

/-- Opens the storage by way of a first connection. -/
def connect (site : Site) : Action Session Unit := do
  let c ← lease site
  Action.effect (giveBack site c)

end Session

/-- The storage is opened only when its database can be reached. -/
def ofUrl (url : String) : Action Engine Sqlite := ExceptT.mk fun env =>
  match (do let d ← Descriptor.ofUrl url; d.expectScheme scheme; pure d : Outcome Descriptor) with
  | .error f => (.error f, env)
  | .ok d =>
    let (r, inner) := Session.connect (.of d) ⟨⟨ofDescriptor d, env.state, none⟩, env.log⟩
    (r.map fun _ => inner.state.storage, ⟨inner.state.engine, inner.log⟩)

end Sqlite
end DataAccess
