import DataAccess.Backend.Restricted
import DataAccess.Memory
import DataAccess.Pool.Desk
import DataAccess.Scripted
import DataAccess.Sqlite

/-!
Named storages side by side, so that one operation can reach several of them. Open transactions have
names of the same sort and stand for the storage they are open on.
-/
namespace DataAccess

/-- `origin` is the transaction that others are numbered from, once one was asked for. -/
structure Storages where
  memories : Keyed String Memory
  sqlites : Keyed String Sqlite
  scripts : Keyed String Scripted
  restrictions : Keyed String (List JoinKind)
  engine : Sqlite.Engine
  transactions : Keyed String (String × Sqlite.Transaction)
  origin : Option Nat

/-- What a storage is opened as. -/
inductive Opening where
  | memory (url : String)
  | sqlite (url : String)
  | scripted (url : String) (script : Script)

namespace Storages

def empty : Storages := ⟨[], [], [], [], .idle, [], none⟩

def enginePlace : Place Storages Sqlite.Engine := ⟨engine, fun engine w => { w with engine }⟩

def memoryPlace (name : String) (absent : Memory) : Place Storages Memory :=
  .comp ⟨memories, fun memories w => { w with memories }⟩ (.entry name absent)

def scriptPlace (name : String) (absent : Scripted) : Place Storages Scripted :=
  .comp ⟨scripts, fun scripts w => { w with scripts }⟩ (.entry name absent)

/-- A storage used outside of all transactions. -/
def sessionPlace (name : String) (absent : Sqlite) : Place Storages Sqlite.Session :=
  ⟨fun w => ⟨(w.sqlites.find? name).getD absent, w.engine, none⟩,
    fun s w => { w with sqlites := w.sqlites.put name s.storage, engine := s.engine }⟩

/-- A storage used in a named transaction, which is gone once the session has left it. -/
def transactionPlace (name storage : String) (absent : Sqlite) : Place Storages Sqlite.Session :=
  ⟨fun w => { (sessionPlace storage absent).get w with
      transaction := (w.transactions.find? name).map (·.2) },
    fun s w => { (sessionPlace storage absent).set s w with
      transactions := match s.transaction with
        | some t => w.transactions.put name (storage, t)
        | none => w.transactions.erase name }⟩

/-- The storage that a name stands for. -/
def home (w : Storages) (name : String) : String :=
  ((w.transactions.find? name).map (·.1)).getD name

def session? (w : Storages) (name : String) :
    Option (Descriptor × Place Storages Sqlite.Session) := do
  let s ← w.sqlites.find? (w.home name)
  pure (s.descriptor, if (w.transactions.find? name).isSome then
    transactionPlace name (w.home name) s else sessionPlace name s)

def memory? (w : Storages) (name : String) : Option (Backend Storages) :=
  (w.memories.find? name).map fun m => (Memory.backend m.descriptor).within (memoryPlace name m)

def script? (w : Storages) (name : String) : Option (Backend Storages) :=
  (w.scripts.find? name).map fun s =>
    (Scripted.backend s.descriptor s.script).within (scriptPlace name s)

def sqlite? (w : Storages) (name : String) : Option (Backend Storages) :=
  (w.session? name).map fun (d, place) => (Sqlite.Session.backend (.of d)).within place

def backend? (w : Storages) (name : String) : Option (Backend Storages) :=
  let plain := ((w.memory? name).or (w.script? name)).or (w.sqlite? name)
  match w.restrictions.find? name with
  | some kinds => plain.map (.restricted kinds)
  | none => plain

/-- Opens a storage under a name; with kinds, it joins in no other way. -/
def openUnder (name : String) (o : Opening) (kinds : Option (List JoinKind)) :
    Action Storages Unit := do
  match o with
  | .memory url => do
    let m ← Action.of (Memory.ofUrl url)
    Action.effect (Effect.write (memoryPlace name m) m)
  | .sqlite url => do
    let s ← Action.within enginePlace (Sqlite.ofUrl url)
    Action.effect (Effect.modify fun w => { w with sqlites := w.sqlites.put name s })
  | .scripted url script => do
    let s ← Action.of (Scripted.ofUrl url script)
    Action.effect (Effect.write (scriptPlace name s) s)
  match kinds with
  | some kinds =>
    Action.effect (Effect.modify fun w => { w with restrictions := w.restrictions.put name kinds })
  | none => pure ()

/-- The pools of a storage and what they have done. -/
def stats (w : Storages) (name : String) : List (String × PoolStats) :=
  match w.memories.find? name, w.scripts.find? name, w.sqlites.find? name with
  | some m, _, _ => [("query", m.queries.stats)]
  | _, some s, _ => [("query", s.queries.stats)]
  | _, _, some s => [("query", s.queries.stats), ("command", s.commands.stats),
      ("connection", s.connections.stats)]
  | _, _, _ => []

def trace (name : String) : Effect Storages (List Query) := do
  match (← Effect.state).scripts.find? name with
  | some s => Effect.within (scriptPlace name s) Scripted.trace
  | none => pure []

def unknownName (name : String) : Failure := .other ("no storage is called " ++ name)

/-- Works in the session of a name. -/
def inSession {α : Type} (name : String)
    (work : Sqlite.Site → Action Sqlite.Session α) : Action Storages α := do
  match (← Action.effect Effect.state).session? name with
  | some (d, place) => Action.within place (work (.of d))
  | none => Action.of (.error (unknownName name))

/-- Ends a transaction that nobody will finish. -/
def abandon (name : String) : Action Storages Unit :=
  inSession name fun site => Action.effect (Sqlite.Session.abandon site)

/-- Opens a transaction under a name; one that had the name before is abandoned. -/
def begin (storage name : String) : Action Storages Unit := do
  let t ← inSession storage Sqlite.Session.begin
  if ((← Action.effect Effect.state).transactions.find? name).isSome then abandon name
  Action.effect (Effect.modify fun w =>
    { w with transactions := w.transactions.put name (storage, t) })

/-- How many transactions lie between this one and the first that was asked for. -/
def ordinal (name : String) : Effect Storages (Option Int) := do
  let w ← Effect.state
  match w.transactions.find? name with
  | some (_, t) =>
    let origin := w.origin.getD t.id
    Effect.setState { w with origin }
    pure (some (t.id - origin))
  | none => pure none

def commit (name : String) : Action Storages Unit := inSession name Sqlite.Session.commit
def rollback (name : String) : Action Storages Unit := inSession name Sqlite.Session.rollback

end Storages

/-- A compiled query and the storage whose pool it goes back to. -/
structure HeldQuery where
  storage : String
  query : Query

namespace HeldQuery

def compile (b : Backend Storages) (name : String) (m : Mapping) (c : Criteria) :
    Action Storages HeldQuery := do
  let storage := (← Action.effect Effect.state).home name
  pure ⟨storage, ← b.compileQuery m c⟩

def finish (h : HeldQuery) : Effect Storages Unit := do
  match (← Effect.state).backend? h.storage with
  | some b => b.dispose h.query
  | none => pure ()

end HeldQuery
end DataAccess
