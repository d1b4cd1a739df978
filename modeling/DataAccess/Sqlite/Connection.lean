import DataAccess.Backend
import DataAccess.Sqlite.Database
import DataAccess.Sqlite.Engine

/-!
Connections to databases. A connection remembers the key it inserted last, how many rows it changed
last, and the statements it has prepared.
-/
namespace DataAccess.Sqlite

/-- A prepared statement: the columns it had and what it was to get hold of. One that has expired is
not begun before it is prepared again. -/
structure Prepared where
  columns : List String
  grips : List Grip
  expired : Bool

/-- `before` is there inside a transaction: the connection's own tables when it began. Statements
that were prepared last come first. A connection whose user broke down while reading is poisoned
for good. -/
structure Connection where
  serial : Nat
  identity : String
  location : String
  lastKey : Int64
  changes : Nat
  own : Tables
  before : Option Tables
  prepared : Keyed String Prepared
  poisoned : Bool

/-- Text that opens and ends transactions. -/
inductive Control where
  | begin | commit | rollback
deriving DecidableEq

def Control.text : Control → String
  | .begin => Sql.begin
  | .commit => Sql.commit
  | .rollback => Sql.rollback

namespace Connection

def path (d : Descriptor) : String :=
  "file:" ++ d.location ++ if d.options.isEmpty then "" else "?" ++ d.optionText

/-- The last of several options of a name counts. -/
def option? (d : Descriptor) (key : String) : Option String := d.options.reverse.lookup key

/-- Options with a value that the engine does not know; what runs the files is looked for last. -/
def unknownOption? (d : Descriptor) : Option Refusal :=
  let known : List (String × String × List String) :=
    [("cache", "cache mode", ["shared", "private"]),
      ("mode", "access mode", ["ro", "rw", "rwc", "memory"])]
  let check (key value : String) : Option Refusal :=
    (known.lookup key).bind fun (what, values) =>
      if values.contains value then none else some (.unknownOption what value)
  (d.options.findSome? fun (key, value) => check key value).or
    ((option? d "vfs").bind fun value =>
      if value.startsWith "unix" then none else some (.unknownOption "vfs" value))

/-- Only databases in memory can be opened. -/
def isReachable (d : Descriptor) : Bool :=
  option? d "mode" == some "memory" || d.location == ":memory:"

/-- A database is shared on demand, or else is the connection's own. -/
def home (d : Descriptor) (serial : Nat) : String :=
  if option? d "cache" = some "shared" then d.location
  else d.location ++ "?" ++ toString serial

def unreachable (d : Descriptor) (r : Refusal) : Failure :=
  .context ("Could not open the sqlite database `" ++ d.identity ++ "`") r.failure

def connect (d : Descriptor) : Action Engine Connection :=
  match unknownOption? d, isReachable d with
  | some r, _ => Action.fail (unreachable d r)
  | none, false => Action.fail (unreachable d (.cannotOpen (path d)))
  | none, true => do
    let e ← Action.effect Effect.state
    let location := home d e.opened
    Action.effect (Effect.setState (e.connect location))
    Action.effect (Effect.log .debug ("Opened the sqlite connection " ++ d.identity))
    pure ⟨e.opened, d.identity, location, 0, 0, [], none, [], false⟩

def disconnect (c : Connection) : Effect Engine Unit :=
  Effect.modify (·.disconnect c.location c.serial)

def poisonedFailure (c : Connection) : Failure :=
  .poolDiscipline ("the connection to " ++ c.identity ++ " was poisoned by a panic")

/-- Outside a transaction every statement stands by itself. -/
def isAutocommit (c : Connection) : Bool := c.poisoned || c.before.isNone

def insertedKey (c : Connection) : Option Int64 := if c.lastKey = 0 then none else some c.lastKey

/-- Sixteen statements are kept. -/
def prepare (c : Connection) (text : String) (p : Prepared) : Connection :=
  { c with prepared := ((text, p) :: c.prepared.erase text).take 16 }

def expire (c : Connection) : Connection :=
  { c with prepared := c.prepared.map fun (text, p) => (text, { p with expired := true }) }

/-- Whether a connection's own tables are other ones now. -/
def isRestructured (c : Connection) (own : Tables) : Bool :=
  c.own.map (·.1) != own.map (·.1)

/-- What the outcome of a statement leaves behind. One that fails to change anything has changed no
rows. -/
def note (c : Connection) : Answer (Reply × Catalog) → Statement → Connection
  | .ok (.changed n key, catalog), _ =>
    { c with own := catalog.own, changes := n, lastKey := key.getD c.lastKey }
  | .ok (_, catalog), _ =>
    { (if c.isRestructured catalog.own then c.expire else c) with own := catalog.own }
  | .error _, .insert .. | .error _, .update .. | .error _, .delete .. | .error _, .deleteAll _ =>
    { c with changes := 0 }
  | .error _, _ => c

def control (c : Connection) (db : Database) : Control → Answer (Database × Connection)
  | .begin =>
    if c.before.isSome then .error .alreadyBegun else .ok (db, { c with before := some c.own })
  | .commit =>
    if c.before.isNone then .error .nothingToCommit
    else .ok (db.finish c.serial, { c with before := none })
  | .rollback =>
    match c.before with
    | some own =>
      let c := if db.hasRemade c.serial || c.isRestructured own then c.expire else c
      .ok (db.undo c.serial, { c with own, before := none })
    | none => .error .nothingToRollBack

/-- What is refused before it is run. -/
def unprepared? {α : Type} : Answer α → Option Refusal
  | .error r => if r.precedesRun then some r else none
  | .ok _ => none

/-- Carries a prepared statement out once it has hold of what it needs; outside a transaction it
lets go of that again. -/
def carryOut (c : Connection) (db : Database) (grips : List Grip) (w : Written)
    (outcome : Answer (Reply × Catalog)) : Answer Reply × Database × Connection :=
  let (db, refused) := db.acquire c.serial grips
  let outcome := refused.elim outcome .error
  let db := match outcome with
    | .ok (_, catalog) => { db with tables := catalog.shared }
    | .error _ => db
  (outcome.map Prod.fst, if c.before.isNone then db.finish c.serial else db,
    c.note outcome w.statement)

/-- Prepares a statement and carries it out. -/
def attempt (c : Connection) (db : Database) (text : String) (w : Written) :
    Answer Reply × Database × Connection :=
  let catalog : Catalog := ⟨db.tables, c.own⟩
  let outcome := catalog.answer w
  let grips := catalog.grips w.statement
  match unprepared? outcome with
  | some r => (.error r, db, c)
  | none => (c.prepare text ⟨catalog.labels w, grips, false⟩).carryOut db grips w outcome

/-- Nothing is prepared while another connection remakes tables. -/
def attemptUnlessRemade (c : Connection) (db : Database) (text : String) (w : Written) :
    Answer Reply × Database × Connection :=
  if db.isRemade c.serial then (.error (.schemaLocked "main"), db, c) else c.attempt db text w

/-- Runs a statement. One that is prepared for the first time is told where it is at fault. One that
was prepared before begins its transaction as it did then; if it is refused after that it expires.
-/
def run (c : Connection) (db : Database) (text : String) (w : Written) :
    Except Failure Reply × Database × Connection :=
  match c.prepared.find? text with
  | none =>
    let (reply, db, after) := c.attemptUnlessRemade db text w
    (reply.mapError fun r => if r.precedesRun then r.failureIn text else r.failure, db, after)
  | some p =>
    let expired := c.prepare text { p with expired := true }
    let (reply, db, c) :=
      if p.expired then expired.attemptUnlessRemade db text w
      else match db.start? c.serial p.grips with
        | none =>
          let catalog : Catalog := ⟨db.tables, c.own⟩
          (c.prepare text p).carryOut db p.grips w (catalog.answer w)
        | some begun => expired.attempt (if c.before.isSome then begun else db) text w
    (reply.mapError (·.failure), db, c)

end Connection

/-- A connection in use, and the engine. -/
abbrev Link := Engine × Connection

namespace Link

/-- Work on the database behind a connection that is sound. -/
def access {α : Type} (failed : Failure → Failure)
    (work : Connection → Database → Except Failure α × Database × Connection) :
    Action Link α := do
  let (e, c) ← Action.effect Effect.state
  if c.poisoned then Action.of (.error c.poisonedFailure)
  else
    let (outcome, db, c) := work c (e.database c.location)
    Action.effect (Effect.setState (e.setDatabase c.location db, c))
    match outcome with
    | .ok a => pure a
    | .error f => Action.fail (failed f)

def commandFailure (c : Command) (source : Failure) : Failure := .ofExecution c.text c.params source

def run (command : Command) : Action Link Reply :=
  access (commandFailure command) fun c db =>
    match command.written with
    | some w => c.run db command.text w
    | none => (.error (Refusal.unreadable "not a statement").failure, db, c)

/-- For statements that give no rows. -/
def execute (command : Command) : Action Link Affected := do
  match ← run command with
  | .found (_ :: _) =>
    Action.fail (commandFailure command
      (.other "Execute returned results - did you mean to call query?"))
  | _ => do
    let (_, c) ← Action.effect Effect.state
    pure ⟨some c.changes, c.insertedKey⟩

/-- A statement prepared before gives as many cells as it had columns then, under their names. -/
def asPrepared (columns : Option (List String)) (row : LabeledRow) : Answer LabeledRow :=
  match columns with
  | none => .ok row
  | some labels =>
    if labels.length ≤ row.cells.length then .ok ⟨labels, row.cells.take labels.length⟩
    else .error (.noSuchCell row.cells.length)

/-- The rows that a query gives. -/
def rows (command : Command) : Action Link (List LabeledRow) := do
  let (_, c) ← Action.effect Effect.state
  match ← run command with
  | .found rows =>
    let columns := ((c.prepared.find? command.text).map (·.columns)).filter (!·.isEmpty)
    match rows.mapM (asPrepared columns) with
    | .ok rows => pure rows
    | .error r => Action.fail (commandFailure command r.failure)
  | _ => pure []

def query {β : Type} (command : Command) (receive : Receiver β) (start : β) :
    Effect Link (β × Outcome Unit) := do
  match ← (rows command).run with
  | .ok rows => pure (deliver receive start rows)
  | .error f => pure (start, .error f)

def poison : Effect Link Unit := Effect.modify fun (e, c) => (e, { c with poisoned := true })

/-- A receiver that breaks down where others fail; there is no outcome then. -/
def queryUntilBroken {β : Type} (command : Command) (receive : Receiver β) (start : β) :
    Effect Link (β × Option (Outcome Unit)) := do
  match ← (rows command).run with
  | .ok rows =>
    match deliver receive start rows with
    | (b, .ok ()) => pure (b, some (.ok ()))
    | (b, .error _) => do
      poison
      pure (b, none)
  | .error f => pure (start, some (.error f))

/-- Transactions are opened and ended by text that is prepared each time. -/
def control (failed : Failure → Failure) (k : Control) : Action Link Unit :=
  access failed fun c db =>
    match if db.isRemade c.serial then .error (.schemaLocked "main") else c.control db k with
    | .ok (db, c) => (.ok (), db, c)
    | .error r => (.error r.failure, db, c)

section

variable (control : (Failure → Failure) → Control → Action Link Unit)

def batchBy (k : Control) : Action Link Unit := control (.ofExecution k.text []) k

/-- Leaves no transaction open, as far as the connection can still be used. -/
def resetBy : Effect Link Unit := do
  let (_, c) ← Effect.state
  if !c.isAutocommit then
    Effect.log .warn ("A connection to " ++ c.identity ++
      " went back to the pool inside a transaction, rolling back")
    let _ ← (control id .rollback).run

end

def batch (k : Control) : Action Link Unit := batchBy control k
def reset : Effect Link Unit := resetBy control

end Link
end DataAccess.Sqlite
