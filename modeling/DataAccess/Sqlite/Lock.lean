import DataAccess.Sqlite.Catalog

/-!
Databases that several connections share. An open transaction holds what it has read and written
until it ends: one connection at a time writes, and nobody else reads what it has written or writes
what somebody else has read.
-/
namespace DataAccess.Sqlite

/-- What is held, or wanted: a table, or the list of tables. -/
structure Grip where
  table : Option String
  exclusive : Bool
deriving DecidableEq

namespace Grip

def name (g : Grip) : String := g.table.getD "sqlite_master"

/-- Two connections cannot have both. -/
def excludes (a b : Grip) : Bool := sameName a.name b.name && (a.exclusive || b.exclusive)

end Grip

structure Lock where
  holder : Nat
  grip : Grip
deriving DecidableEq

/-- The connection whose transaction has begun to write, and the tables as they were before. -/
structure Writer where
  holder : Nat
  before : Tables

/-- Nobody comes in while somebody waits for the last one to leave who reads what is to be written.
-/
structure Database where
  tables : Tables
  holders : Nat
  locks : List Lock
  writer : Option Writer
  pending : Bool

namespace Catalog

/-- What a statement reads and writes of what is shared. -/
def grips (c : Catalog) : Statement → List Grip
  | .createTable m _ => match home .sqlite 0 m.table with
    | .ok (.main, _) => [⟨none, (c.findIn .main m.table.name).isNone⟩]
    | _ => []
  | .dropTable m _ => match c.find? m.table with
    | some (.main, _) => [⟨none, true⟩]
    | some (.temp, _) => []
    | none =>
      if m.table.schema = "" ∨ schema? m.table.schema = some .main then [⟨none, false⟩] else []
  | .insert m _ | .update m .. | .delete m _ | .deleteAll m => on m true
  | .select m _ | .count m _ | .countGrouped m .. => on m false
  | .join p _ | .joinCount p _ => on p.left false ++ on p.right false
where
  on (m : Mapping) (exclusive : Bool) : List Grip :=
    match c.find? m.table with
    | some (.main, t) => [⟨some t.name, exclusive⟩]
    | _ => []

end Catalog

namespace Database

def empty : Database := ⟨[], 0, [], none, false⟩

def refuses (db : Database) (me : Nat) (g : Grip) : Bool :=
  db.locks.any fun l => l.holder != me && l.grip.excludes g

/-- Whether another connection has tables of its own making, not yet committed. -/
def isRemade (db : Database) (me : Nat) : Bool := db.refuses me ⟨none, false⟩

/-- Whether a connection has made or dropped tables and not yet committed that. -/
def hasRemade (db : Database) (me : Nat) : Bool := decide (⟨me, ⟨none, true⟩⟩ ∈ db.locks)

def isWriter (db : Database) (me : Nat) : Bool := db.writer.any (·.holder == me)
def isOpen (db : Database) (me : Nat) : Bool := db.locks.any (·.holder == me)

def holding (db : Database) (me : Nat) (g : Grip) : Database :=
  if ⟨me, g⟩ ∈ db.locks then db else { db with locks := ⟨me, g⟩ :: db.locks }

/-- Opens a transaction, or one that writes; there is nothing to do where it is open already. -/
def begin? (db : Database) (me : Nat) (write : Bool) : Option Database :=
  if db.isWriter me || !write && db.isOpen me then some db
  else if db.pending || write && db.writer.isSome || db.isRemade me then none
  else
    let db := db.holding me ⟨none, false⟩
    some (if write then { db with writer := some ⟨me, db.tables⟩ } else db)

/-- Takes one thing after the other, up to the first that cannot be had. -/
def take (me : Nat) (db : Database) : List Grip → Database × Option Refusal
  | [] => (db, none)
  | g :: rest =>
    if db.refuses me g then
      ({ db with pending := db.pending || g.exclusive }, some (.locked (some g.name)))
    else take me (db.holding me g) rest

/-- Opens a transaction for what is wanted, if anything is. -/
def start? (db : Database) (me : Nat) (grips : List Grip) : Option Database :=
  if grips.isEmpty then some db else db.begin? me (grips.any (·.exclusive))

def acquire (db : Database) (me : Nat) (grips : List Grip) : Database × Option Refusal :=
  match db.start? me grips with
  | some db => take me db grips
  | none => (db, some (.locked none))

/-- Ends a transaction. Who waits goes on when there is nobody left but the writer. -/
def finish (db : Database) (me : Nat) : Database :=
  if db.isOpen me then
    let locks := db.locks.filter (·.holder != me)
    let alone := ((locks.map (·.holder)).eraseDups.length ≤ 1 : Bool)
    { db with
      locks
      writer := db.writer.filter (·.holder != me)
      pending := db.pending && !(db.isWriter me || alone) }
  else db

/-- Ends a transaction and takes back what it wrote. -/
def undo (db : Database) (me : Nat) : Database :=
  let tables := (db.writer.filter (·.holder == me)).elim db.tables (·.before)
  { db.finish me with tables }

end Database
end DataAccess.Sqlite
