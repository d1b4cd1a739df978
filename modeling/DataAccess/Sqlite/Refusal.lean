import DataAccess.Failure

/-! What the engine refuses, in its words and with its codes. -/
namespace DataAccess.Sqlite

/-- A place in a statement's text. -/
structure Spot where
  token : String
  offset : Nat
deriving DecidableEq

inductive Refusal where
  | malformed (spot : Spot)
  | noSuchTable (table : String)
  | tableExists (spot : Spot)
  | unknownDatabase (spot : Spot)
  | reservedName (table : String)
  | duplicateColumn (column : String)
  | noSuchColumn (column : String) (offset : Option Nat)
  | noColumnNamed (table column : String)
  | schemaLocked (schema : String)
  | locked (table : Option String)
  | notUnique (table : String) (columns : List String)
  | nullCell (table column : String)
  | mismatch
  | alreadyBegun
  | nothingToCommit
  | nothingToRollBack
  | cannotOpen (path : String)
  | unknownOption (what value : String)
  | noSuchCell (place : Nat)
  | unreadable (reason : String)
deriving DecidableEq

namespace Refusal

def message : Refusal → String
  | .malformed spot => "near \"" ++ spot.token ++ "\": syntax error"
  | .noSuchTable table => "no such table: " ++ table
  | .tableExists spot => "table " ++ spot.token ++ " already exists"
  | .unknownDatabase spot => "unknown database " ++ spot.token
  | .reservedName table => "object name reserved for internal use: " ++ table
  | .duplicateColumn column => "duplicate column name: " ++ column
  | .noSuchColumn column _ => "no such column: " ++ column
  | .noColumnNamed table column => "table " ++ table ++ " has no column named " ++ column
  | .schemaLocked schema => "database schema is locked: " ++ schema
  | .locked table => "database table is locked" ++ table.elim "" (": " ++ ·)
  | .notUnique table columns =>
    "UNIQUE constraint failed: " ++ ", ".intercalate (columns.map fun c => table ++ "." ++ c)
  | .nullCell table column => "NOT NULL constraint failed: " ++ table ++ "." ++ column
  | .mismatch => "datatype mismatch"
  | .alreadyBegun => "cannot start a transaction within a transaction"
  | .nothingToCommit => "cannot commit - no transaction is active"
  | .nothingToRollBack => "cannot rollback - no transaction is active"
  | .cannotOpen path => "unable to open database file: " ++ path
  | .unknownOption what value => "no such " ++ what ++ ": " ++ value
  | .noSuchCell place => "Invalid column index: " ++ toString place
  | .unreadable reason => reason

def code : Refusal → Nat × String
  | .notUnique .. => (1555, "A PRIMARY KEY constraint failed")
  | .nullCell .. => (1299, "A NOT NULL constraint failed")
  | .mismatch => (20, "Data type mismatch")
  | .cannotOpen _ => (14, "Unable to open the database file")
  | .schemaLocked _ | .locked _ =>
    (262, "Locking conflict due to another connection with a shared cache")
  | _ => (1, "SQL error or missing database")

/-- Where in its text a statement is at fault, when that is told. -/
def offset? : Refusal → Option Nat
  | .malformed spot | .tableExists spot | .unknownDatabase spot => some spot.offset
  | .noSuchColumn _ offset => offset
  | _ => none

/-- Whether a statement is refused before it is run. -/
def precedesRun : Refusal → Bool
  | .malformed _ | .noSuchTable _ | .tableExists _ | .unknownDatabase _ | .reservedName _
  | .duplicateColumn _ | .noSuchColumn .. | .noColumnNamed .. | .schemaLocked _
  | .unreadable _ => true
  | _ => false

def coded (r : Refusal) (message : String) : Failure :=
  .context message (.other ("Error code " ++ toString r.code.1 ++ ": " ++ r.code.2))

def failure (r : Refusal) : Failure :=
  match r with
  | .noSuchCell _ => .other r.message
  | _ => r.coded r.message

/-- The failure of a statement that the engine sees for the first time. -/
def failureIn (text : String) (r : Refusal) : Failure :=
  match r.offset? with
  | some n => r.coded (r.message ++ " in " ++ text ++ " at offset " ++ toString n)
  | none => r.failure

end Refusal

abbrev Answer := Except Refusal

end DataAccess.Sqlite
