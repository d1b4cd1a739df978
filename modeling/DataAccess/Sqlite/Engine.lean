import DataAccess.Sqlite.Lock

/-! The databases in use, which live as long as somebody is connected to them. -/
namespace DataAccess.Sqlite

/-- Databases by location, and how many connections were opened and transactions begun. -/
structure Engine where
  databases : Keyed String Database
  opened : Nat
  begun : Nat

namespace Engine

def idle : Engine := ⟨[], 0, 0⟩

def database (e : Engine) (location : String) : Database :=
  (e.databases.find? location).getD .empty

def setDatabase (e : Engine) (location : String) (db : Database) : Engine :=
  { e with databases := e.databases.put location db }

def connect (e : Engine) (location : String) : Engine :=
  let db := e.database location
  { e.setDatabase location { db with holders := db.holders + 1 } with opened := e.opened + 1 }

/-- The last connection that closes takes the database with it. What it has not committed is lost.
-/
def disconnect (e : Engine) (location : String) (serial : Nat) : Engine :=
  let db := e.database location
  if db.holders ≤ 1 then { e with databases := e.databases.erase location }
  else e.setDatabase location { db.undo serial with holders := db.holders - 1 }

end Engine
end DataAccess.Sqlite
