import DataAccess.Keyed
import DataAccess.Query
import DataAccess.Sqlite.Table

/-! The tables that a connection sees: those of the database, and its own. -/
namespace DataAccess.Sqlite

inductive Schema where
  | main | temp
deriving DecidableEq

/-- Tables under their names in lower case. -/
abbrev Tables := Keyed String Table

/-- Tables of a database, and tables that belong to one connection. -/
structure Catalog where
  shared : Tables
  own : Tables
deriving DecidableEq

namespace Catalog

def schema? (name : String) : Option Schema :=
  if sameName name "main" then some .main
  else if sameName name "temp" then some .temp
  else none

def tables (c : Catalog) : Schema → Tables
  | .main => c.shared
  | .temp => c.own

def setTables (c : Catalog) (tables : Tables) : Schema → Catalog
  | .main => { c with shared := tables }
  | .temp => { c with own := tables }

def findIn (c : Catalog) (s : Schema) (name : String) : Option (Schema × Table) :=
  ((c.tables s).find? (lowered name)).map (s, ·)

/-- A table's name alone means the connection's own table first. -/
def find? (c : Catalog) (ref : TableRef) : Option (Schema × Table) :=
  if ref.schema = "" then (c.findIn .temp ref.name).or (c.findIn .main ref.name)
  else (schema? ref.schema).bind fun s => c.findIn s ref.name

def table (c : Catalog) (ref : TableRef) : Answer (Schema × Table) :=
  match c.find? ref with
  | some found => .ok found
  | none => .error (.noSuchTable ref.fullName)

def put (c : Catalog) (s : Schema) (t : Table) : Catalog :=
  c.setTables ((c.tables s).put (lowered t.name) t) s

/-- Where a table is created. Tables are not created in databases that are not there. -/
def home (d : Sql.Dialect) (offset : Nat) (ref : TableRef) : Answer (Schema × Spot) :=
  let name := d.name ref.name
  if ref.schema = "" then .ok (.main, ⟨name, offset⟩)
  else
    let schema := d.name ref.schema
    match schema? ref.schema with
    | some s => .ok (s, ⟨name, offset + schema.utf8ByteSize + 1⟩)
    | none => .error (.unknownDatabase ⟨schema, offset⟩)

/-- The first column that has the name of an earlier one. -/
def repeated? (seen : List String) : List Column → Option String
  | [] => none
  | c :: rest =>
    if seen.any (sameName c.name) then some c.name else repeated? (c.name :: seen) rest

def create (c : Catalog) (d : Sql.Dialect) (m : Mapping) (ifNotExists : Bool) : Answer Catalog := do
  let ps := Sql.createTable d m ifNotExists
  let (s, spot) ← home d (d.size (ps.take 1)) m.table
  if (lowered m.table.name).startsWith "sqlite_" then throw (.reservedName m.table.name)
  if (c.findIn s m.table.name).isSome then
    if ifNotExists then pure c else throw (.tableExists spot)
  else
    if m.columns.isEmpty then throw (.malformed ⟨")", d.size ps - 2⟩)
    if let some column := repeated? [] m.columns then throw (.duplicateColumn column)
    pure (c.put s (.declare d m))

def drop (c : Catalog) (m : Mapping) (ifExists : Bool) : Answer Catalog :=
  match c.find? m.table with
  | some (s, t) => .ok (c.setTables ((c.tables s).erase (lowered t.name)) s)
  | none => if ifExists then .ok c else .error (.noSuchTable m.table.fullName)

end Catalog
end DataAccess.Sqlite
