import DataAccess.Sql.Statement

/-! Compiled queries and commands: text with its parameters. -/
namespace DataAccess

/-- What rows a query gives; a statement gives none. -/
inductive Shape where
  | select | count | countGrouped | join | joinCount | statement
deriving DecidableEq

/-- A statement and the dialect it is written in. -/
structure Written where
  dialect : Sql.Dialect
  statement : Statement

def Written.pieces (w : Written) : Outcome Sql.Pieces := w.statement.pieces w.dialect

/-- Text and parameters, the tables that rows decode into, the criteria for those who evaluate it
themselves, and what the text was written from. -/
structure Query where
  shape : Shape
  text : String
  params : List Value
  mapping : Option Mapping
  joined : Option Mapping
  criteria : Option Criteria
  written : Option Written

namespace Query

def blank (shape : Shape) : Query := ⟨shape, "", [], none, none, none, none⟩
def reset (q : Query) : Query := blank q.shape
def push (q : Query) (text : String) : Query := { q with text := q.text ++ text }
def bind (q : Query) (v : Value) : Query := { q with params := q.params ++ [v] }
def isEmpty (q : Query) : Bool := q.text.isEmpty
def display (q : Query) : String := Text.abridged q.text

/-- The text of a statement, appended. -/
def compile (d : Sql.Dialect) (s : Statement) (q : Query) : Outcome Query := do
  let ps ← s.pieces d
  pure { q with
    text := q.text ++ d.write ps
    params := q.params ++ ps.params
    written := some ⟨d, s⟩ }

end Query

/-- Text to be run with parameters, in a transaction or outside of all. -/
structure Command where
  text : String
  params : List Value
  transaction : Option Nat
  written : Option Written

namespace Command

def ofText (text : String) : Command := ⟨text, [], none, none⟩

/-- The text is what a command is kept for. -/
def reset (c : Command) : Command := ofText c.text

def inspect (c : Command) : String :=
  "Command \x7b text: " ++ Text.quoted c.text ++ ", params: " ++
    Scalar.listed (c.params.map Value.inspect) ++ ", transaction: " ++
    c.transaction.elim "None" (fun n => "Some(" ++ toString n ++ ")") ++ " \x7d"

end Command
end DataAccess
