import DataAccess.Sql.Piece

/-! The dialects: the common conventions, and those of sqlite. -/
namespace DataAccess.Sql

/-- Each `mark` replaced. -/
def escaped (mark : Char) (replacement : String) (text : String) : String :=
  String.ofList (text.toList.flatMap fun c => if c = mark then replacement.toList else [c])

def quoted (name : String) : String := "\"" ++ escaped '"' "\"\"" name ++ "\""

/-- An offset may stand without a limit. -/
def limitThenOffset (w : Window) : String :=
  let offset (lead : String) : String := match w.start with
    | some n => lead ++ "OFFSET " ++ toString n
    | none => ""
  match w.limit with
  | some n => "\nLIMIT " ++ toString n ++ offset " "
  | none => offset "\n"

/-- An offset needs a limit; minus one is none. -/
def limitBeforeOffset (w : Window) : String :=
  if w.isPaginated then
    "\nLIMIT " ++ w.limit.elim "-1" toString ++ w.start.elim "" fun n => " OFFSET " ++ toString n
  else ""

namespace Dialect

def generic : Dialect where
  declaresAlias part := part = .selectFrom ∨ part = .join
  name := quoted
  columnAlias name := " AS " ++ quoted name
  placeholder _ := "?"
  kind k := k.elim "VARCHAR" Kind.name
  window := limitThenOffset
  supports _ := true
  fullJoin := "FULL OUTER JOIN"

/-- Four classes of storage. -/
def storageClass : Option Kind → String
  | some .boolean | some .int32 | some .int64 => "INTEGER"
  | some .float64 | some .decimal => "REAL"
  | some .blob => "BLOB"
  | _ => "TEXT"

def sqlite : Dialect := { generic with kind := storageClass, window := limitBeforeOffset }

end Dialect
end DataAccess.Sql
