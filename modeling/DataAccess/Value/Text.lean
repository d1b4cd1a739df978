import DataAccess.Value
import DataAccess.Numeric.Binary64.Text
import DataAccess.Numeric.Decimal.Text
import DataAccess.Text.Quoted

/-! Cells as text: the canonical text of moments and identifiers, SQL literals, and diagnostics. -/
namespace DataAccess

namespace Scalar

/-- How an engine without a kind of its own for them stores moments and identifiers. -/
def canonical? : Scalar → Option String
  | .date d => some d.toText
  | .time t => some t.toText
  | .timestamp t => some t.toText
  | .uuid u => some u.toText
  | _ => none

def display : Scalar → String
  | .boolean b => if b then "true" else "false"
  | .int32 n => toString n.toInt
  | .int64 n => toString n.toInt
  | .float64 x => x.toText
  | .decimal d => d.toText
  | .varchar text => "'" ++ text ++ "'"
  | .blob bytes => "X'" ++ String.ofList ((Hex.ofBytes bytes).map Char.toUpper) ++ "'"
  | .date d => "'" ++ d.toText ++ "'"
  | .time t => "'" ++ t.toText ++ "'"
  | .timestamp t => "'" ++ t.toText ++ "'"
  | .uuid u => "'" ++ u.toText ++ "'"

def listed (items : List String) : String := "[" ++ ", ".intercalate items ++ "]"

def inspect : Scalar → String
  | .boolean b => if b then "true" else "false"
  | .int32 n => toString n.toInt
  | .int64 n => toString n.toInt
  | .float64 x => x.toDebug
  | .decimal d => d.toText
  | .varchar text => Text.quoted text
  | .blob bytes => listed (bytes.map (toString ·.toNat))
  | .date d => d.toText
  | .time t => t.toDebug
  | .timestamp t => t.toDebug
  | .uuid u => u.toText

end Scalar

namespace Kind

/-- The name of a kind's cells in diagnostics. -/
def label : Kind → String
  | .boolean => "Boolean"
  | .int32 => "Int32"
  | .int64 => "Int64"
  | .float64 => "Float64"
  | .decimal => "Decimal"
  | .varchar => "Varchar"
  | .blob => "Blob"
  | .date => "Date"
  | .time => "Time"
  | .timestamp => "Timestamp"
  | .uuid => "Uuid"

end Kind

namespace Value

def canonical? : Value → Option String
  | .null _ => none
  | .of scalar => scalar.canonical?

def display : Value → String
  | .null _ => "NULL"
  | .of scalar => scalar.display

/-- The form of diagnostics, which tells kinds and kinds of NULL apart. -/
def inspect : Value → String
  | .null none => "Null"
  | .null (some kind) => kind.label ++ "(None)"
  | .of scalar => scalar.kind.label ++ "(Some(" ++ scalar.inspect ++ "))"

end Value
end DataAccess
