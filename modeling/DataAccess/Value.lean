import DataAccess.Numeric.Binary64
import DataAccess.Numeric.Decimal
import DataAccess.Calendar.Timestamp
import DataAccess.Uuid

/-!
Cells. A NULL may know its column's kind; a NULL of no kind comes from where kinds are not known.
-/
namespace DataAccess

inductive Kind where
  | boolean | int32 | int64 | float64 | decimal | varchar | blob | date | time | timestamp | uuid
deriving DecidableEq

inductive Scalar where
  | boolean (b : Bool)
  | int32 (n : Int32)
  | int64 (n : Int64)
  | float64 (x : Binary64)
  | decimal (d : Decimal)
  | varchar (text : String)
  | blob (bytes : List UInt8)
  | date (d : Date)
  | time (t : Time)
  | timestamp (t : Timestamp)
  | uuid (u : Uuid)
deriving DecidableEq

inductive Value where
  | null (kind : Option Kind)
  | of (scalar : Scalar)
deriving DecidableEq

abbrev Row := List Value

namespace Kind

def name : Kind → String
  | .boolean => "BOOLEAN"
  | .int32 => "INTEGER"
  | .int64 => "BIGINT"
  | .float64 => "DOUBLE"
  | .decimal => "DECIMAL"
  | .varchar => "VARCHAR"
  | .blob => "BLOB"
  | .date => "DATE"
  | .time => "TIME"
  | .timestamp => "TIMESTAMP"
  | .uuid => "UUID"

/-- A column's kind may be left open. -/
def nameOf : Option Kind → String
  | none => "NULL"
  | some kind => kind.name

end Kind

namespace Scalar

def kind : Scalar → Kind
  | .boolean _ => .boolean
  | .int32 _ => .int32
  | .int64 _ => .int64
  | .float64 _ => .float64
  | .decimal _ => .decimal
  | .varchar _ => .varchar
  | .blob _ => .blob
  | .date _ => .date
  | .time _ => .time
  | .timestamp _ => .timestamp
  | .uuid _ => .uuid

/-- Doubles and decimals are equal as numbers: NaN differs from itself, and scales do not count. -/
instance : BEq Scalar := ⟨fun
  | .float64 x, .float64 y => x == y
  | .decimal x, .decimal y => x == y
  | a, b => decide (a = b)⟩

end Scalar

namespace Value

def kind : Value → Option Kind
  | .null kind => kind
  | .of scalar => some scalar.kind

def isNull : Value → Bool
  | .null _ => true
  | .of _ => false

def sameKind (a b : Value) : Bool := decide (a.kind = b.kind)

/-- The NULL of the same kind. -/
def asNull (v : Value) : Value := .null v.kind

def kindName (v : Value) : String := Kind.nameOf v.kind

/-- NULLs are equal when they know the same of their kind. -/
instance : BEq Value := ⟨fun
  | .null k, .null l => decide (k = l)
  | .of a, .of b => a == b
  | _, _ => false⟩

end Value
end DataAccess
