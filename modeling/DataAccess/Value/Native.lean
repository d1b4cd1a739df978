import DataAccess.Value.Coercion

/-! Cells read into types that a program works with, and written from them. -/
namespace DataAccess

namespace Kind

/-- The name of the type that cells of a kind are read into. -/
def typeName : Kind → String
  | .boolean => "bool"
  | .int32 => "i32"
  | .int64 => "i64"
  | .float64 => "f64"
  | .decimal => "rust_decimal::decimal::Decimal"
  | .varchar => "alloc::string::String"
  | .blob => "alloc::boxed::Box<[u8]>"
  | .date => "time::date::Date"
  | .time => "time::time::Time"
  | .timestamp => "time::plain_date_time::PlainDateTime"
  | .uuid => "uuid::Uuid"

end Kind

/-- A type whose values are the cells of one kind. -/
class Native (α : Type) where
  kind : Kind
  toScalar : α → Scalar
  ofScalar? : Scalar → Option α

instance : Native Bool := ⟨.boolean, .boolean, fun | .boolean b => some b | _ => none⟩
instance : Native Int32 := ⟨.int32, .int32, fun | .int32 n => some n | _ => none⟩
instance : Native Int64 := ⟨.int64, .int64, fun | .int64 n => some n | _ => none⟩
instance : Native Binary64 := ⟨.float64, .float64, fun | .float64 x => some x | _ => none⟩
instance : Native Decimal := ⟨.decimal, .decimal, fun | .decimal d => some d | _ => none⟩
instance : Native String := ⟨.varchar, .varchar, fun | .varchar t => some t | _ => none⟩
instance : Native (List UInt8) := ⟨.blob, .blob, fun | .blob b => some b | _ => none⟩
instance : Native Date := ⟨.date, .date, fun | .date d => some d | _ => none⟩
instance : Native Time := ⟨.time, .time, fun | .time t => some t | _ => none⟩
instance : Native Timestamp := ⟨.timestamp, .timestamp, fun | .timestamp t => some t | _ => none⟩
instance : Native Uuid := ⟨.uuid, .uuid, fun | .uuid u => some u | _ => none⟩

namespace Native

variable {α : Type} [Native α]

def toValue (a : α) : Value := .of (toScalar a)

/-- The NULL of the type's cells where there is no value. -/
def toNullable : Option α → Value
  | some a => toValue a
  | none => .null (some (kind α))

/-- The cell must be one of the type's kind, or become one; NULL is none. -/
def ofValue (v : Value) : Outcome α :=
  let found := match v.coerce (kind α) with
    | .ok (.of s) => ofScalar? s
    | _ => none
  match found with
  | some a => .ok a
  | none => .error (.typeCoercion v.inspect (kind α).typeName)

def ofNullable (v : Value) : Outcome (Option α) :=
  if v.isNull then .ok none else (ofValue v).map some

/-- What is left of a cell that the type was read from. -/
def read (α : Type) [Native α] (nullable : Bool) (v : Value) : Outcome Value :=
  if nullable then (ofNullable v : Outcome (Option α)).map toNullable
  else (ofValue v : Outcome α).map toValue

end Native
end DataAccess
