import DataAccess.Failure
import DataAccess.Value.Order

/-! Cells turned into another kind, without loss or not at all. -/
namespace DataAccess

namespace Binary64

/-- Nothing after the point. Infinities and NaN have no such part. -/
def isWhole : Binary64 → Bool
  | .finite _ a => a.steps % one == 0
  | _ => false

/-- What is before the point, or the word next to it. -/
def toInt64 : Binary64 → Int64
  | .nan => 0
  | .infinite s => if s then Int64.minValue else Int64.maxValue
  | .finite s a =>
    .ofInt (max Int64.minValue.toInt (min (signed s (a.steps / one)) Int64.maxValue.toInt))

/-- The word that a whole double is. The double of the greatest word is one past it. -/
def int64? (x : Binary64) : Option Int64 :=
  if x.isWhole && (x.compare (ofInt Int64.minValue.toInt)).any Ordering.isGE
      && x.compare (ofInt Int64.maxValue.toInt) == some .lt
  then some x.toInt64 else none

end Binary64

namespace Scalar

def ofText? (text : String) : Kind → Option Scalar
  | .boolean =>
    if text = "true" ∨ text = "1" then some (.boolean true)
    else if text = "false" ∨ text = "0" then some (.boolean false)
    else none
  | .int32 => ((Integer.signed? text.toList).bind Integer.int32?).map .int32
  | .int64 => ((Integer.signed? text.toList).bind Integer.int64?).map .int64
  | .float64 => (Binary64.ofText? text).map .float64
  | .decimal => (Decimal.ofText? text).map .decimal
  | .varchar => none
  | .blob => some (.blob text.toUTF8.toList)
  | .date => (Date.ofText? text).map .date
  | .time => (Time.ofText? text).map .time
  | .timestamp => (Timestamp.ofText? text).map .timestamp
  | .uuid => (Uuid.ofText? text).map .uuid

def ofInteger? (n : Int) : Kind → Option Scalar
  | .boolean =>
    if n = 0 then some (.boolean false) else if n = 1 then some (.boolean true) else none
  | .int32 => (Integer.int32? n).map .int32
  | .int64 => (Integer.int64? n).map .int64
  | .float64 => some (.float64 (.ofInt n))
  | .decimal => (Decimal.ofInt? n).map .decimal
  | _ => none

def convert? : Scalar → Kind → Option Scalar
  | .varchar text, kind => ofText? text kind
  | .blob bytes, .varchar => (String.fromUTF8? ⟨bytes.toArray⟩).map .varchar
  | .blob bytes, .uuid => (Uuid.ofBytes? bytes).map .uuid
  | .blob _, _ => none
  | s, .varchar => some (.varchar (s.canonical?.getD s.display))
  | .int32 n, kind => ofInteger? n.toInt kind
  | .int64 n, kind => ofInteger? n.toInt kind
  | .float64 x, .int64 => x.int64?.map .int64
  | .float64 x, .decimal => (Decimal.ofBinary64? x).map .decimal
  | .decimal d, .int64 => (d.integer?.bind Integer.int64?).map .int64
  | .decimal d, .float64 => some (.float64 d.toBinary64)
  | .boolean b, .int32 => some (.int32 (if b then 1 else 0))
  | .boolean b, .int64 => some (.int64 (if b then 1 else 0))
  | _, _ => none

def convert (s : Scalar) (kind : Kind) : Outcome Scalar :=
  match s.convert? kind with
  | some t => .ok t
  | none => .error (.typeCoercion s.display kind.name)

/-- A decimal reaches a narrow integer by way of a wide one, which is what a failure shows. -/
def coerce (s : Scalar) (kind : Kind) : Outcome Scalar :=
  if s.kind = kind then .ok s
  else match s, kind with
    | .decimal d, .int32 =>
      match (d.integer?.bind Integer.int64?) with
      | some n => (Scalar.int64 n).convert .int32
      | none => s.convert .int32
    | s, kind => s.convert kind

end Scalar

namespace Value

/-- NULL becomes the NULL of the column's kind, and a column of open kind takes any cell. -/
def coerce (v : Value) : Option Kind → Outcome Value
  | none => .ok v
  | some kind => match v with
    | .null _ => .ok (.null kind)
    | .of s => (s.coerce kind).map .of

end Value
end DataAccess
