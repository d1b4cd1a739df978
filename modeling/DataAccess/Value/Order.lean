import DataAccess.Value.Text
import DataAccess.Numeric.Decimal.Binary

/-!
Comparing cells. Numbers of all kinds compare as numbers; other kinds only with their own.
-/
namespace DataAccess

namespace Kind

/-- Where a kind's cells sort among cells they do not compare with. -/
def rank : Kind → Nat
  | .boolean => 1
  | .int32 | .int64 | .float64 | .decimal => 2
  | .varchar => 3
  | .blob => 4
  | .date => 5
  | .time => 6
  | .timestamp => 7
  | .uuid => 8

end Kind

namespace Scalar

/-- The integer denoted by an integer, or by a decimal without fraction. -/
def integer? : Scalar → Option Int
  | .int32 n => some n.toInt
  | .int64 n => some n.toInt
  | .decimal d => d.integer?
  | _ => none

def double? : Scalar → Option Binary64
  | .int32 n => some (.ofInt n.toInt)
  | .int64 n => some (.ofInt n.toInt)
  | .float64 x => some x
  | .decimal d => some d.toBinary64
  | _ => none

/-- Integers meet doubles without being rounded; two numbers with fractions meet as doubles. -/
def compareNumbers (a b : Scalar) : Option Ordering :=
  match a.integer?, b.integer? with
  | some m, some n => some (Ord.compare m n)
  | some m, none => b.double?.bind (Binary64.compareWide m)
  | none, some n => (a.double?.bind (Binary64.compareWide n)).map Ordering.swap
  | none, none => a.double?.bind fun x => b.double?.bind x.compare

def compare : Scalar → Scalar → Option Ordering
  | .boolean a, .boolean b => some (Ord.compare a b)
  | .varchar a, .varchar b => some (Ord.compare a b)
  | .blob a, .blob b => some (Ord.compare a b)
  | .date a, .date b => some (a.compare b)
  | .time a, .time b => some (a.compare b)
  | .timestamp a, .timestamp b => some (a.compare b)
  | .uuid a, .uuid b => some (a.compare b)
  | .decimal a, .decimal b => some (a.compare b)
  | a, b => compareNumbers a b

end Scalar

namespace Value

/-- Undefined when either side is NULL or the kinds do not compare. -/
def compare : Value → Value → Option Ordering
  | .of a, .of b => a.compare b
  | _, _ => none

/-- For sorting: NULLs come first, and what does not compare goes by rank. -/
def sortCompare : Value → Value → Ordering
  | .null _, .null _ => .eq
  | .null _, .of _ => .lt
  | .of _, .null _ => .gt
  | .of a, .of b => (a.compare b).getD (Ord.compare a.kind.rank b.kind.rank)

end Value

/-- What cells that compare equal have in common, fit for a look-up. -/
inductive JoinKey where
  | boolean (b : Bool)
  | integer (n : Int)
  | double (bits : UInt64)
  | text (text : String)
  | blob (bytes : List UInt8)
deriving DecidableEq

namespace JoinKey

/-- The double next to `10 ^ 36`, from which on doubles are keyed by their bits. -/
def bound : Nat := 1000000000000000042420637374017961984

def ofDouble (x : Binary64) : JoinKey :=
  match x.integer? with
  | some n => if n.natAbs < bound then .integer n else .double x.toBits
  | none => .double x.toBits

def ofScalar (s : Scalar) : JoinKey :=
  match s.integer?, s with
  | some n, _ => .integer n
  | none, .boolean b => .boolean b
  | none, .float64 x => ofDouble x
  | none, .decimal d => ofDouble d.toBinary64
  | none, .varchar t => .text t
  | none, .blob bytes => .blob bytes
  | none, s => .text s.display

end JoinKey

namespace Value

def joinKey? : Value → Option JoinKey
  | .null _ => none
  | .of s => some (.ofScalar s)

end Value
end DataAccess
