import DataAccess.Evaluation.Clause
import DataAccess.Numeric.Binary64.Significant
import DataAccess.Text.Utf8

/-!
The storage classes of the engine. A value is bound as one of them, and reading gives the class that
was kept.
-/
namespace DataAccess.Sqlite

inductive Cell where
  | null
  | integer (n : Int64)
  | real (x : Binary64)
  | text (s : String)
  | blob (bytes : List UInt8)
deriving DecidableEq

namespace Cell

/-- NaN is not kept. -/
def ofDouble (x : Binary64) : Cell := if x = .nan then .null else .real x

def ofScalar : Scalar → Cell
  | .boolean b => .integer (if b then 1 else 0)
  | .int32 n => .integer n.toInt64
  | .int64 n => .integer n
  | .float64 x => ofDouble x
  | .decimal d => ofDouble d.toBinary64
  | .varchar t => .text t
  | .blob b => .blob b
  | s => s.canonical?.elim .null .text

def ofValue : Value → Cell
  | .null _ => .null
  | .of s => ofScalar s

def toValue : Cell → Value
  | .null => .null none
  | .integer n => .of (.int64 n)
  | .real x => .of (.float64 x)
  | .text s => .of (.varchar s)
  | .blob b => .of (.blob b)

def isNull (c : Cell) : Bool := decide (c = .null)

/-- Classes in order. Numbers of both kinds are one class. -/
def rank : Cell → Nat
  | .null => 0
  | .integer _ | .real _ => 1
  | .text _ => 2
  | .blob _ => 3

/-- The order of sorting and of keys, in which NULLs are equal. -/
def compare : Cell → Cell → Ordering
  | .integer a, .integer b => Ord.compare a.toInt b.toInt
  | .integer a, .real y => (Binary64.compareInt a.toInt y).getD .eq
  | .real x, .integer b => ((Binary64.compareInt b.toInt x).map Ordering.swap).getD .eq
  | .real x, .real y => (x.compare y).getD .eq
  | .text a, .text b => Ord.compare a b
  | .blob a, .blob b => Ord.compare a b
  | a, b => Ord.compare a.rank b.rank

/-- Cells in a row, the first difference deciding. -/
def compareAll (xs ys : List Cell) : Ordering :=
  (xs.zip ys).foldl (fun o (x, y) => o.then (x.compare y)) .eq

/-- What functions on text are given. -/
def text? : Cell → Option String
  | .null => none
  | .integer n => some (toString n.toInt)
  | .real x => some x.toGeneral
  | .text s => some s
  | .blob bytes => some (String.ofList (Utf8.lossy bytes))

def isBlank (c : Char) : Bool := c = ' ' || ('\t' ≤ c && c ≤ '\r')

/-- The number that a text is, blanks around it aside. -/
def number? (text : String) : Option Cell :=
  let cs := ((text.toList.dropWhile isBlank).reverse.dropWhile isBlank).reverse
  match (Integer.signed? cs).bind Integer.int64? with
  | some n => some (.integer n)
  | none =>
    if cs.all fun c => c.isDigit || ['+', '-', '.', 'e', 'E'].contains c then
      (Binary64.ofText? (String.ofList cs)).map .real
    else none

/-- The nearest integer of sixty-four bits. -/
def clamp (n : Int) : Int64 := .ofInt (max (-Nat.pow 2 63) (min n (Nat.pow 2 63 - 1)))

/-- The integer that a text begins with, zero without one. -/
def leading (cs : List Char) : Int :=
  let natural (cs : List Char) : Int :=
    ((Integer.natural? (cs.takeWhile Char.isDigit)).getD 0 : Nat)
  match cs.dropWhile isBlank with
  | '-' :: rest => -natural rest
  | '+' :: rest => natural rest
  | rest => natural rest

/-- The integer that bits are taken of. Fractions are cut off. -/
def whole? : Cell → Option Int64
  | .null => none
  | .integer n => some n
  | .real (.finite s a) => some (clamp ((Binary64.signed s a.steps).tdiv Binary64.one))
  | .real (.infinite s) => some (clamp (Binary64.signed s (Nat.pow 2 64)))
  | .real .nan => some 0
  | .text s => some (clamp (leading s.toList))
  | .blob bytes => some (clamp (leading (Utf8.lossy bytes)))

end Cell
end DataAccess.Sqlite
