import DataAccess.Sqlite.Cell
import DataAccess.Text.Form

/-!
The class that a column prefers. It changes what is put into the column, and the operands that the
column is compared with.
-/
namespace DataAccess.Sqlite

inductive Affinity where
  | integer | real | numeric | text | blob
deriving DecidableEq

namespace Affinity

/-- The first word that a column's type has in it decides. -/
def ofType (type : String) : Affinity :=
  let name := type.toList.map Char.toUpper
  let mentions (word : String) : Bool := (Form.splitAt? word.toList name).isSome
  if mentions "INT" then .integer
  else if mentions "CHAR" || mentions "CLOB" || mentions "TEXT" then .text
  else if mentions "BLOB" || name.isEmpty then .blob
  else if mentions "REAL" || mentions "FLOA" || mentions "DOUB" then .real
  else .numeric

def isNumeric (a : Affinity) : Bool := decide (a ≠ .text ∧ a ≠ .blob)

/-- The integer that a double is. The ends of the range are not trusted. -/
def integer? (x : Binary64) : Option Int64 :=
  (x.integer?.bind Integer.int64?).filter fun n => n != Int64.minValue && n != Int64.maxValue

/-- A number in the preferred class if nothing is lost by that. All reals of a column of reals have
been integers if they could, so zero has no sign there. -/
def fitNumber : Affinity → Cell → Cell
  | .integer, .real x | .numeric, .real x => ((integer? x).map .integer).getD (.real x)
  | .real, .real x => .real (((integer? x).map fun n => .ofInt n.toInt).getD x)
  | .real, .integer n => .real (.ofInt n.toInt)
  | _, c => c

/-- A cell as a column keeps it. Text that is no number stays text. -/
def fit : Affinity → Cell → Cell
  | .text, .integer n => .text (toString n.toInt)
  | .text, .real x => .text x.toGeneral
  | .text, c | .blob, c => c
  | a, .text s => ((Cell.number? s).map a.fitNumber).getD (.text s)
  | a, c => a.fitNumber c

/-- An operand as it is compared with a cell of the column, and the other way round. -/
def meet : Affinity → Cell → Cell → Cell
  | .text, .text _, .integer n => .text (toString n.toInt)
  | .text, .text _, .real x => .text x.toGeneral
  | .text, _, c | .blob, _, c => c
  | _, _, .text s => (Cell.number? s).getD (.text s)
  | _, _, c => c

/-- NULL compares with nothing. -/
def compare (a : Affinity) (x y : Cell) : Option Ordering :=
  if x.isNull || y.isNull then none else some ((a.meet y x).compare (a.meet x y))

/-- What two columns are compared with each other by. -/
def join (a b : Affinity) : Affinity := if a.isNumeric || b.isNumeric then .numeric else .blob

/-- LIKE reads no further than the first zero character. -/
def spelled (text : String) : String := String.ofList (text.toList.takeWhile (· ≠ '\x00'))

/-- Whether a clause, or its negation, is true of a cell of the column. -/
def admits (a : Affinity) (x : Cell) (positive : Bool) : Clause → Bool
  | .equal v => if v.isNull then x.isNull == positive else compares v (· == .eq)
  | .equalIgnoringCase v =>
    if v.isNull then x.isNull == positive
    else match x.text?, (Cell.ofValue v).text? with
      | some s, some t => (lowered s == lowered t) == positive
      | _, _ => false
  | .greater v => compares v (· == .gt)
  | .lesser v => compares v (· == .lt)
  | .between low high =>
    let low := a.compare x (.ofValue low)
    let high := a.compare x (.ofValue high)
    if positive then low.any (· != .lt) && high.any (· != .gt)
    else low.any (· == .lt) || high.any (· == .gt)
  | .like pattern => x.text?.any fun s => Like.like (spelled pattern) (spelled s) == positive
  | .likeIgnoringCase pattern => x.text?.any fun s =>
    Like.like (spelled (lowered pattern)) (spelled (lowered s)) == positive
  | .hasBits mask => x.whole?.any fun n => (n &&& mask == mask) == positive
  | .inList vs =>
    let cells := vs.map Cell.ofValue
    if x.isNull then false
    else if cells.any fun y => a.compare x y == some .eq then positive
    else !positive && cells.all fun y => !y.isNull
where
  compares (v : Value) (holds : Ordering → Bool) : Bool :=
    (a.compare x (.ofValue v)).any fun o => holds o == positive

end Affinity
end DataAccess.Sqlite
