import DataAccess.Criteria
import DataAccess.Evaluation.Like
import DataAccess.Value.Coercion

/-!
The truth of a clause for a cell, which is unknown where NULLs or kinds leave it open. An unknown
clause matches neither as it stands nor negated.
-/
namespace DataAccess

namespace Value

/-- An operand in the column's kind where it has a form in it. -/
def fitted (kind : Option Kind) (operand : Value) : Value :=
  if operand.kind = kind then operand else (operand.coerce kind).toOption.getD operand

/-- The text that patterns are held against. -/
def text? : Value → Option String
  | .null _ => none
  | .of s => match s with
    | .varchar t => some t
    | .int32 _ | .int64 _ | .float64 _ | .decimal _ => some s.display
    | s => s.canonical?

end Value

def lowered (text : String) : String := text.map Char.toLower

namespace Clause

def compares (kind : Option Kind) (cell operand : Value) (holds : Ordering → Bool) : Option Bool :=
  (cell.compare (operand.fitted kind)).map holds

/-- Whether each bit of the mask is set, in two's complement. -/
def bitsSet (n : Int) (mask : Int64) : Bool :=
  let mask := BitVec.ofInt 128 mask.toInt
  BitVec.ofInt 128 n &&& mask == mask

def truth (kind : Option Kind) (cell : Value) : Clause → Option Bool
  | .equal operand =>
    if operand.isNull then some cell.isNull else compares kind cell operand (· == .eq)
  | .equalIgnoringCase operand =>
    if operand.isNull then some cell.isNull
    else match cell.text?, operand.text? with
      | some a, some b => some (lowered a == lowered b)
      | _, _ => compares kind cell operand (· == .eq)
  | .greater operand => compares kind cell operand (· == .gt)
  | .lesser operand => compares kind cell operand (· == .lt)
  | .between low high =>
    match cell.compare (low.fitted kind), cell.compare (high.fitted kind) with
    | some a, some b => some (a != .lt && b != .gt)
    | _, _ => none
  | .like pattern => cell.text?.map (Like.like pattern)
  | .likeIgnoringCase pattern => cell.text?.map fun t => Like.like (lowered pattern) (lowered t)
  | .hasBits mask => match cell with
    | .of s => s.integer?.map (bitsSet · mask)
    | .null _ => none
  | .inList operands =>
    if cell.isNull then none
    else if operands.any fun v => cell.compare (v.fitted kind) == some .eq then some true
    else if operands.any (·.isNull) then none
    else some false

def matchesCell (kind : Option Kind) (cell : Value) (clause : Clause) (positive : Bool) : Bool :=
  clause.truth kind cell == some positive

end Clause
end DataAccess
