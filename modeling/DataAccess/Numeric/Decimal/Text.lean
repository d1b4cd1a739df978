import DataAccess.Numeric.Decimal

/-!
Decimals as text: every place of the scale is written, and zero has one digit before the point.
-/
namespace DataAccess.Decimal

def toText (d : Decimal) : String :=
  let digits := Nat.toDigits 10 d.mantissa
  let digits := List.replicate (d.scale + 1 - digits.length) '0' ++ digits
  let whole := digits.length - d.scale
  let text := if d.scale = 0 then digits else digits.take whole ++ '.' :: digits.drop whole
  (if d.negative then "-" else "") ++ String.ofList text

/-- How far a reader is: the number so far and its places, whether a digit and the point came. -/
structure Progress where
  mantissa : Nat
  scale : Nat
  digits : Bool
  point : Bool

namespace Progress

def start : Progress := ⟨0, 0, false, false⟩

def push (p : Progress) (digit : Nat) : Progress :=
  ⟨p.mantissa * 10 + digit, if p.point then p.scale + 1 else 0, true, p.point⟩

/-- Whether the digits before the last one are surely few enough for one word. -/
def isShort (p : Progress) : Bool := decide (p.mantissa / 10 < (Nat.pow 2 64 - 1) / 10 - 255)

/-- Zero has no sign. -/
def finish (negative : Bool) (p : Progress) : Option Decimal :=
  ofParts? (negative && p.mantissa != 0) p.mantissa p.scale

/-- Room is out: only digits and underscores may follow, and the first digit of them rounds, a half
going up. A mantissa rounded past its bits gives up one place. -/
def round (negative : Bool) (p : Progress) (left : List Char) : Option Decimal :=
  let digits := left.filter (· ≠ '_')
  if digits.all Char.isDigit then
    let up := 5 ≤ (digits.head?.bind Integer.digit?).getD 0
    let rounded := if up then p.mantissa + 1 else p.mantissa
    if rounded < Nat.pow 2 96 then finish negative { p with mantissa := rounded }
    else if p.scale = 0 then none
    else finish negative { p with mantissa := (rounded + 4) / 10, scale := p.scale - 1 }
  else none

end Progress

/-- Digits with at most one point; an underscore may follow once there was a digit. Where room is
out after a short mantissa, an underscore takes the place of the digit that rounds. -/
def plain? (negative : Bool) (p : Progress) : List Char → Option Decimal
  | [] => if p.digits then p.finish negative else none
  | c :: rest =>
    if p.point ∧ 28 ≤ p.scale then
      p.round negative (if c = '_' ∧ p.isShort then '0' :: rest else c :: rest)
    else match Integer.digit? c with
      | some digit =>
        if (p.push digit).mantissa < Nat.pow 2 96 then plain? negative (p.push digit) rest
        else if p.point then p.round negative (c :: rest)
        else none
      | none =>
        if c = '.' ∧ p.point = false then plain? negative { p with point := true } rest
        else if c = '_' ∧ p.digits then plain? negative p rest
        else none

def signedPlain? : List Char → Option Decimal
  | '-' :: rest => plain? true .start rest
  | '+' :: rest => plain? false .start rest
  | cs => plain? false .start cs

/-- The mantissa with at most `scale` places, a half going up. -/
def fewerPlaces (d : Decimal) (scale : Nat) : Nat :=
  if scale < d.scale then cut (d.mantissa / Nat.pow 10 (d.scale - scale - 1)) else d.mantissa

/-- Moves the point `exponent` places to the left; what passes the last place rounds, and the sign
stays where that leaves zero. -/
def shiftLeft? (d : Decimal) (exponent : Nat) : Option Decimal :=
  ofParts? d.negative (d.fewerPlaces (28 - exponent)) (min 28 (d.scale + exponent))

/-- Moves the point `exponent` places to the right, by zeros once the scale is used up. -/
def shiftRight? (d : Decimal) (exponent : Nat) : Option Decimal :=
  ofParts? d.negative (d.mantissa * Nat.pow 10 (exponent - d.scale)) (d.scale - exponent)

def exponent? (cs : List Char) : Option Nat := (Integer.unsigned? cs).filter (· ≤ 28)

def scientific? (cs : List Char) : Option Decimal :=
  let isMark (c : Char) : Bool := c = 'e' || c = 'E'
  match signedPlain? (cs.takeWhile (!isMark ·)), cs.dropWhile (!isMark ·) with
  | some base, _ :: '-' :: rest => (exponent? rest).bind base.shiftLeft?
  | some base, _ :: rest => (exponent? rest).bind base.shiftRight?
  | _, _ => none

def ofText? (text : String) : Option Decimal :=
  (signedPlain? text.toList).or (scientific? text.toList)

end DataAccess.Decimal
