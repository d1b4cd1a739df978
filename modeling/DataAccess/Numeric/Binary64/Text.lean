import DataAccess.Numeric.Integer
import DataAccess.Numeric.Binary64.Rounding
import DataAccess.Numeric.Binary64.Shortest

/-! Doubles as text: positional, scientific, and the reader of both. -/
namespace DataAccess

namespace Digits

def zeros (n : Nat) : List Char := List.replicate n '0'

/-- No exponent, and a point only before a fraction. -/
def positional (d : Digits) : List Char :=
  if d.point ≤ 0 then '0' :: '.' :: zeros (-d.point).toNat ++ d.digits
  else if d.digits.length ≤ d.point.toNat then d.digits ++ zeros (d.point.toNat - d.digits.length)
  else d.digits.take d.point.toNat ++ '.' :: d.digits.drop d.point.toNat

/-- One digit before the point. -/
def scientific (d : Digits) : List Char :=
  let head := match d.digits with
    | [] => []
    | [c] => [c]
    | c :: rest => c :: '.' :: rest
  head ++ 'e' :: (toString (d.point - 1)).toList

end Digits

namespace Binary64

def sign (negative : Bool) : String := if negative then "-" else ""

def render (size : Magnitude → List Char) : Binary64 → String
  | .nan => "NaN"
  | .infinite s => sign s ++ "inf"
  | .finite s a => sign s ++ String.ofList (size a)

def toText : Binary64 → String := render fun a => a.shortest.positional

/-- The form of diagnostics: a fraction is always written, and sizes below `10 ^ -4` or from
`10 ^ 16` on have an exponent. -/
def toDebug : Binary64 → String := render fun a =>
  let d := a.shortest
  if a.mantissa ≠ 0 ∧ (d.point < -3 ∨ 16 < d.point) then d.scientific
  else
    let text := d.positional
    if '.' ∈ text then text else text ++ ['.', '0']

/-- `n * 10 ^ exponent`; sizes out of every double's reach are settled without the power. -/
def ofScientific (negative : Bool) (n : Nat) (exponent : Int) : Binary64 :=
  if n = 0 then .finite negative .zero
  else
    let top := exponent + (Nat.toDigits 10 n).length
    if 310 < top then .infinite negative
    else if top < -330 then .finite negative .zero
    else if 0 ≤ exponent then ofRatio negative (n * Nat.pow 10 exponent.toNat) 1
    else ofRatio negative n (Nat.pow 10 (-exponent).toNat)

def exponent? : List Char → Option Int
  | [] => some 0
  | c :: rest => if c = 'e' ∨ c = 'E' then Integer.signed? rest else none

/-- Digits with an optional point, at least one digit in all, and an optional exponent. -/
def number? (negative : Bool) (cs : List Char) : Option Binary64 :=
  let whole := cs.takeWhile Char.isDigit
  let (fraction, rest) := match cs.dropWhile Char.isDigit with
    | '.' :: more => (more.takeWhile Char.isDigit, more.dropWhile Char.isDigit)
    | more => ([], more)
  match Integer.natural? (whole ++ fraction), exponent? rest with
  | some n, some e => some (ofScientific negative n (e - fraction.length))
  | _, _ => none

def unsigned? (negative : Bool) (cs : List Char) : Option Binary64 :=
  let word := String.ofList (cs.map Char.toLower)
  if word = "nan" then some .nan
  else if word = "inf" ∨ word = "infinity" then some (.infinite negative)
  else number? negative cs

def ofText? (text : String) : Option Binary64 :=
  match text.toList with
  | '-' :: rest => unsigned? true rest
  | '+' :: rest => unsigned? false rest
  | cs => unsigned? false cs

end Binary64
end DataAccess
