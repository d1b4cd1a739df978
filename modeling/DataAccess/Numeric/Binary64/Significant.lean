import DataAccess.Numeric.Binary64.Text

/-! Doubles as text of so many significant digits. -/
namespace DataAccess

/-- The first `n` digits, a half of the last going up. -/
def Magnitude.significant (n : Nat) (a : Magnitude) : Digits :=
  if a.mantissa = 0 then ⟨['0'], 1⟩
  else
    let place := a.firstPlace - n
    let unit := Nat.pow 10 place.toNat * Binary64.one
    let parts := a.steps * Nat.pow 10 (-place).toNat
    Digits.ofCount ((2 * parts + unit) / (2 * unit)) place

namespace Digits

/-- A point with a digit behind it, whatever is there. -/
def pointed : List Char → List Char
  | [] => []
  | c :: rest => c :: '.' :: if rest.isEmpty then ['0'] else rest

/-- A sign and at least two digits. -/
def exponent (e : Int) : List Char :=
  let digits := Nat.toDigits 10 e.natAbs
  (if e < 0 then '-' else '+') :: zeros (2 - digits.length) ++ digits

/-- Sizes below `10 ^ -4` or from `10 ^ n` on have an exponent; a fraction is always written. -/
def general (n : Nat) (d : Digits) : List Char :=
  if d.point < -3 ∨ n < d.point then pointed d.digits ++ 'e' :: exponent (d.point - 1)
  else
    let text := d.positional
    if '.' ∈ text then text else text ++ ['.', '0']

end Digits

namespace Binary64

/-- Fifteen significant digits. Zero has no sign. -/
def toGeneral : Binary64 → String
  | .nan => "NaN"
  | .infinite s => sign s ++ "Inf"
  | .finite s a =>
    sign (s && a.mantissa != 0) ++ String.ofList ((a.significant 15).general 15)

end Binary64
end DataAccess
