import DataAccess.Numeric.Binary64

/-!
The shortest decimal that reads back as a given double. The numbers that round to a size fill an
interval around it; the coarsest decimal grid with a point in that interval wins, and on it the
point nearest to the size, the upper one on a tie.
-/
namespace DataAccess

/-- The number `0.d₁d₂… * 10 ^ point`. -/
structure Digits where
  digits : List Char
  point : Int
deriving DecidableEq

namespace Digits

def trimZeros (digits : List Char) : List Char := (digits.reverse.dropWhile (· = '0')).reverse

/-- `n` counts units of `10 ^ place`. -/
def ofCount (n : Nat) (place : Int) : Digits :=
  let digits := Nat.toDigits 10 n
  ⟨trimZeros digits, place + digits.length⟩

end Digits

namespace Magnitude

/-- The ends of the interval in quarters of the last place; below a leading bit the grid of doubles
is twice as fine. -/
def lowerEnd (a : Magnitude) : Nat :=
  if a.mantissa = Nat.pow 2 52 ∧ 0 < a.shift then 4 * a.mantissa - 1 else 4 * a.mantissa - 2
def upperEnd (a : Magnitude) : Nat := 4 * a.mantissa + 2

/-- Whether `num / den` rounds to `a`; the ends belong to even mantissas. -/
def admits (a : Magnitude) (num den : Nat) : Bool :=
  let low := a.lowerEnd * Nat.pow 2 a.shift * den
  let high := a.upperEnd * Nat.pow 2 a.shift * den
  let here := num * (4 * Binary64.one)
  if a.mantissa % 2 = 0 then decide (low ≤ here ∧ here ≤ high)
  else decide (low < here ∧ here < high)

/-- The place of the first digit: `10 ^ (k - 1) ≤ a < 10 ^ k`. -/
def firstPlace (a : Magnitude) : Int :=
  if Binary64.one ≤ a.steps then (Nat.toDigits 10 (a.steps / Binary64.one)).length
  else 1 - ((Nat.toDigits 10 ((Binary64.one - 1) / a.steps)).length : Int)

/-- The best point of the grid `10 ^ place`, if it has one in the interval. -/
def onGrid (a : Magnitude) (place : Int) : Option Nat :=
  let num := Nat.pow 10 place.toNat
  let den := Nat.pow 10 (-place).toNat
  let below := a.steps * den / (num * Binary64.one)
  let low := a.admits (below * num) den
  let high := a.admits ((below + 1) * num) den
  let nearerBelow := decide (2 * a.steps * den < (2 * below + 1) * num * Binary64.one)
  if low && (nearerBelow || !high) then some below
  else if high then some (below + 1)
  else none

/-- Seventeen digits always suffice. -/
def shortest (a : Magnitude) : Digits :=
  if a.mantissa = 0 then ⟨['0'], 1⟩
  else
    let k := a.firstPlace
    let found := (List.range 17).findSome? fun i =>
      let place := k - (i + 1 : Nat)
      (a.onGrid place).map fun n => Digits.ofCount n place
    found.getD ⟨['0'], 1⟩

end Magnitude
end DataAccess
