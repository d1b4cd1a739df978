import DataAccess.Numeric.Integer

/-!
Decimals of at most ninety-six bits and twenty-eight places. The scale is part of the value's text
but not of the number: `1.50` and `1.5` are equal.
-/
namespace DataAccess

structure Decimal where
  negative : Bool
  mantissa : Nat
  scale : Nat
  mantissa_lt : mantissa < Nat.pow 2 96
  scale_le : scale ≤ 28
deriving DecidableEq

namespace Decimal

def ofParts? (negative : Bool) (mantissa scale : Nat) : Option Decimal :=
  if h : mantissa < Nat.pow 2 96 ∧ scale ≤ 28 then some ⟨negative, mantissa, scale, h.1, h.2⟩
  else none

def zero : Decimal := ⟨false, 0, 0, by decide, by decide⟩

def ofInt? (n : Int) : Option Decimal := ofParts? (decide (n < 0)) n.natAbs 0

def signed (d : Decimal) : Int := if d.negative then -d.mantissa else d.mantissa

/-- The number denoted. -/
def value (d : Decimal) : Rat := d.signed / (Nat.pow 10 d.scale : Nat)

/-- The order of the numbers denoted, both brought to one scale. -/
def compare (a b : Decimal) : Ordering :=
  Ord.compare (a.signed * Nat.pow 10 b.scale) (b.signed * Nat.pow 10 a.scale)

instance : BEq Decimal := ⟨fun a b => a.compare b == .eq⟩

/-- The last digit off, a half going up. -/
def cut (m : Nat) : Nat := if 5 ≤ m % 10 then m / 10 + 1 else m / 10

/-- The integer denoted, when there is no fraction. -/
def integer? (d : Decimal) : Option Int :=
  if d.mantissa % Nat.pow 10 d.scale = 0 then
    let whole := d.mantissa / Nat.pow 10 d.scale
    some (if d.negative then -whole else whole)
  else none

end Decimal
end DataAccess
