import DataAccess.Numeric.Binary64

/-! Rounding ratios to the nearest double, a half going to the even neighbour. -/
namespace DataAccess

def roundHalfEven (num den : Nat) : Nat :=
  let q := num / den
  let twice := 2 * (num % den)
  if twice < den then q
  else if den < twice then q + 1
  else if q % 2 = 0 then q else q + 1

namespace Magnitude

/-- The nearest size to `num / den`, `none` past the greatest. The shift leaves 53 bits, or none
to drop; rounding up to a full `2 ^ 53` moves one place on. -/
def nearest? (num den : Nat) : Option Magnitude :=
  let scaled := num * Binary64.one
  let shift := (scaled / den).log2 - 52
  let mantissa := roundHalfEven scaled (den * Nat.pow 2 shift)
  if mantissa = Nat.pow 2 53 then ofParts? (Nat.pow 2 52) (shift + 1) else ofParts? mantissa shift

/-- The nearest size, the greatest one standing in for all beyond it. -/
def near (num den : Nat) : Magnitude := (nearest? num den).getD greatest

def ofNat (n : Nat) : Magnitude := near n 1
def add (a b : Magnitude) : Magnitude := near (a.steps + b.steps) Binary64.one
def mul (a b : Magnitude) : Magnitude := near (a.steps * b.steps) (Binary64.one * Binary64.one)
def div (a b : Magnitude) : Magnitude := near a.steps b.steps

/-- The nearest whole number, a half going up. -/
def round (a : Magnitude) : Magnitude := ofNat ((2 * a.steps + Binary64.one) / (2 * Binary64.one))

end Magnitude

namespace Binary64

def ofRatio (negative : Bool) (num den : Nat) : Binary64 :=
  match Magnitude.nearest? num den with
  | some size => .finite negative size
  | none => .infinite negative

def ofInt (n : Int) : Binary64 := ofRatio (decide (n < 0)) n.natAbs 1

end Binary64
end DataAccess
