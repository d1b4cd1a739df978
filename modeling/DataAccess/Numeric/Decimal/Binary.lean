import DataAccess.Numeric.Decimal
import DataAccess.Numeric.Binary64.Rounding

/-! Decimals from doubles and doubles from decimals. -/
namespace DataAccess.Decimal

/-- `m / 2 ^ k` as a count of units `p` places after the point: halving an even count leaves one
place fewer, five times a half is a tenth, and where the count has no room for that the last bit
goes. -/
def ofHalves : Nat → Nat → Nat → Nat × Nat
  | 0, m, p => (m, p)
  | k + 1, m, p =>
    if m % 2 ≠ 0 ∧ m * 5 < Nat.pow 2 96 then ofHalves k (m * 5) p else ofHalves k (m / 2) (p - 1)

/-- At most twenty-eight places; what is left without a digit is zero. -/
def limitPlaces (m : Nat) : Nat → Nat × Nat
  | 0 => (m, 0)
  | p + 1 =>
    if p < 28 then (m, p + 1) else if m / 10 = 0 then (0, 0) else limitPlaces (cut m) p

/-- A fraction keeps no more digits than fit fifty-two bits. -/
def limitBits (m : Nat) : Nat → Nat × Nat
  | 0 => (m, 0)
  | p + 1 => if m < Nat.pow 2 52 then (m, p + 1) else limitBits (cut m) p

def stripZeros (m : Nat) : Nat → Nat × Nat
  | 0 => (m, 0)
  | p + 1 => if m % 10 = 0 then stripZeros (m / 10) p else (m, p + 1)

/-- A double with no bit after the point is taken as it is; of the others so many digits are kept
as a double's own precision warrants. -/
def ofBinary64? : Binary64 → Option Decimal
  | .finite negative size =>
    if size.mantissa = 0 then ofParts? negative 0 0
    else if 1074 ≤ size.shift then
      ofParts? negative (size.mantissa * Nat.pow 2 (size.shift - 1074)) 0
    else
      let (m, p) := ofHalves (1074 - size.shift) size.mantissa (1074 - size.shift)
      let (m, p) := limitPlaces m p
      let (m, p) := limitBits m p
      let (m, p) := stripZeros m p
      ofParts? negative m p
  | _ => none

/-- Whole part and fraction are rounded apart and added; the sum is rounded to the decimal's own
places before it is given back. -/
def toBinary64 (d : Decimal) : Binary64 :=
  if d.scale = 0 then .finite (d.negative && d.mantissa != 0) (.ofNat d.mantissa)
  else
    let unit := Magnitude.ofNat (Nat.pow 10 d.scale)
    let whole := Magnitude.ofNat (d.mantissa / Nat.pow 10 d.scale)
    let fraction := (Magnitude.ofNat (d.mantissa % Nat.pow 10 d.scale)).div unit
    if fraction.mantissa = 0 then .finite d.negative whole
    else .finite d.negative (((whole.add fraction).mul unit).round.div unit)

end DataAccess.Decimal
