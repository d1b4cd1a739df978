/-!
Double precision numbers, kept as what they denote. A finite size is a whole number of steps of
`2 ^ -1074`, the least positive double, so comparing two doubles, or a double and an integer, is
comparing whole numbers.
-/
namespace DataAccess

/-- `mantissa * 2 ^ shift` steps, with the largest mantissa of 53 bits the shift admits. -/
structure Magnitude where
  mantissa : Nat
  shift : Nat
  mantissa_lt : mantissa < Nat.pow 2 53
  shift_le : shift ≤ 2045
  leading : Nat.pow 2 52 ≤ mantissa ∨ shift = 0
deriving DecidableEq

namespace Magnitude

def ofParts? (mantissa shift : Nat) : Option Magnitude :=
  if h : mantissa < Nat.pow 2 53 ∧ shift ≤ 2045 ∧ (Nat.pow 2 52 ≤ mantissa ∨ shift = 0) then
    some ⟨mantissa, shift, h.1, h.2.1, h.2.2⟩
  else none

def zero : Magnitude := ⟨0, 0, by decide, by decide, .inr rfl⟩
def greatest : Magnitude := ⟨Nat.pow 2 53 - 1, 2045, by decide, by decide, .inl (by decide)⟩
def steps (size : Magnitude) : Nat := size.mantissa * Nat.pow 2 size.shift

/-- Sizes are packed in order: the exponent field counts shifts above the mantissa's own bits. -/
def pack (size : Magnitude) : Nat := size.shift * Nat.pow 2 52 + size.mantissa

def unpack? (packed : Nat) : Option Magnitude :=
  if packed < Nat.pow 2 52 then ofParts? packed 0
  else ofParts? (packed % Nat.pow 2 52 + Nat.pow 2 52) (packed / Nat.pow 2 52 - 1)

end Magnitude

inductive Binary64 where
  | nan
  | infinite (negative : Bool)
  | finite (negative : Bool) (size : Magnitude)
deriving DecidableEq

namespace Binary64

/-- Steps in one. -/
def one : Nat := Nat.pow 2 1074

def signed (negative : Bool) (n : Nat) : Int := if negative then -n else n

def steps? : Binary64 → Option Int
  | .finite negative size => some (signed negative size.steps)
  | _ => none

/-- The order of the numbers denoted; NaN has no place in it and both zeros are equal. -/
def compare : Binary64 → Binary64 → Option Ordering
  | .nan, _ | _, .nan => none
  | .infinite s, .infinite t => some (Ord.compare t s)
  | .infinite s, .finite .. => some (if s then .lt else .gt)
  | .finite .., .infinite s => some (if s then .gt else .lt)
  | .finite s a, .finite t b => some (Ord.compare (signed s a.steps) (signed t b.steps))

/-- The order of an integer and a double, without rounding the integer. -/
def compareInt (n : Int) : Binary64 → Option Ordering
  | .nan => none
  | .infinite s => some (if s then .gt else .lt)
  | .finite s a => some (Ord.compare (n * one) (signed s a.steps))

/-- The nearest integer of 128 bits. -/
def wide (n : Int) : Int := max (-Nat.pow 2 127) (min n (Nat.pow 2 127 - 1))

/-- The order of an integer of 128 bits and a double. A double beyond all of these decides by itself.
Elsewhere its floor is one of them, and what it has above the floor breaks the tie. -/
def compareWide (n : Int) : Binary64 → Option Ordering
  | .nan => none
  | .infinite s => some (if s then .gt else .lt)
  | .finite s a =>
    let steps := signed s a.steps
    let floor := steps / one
    if Nat.pow 2 127 * one ≤ steps then some .lt
    else if steps < -(Nat.pow 2 127 * one) then some .gt
    else some ((Ord.compare n (wide floor)).then (if floor * one < steps then .lt else .eq))

/-- The integer denoted, when there is one. -/
def integer? : Binary64 → Option Int
  | .finite s a => if a.steps % one = 0 then some (signed s (a.steps / one)) else none
  | _ => none

instance : BEq Binary64 := ⟨fun a b => a.compare b == some .eq⟩

def signBit (negative : Bool) : Nat := if negative then Nat.pow 2 63 else 0

/-- The exchange format: sign, eleven bits of exponent, fifty-two of fraction. -/
def toBits : Binary64 → UInt64
  | .nan => 0x7ff8000000000000
  | .infinite s => UInt64.ofNat (signBit s + 2047 * Nat.pow 2 52)
  | .finite s a => UInt64.ofNat (signBit s + a.pack)

def ofBits (bits : UInt64) : Binary64 :=
  let negative := decide (Nat.pow 2 63 ≤ bits.toNat)
  let packed := bits.toNat % Nat.pow 2 63
  match Magnitude.unpack? packed with
  | some size => .finite negative size
  | none => if packed = 2047 * Nat.pow 2 52 then .infinite negative else .nan

end Binary64
end DataAccess
