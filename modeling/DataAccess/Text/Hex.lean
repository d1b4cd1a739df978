/-! Bytes in hexadecimal, two digits each. -/
namespace DataAccess.Hex

def digit (n : Nat) : Char := Nat.digitChar (n % 16)

def ofByte (b : UInt8) : List Char := [digit (b.toNat / 16), digit b.toNat]

def ofBytes (bytes : List UInt8) : List Char := bytes.flatMap ofByte

def digit? (c : Char) : Option Nat :=
  if c.isDigit then some (c.toNat - '0'.toNat)
  else if 'a' ≤ c ∧ c ≤ 'f' then some (c.toNat - 'a'.toNat + 10)
  else if 'A' ≤ c ∧ c ≤ 'F' then some (c.toNat - 'A'.toNat + 10)
  else none

def number? (before : Nat) : List Char → Option Nat
  | [] => some before
  | c :: rest => (digit? c).bind fun d => number? (before * 16 + d) rest

def bytes? : List Char → Option (List UInt8)
  | [] => some []
  | [_] => none
  | a :: b :: rest => do
    let high ← digit? a
    let low ← digit? b
    let rest ← bytes? rest
    pure (UInt8.ofNat (high * 16 + low) :: rest)

end DataAccess.Hex
