/-! Reading decimal integers: an optional sign, then at least one digit and nothing else. -/
namespace DataAccess.Integer

def digit? (c : Char) : Option Nat := if c.isDigit then some (c.toNat - '0'.toNat) else none

/-- The number a list of digits denotes, after what was read before. -/
def ofDigits (before : Nat) : List Char → Option Nat
  | [] => some before
  | c :: rest => match digit? c with
    | some d => ofDigits (before * 10 + d) rest
    | none => none

def natural? : List Char → Option Nat
  | [] => none
  | cs => ofDigits 0 cs

def unsigned? : List Char → Option Nat
  | '+' :: rest => natural? rest
  | cs => natural? cs

def signed? : List Char → Option Int
  | '-' :: rest => (natural? rest).map fun n => -(n : Int)
  | cs => (unsigned? cs).map Int.ofNat

/-- A count of at most 64 bits. -/
def word? (cs : List Char) : Option Nat := (unsigned? cs).filter (· < Nat.pow 2 64)

def int32? (n : Int) : Option Int32 :=
  if -Nat.pow 2 31 ≤ n ∧ n < Nat.pow 2 31 then some (Int32.ofInt n) else none
def int64? (n : Int) : Option Int64 :=
  if -Nat.pow 2 63 ≤ n ∧ n < Nat.pow 2 63 then some (Int64.ofInt n) else none

end DataAccess.Integer
