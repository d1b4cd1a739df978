import DataAccess.Numeric.Integer

/-! Fields of a fixed number of digits, written and read. -/
namespace DataAccess.Calendar

def padded (width n : Nat) : List Char :=
  let digits := Nat.toDigits 10 n
  List.replicate (width - digits.length) '0' ++ digits

/-- Exactly `width` digits, and what follows them. -/
def field? (width : Nat) (cs : List Char) : Option (Nat × List Char) :=
  if (cs.take width).length = width then
    (Integer.natural? (cs.take width)).map (·, cs.drop width)
  else none

def mark? (mark : Char) : List Char → Option (List Char)
  | [] => none
  | c :: rest => if c = mark then some rest else none

/-- What was read, provided nothing is left. -/
def whole? {α : Type} : Option (α × List Char) → Option α
  | some (a, []) => some a
  | _ => none

end DataAccess.Calendar
