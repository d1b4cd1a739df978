import DataAccess.Calendar.Field

/-! Days of the proleptic Gregorian calendar, years -9999 to 9999. -/
namespace DataAccess

def leapYear (year : Int) : Bool :=
  year % 4 = 0 && (year % 100 != 0 || year % 400 = 0)

def daysInMonth (year : Int) (month : Nat) : Nat :=
  if month = 2 then if leapYear year then 29 else 28
  else if month ∈ [4, 6, 9, 11] then 30
  else 31

structure Date where
  year : Int
  month : Nat
  day : Nat
  year_bounds : -9999 ≤ year ∧ year ≤ 9999
  month_bounds : 1 ≤ month ∧ month ≤ 12
  day_bounds : 1 ≤ day ∧ day ≤ daysInMonth year month
deriving DecidableEq

namespace Date

def ofParts? (year : Int) (month day : Nat) : Option Date :=
  if h : (-9999 ≤ year ∧ year ≤ 9999) ∧ (1 ≤ month ∧ month ≤ 12) ∧
      (1 ≤ day ∧ day ≤ daysInMonth year month) then
    some ⟨year, month, day, h.1, h.2.1, h.2.2⟩
  else none

def compare (a b : Date) : Ordering :=
  (Ord.compare a.year b.year).then ((Ord.compare a.month b.month).then (Ord.compare a.day b.day))

def chars (d : Date) : List Char :=
  (if d.year < 0 then ['-'] else []) ++ Calendar.padded 4 d.year.natAbs ++
    '-' :: Calendar.padded 2 d.month ++ '-' :: Calendar.padded 2 d.day

def toText (d : Date) : String := String.ofList d.chars

def year? : List Char → Option (Int × List Char)
  | '-' :: rest => (Calendar.field? 4 rest).map fun (n, rest) => (-(n : Int), rest)
  | '+' :: rest => (Calendar.field? 4 rest).map fun (n, rest) => ((n : Int), rest)
  | cs => (Calendar.field? 4 cs).map fun (n, rest) => ((n : Int), rest)

def read? (cs : List Char) : Option (Date × List Char) := do
  let (year, cs) ← year? cs
  let cs ← Calendar.mark? '-' cs
  let (month, cs) ← Calendar.field? 2 cs
  let cs ← Calendar.mark? '-' cs
  let (day, cs) ← Calendar.field? 2 cs
  let date ← ofParts? year month day
  pure (date, cs)

def ofText? (text : String) : Option Date := Calendar.whole? (read? text.toList)

end Date
end DataAccess
