import DataAccess.Calendar.Field

/-! Times of day to the nanosecond. -/
namespace DataAccess

structure Time where
  hour : Nat
  minute : Nat
  second : Nat
  nano : Nat
  hour_lt : hour < 24
  minute_lt : minute < 60
  second_lt : second < 60
  nano_lt : nano < Nat.pow 10 9
deriving DecidableEq

namespace Time

def ofParts? (hour minute second nano : Nat) : Option Time :=
  if h : hour < 24 ∧ minute < 60 ∧ second < 60 ∧ nano < Nat.pow 10 9 then
    some ⟨hour, minute, second, nano, h.1, h.2.1, h.2.2.1, h.2.2.2⟩
  else none

/-- Nanoseconds since midnight. -/
def sinceMidnight (t : Time) : Nat :=
  ((t.hour * 60 + t.minute) * 60 + t.second) * Nat.pow 10 9 + t.nano

def compare (a b : Time) : Ordering := Ord.compare a.sinceMidnight b.sinceMidnight

/-- The fraction of a second without its trailing zeros, at least one digit. -/
def fraction (nano : Nat) : List Char :=
  match Calendar.padded 9 nano with
  | [] => []
  | c :: rest => c :: (rest.reverse.dropWhile (· = '0')).reverse

def afterHour (t : Time) : List Char :=
  ':' :: Calendar.padded 2 t.minute ++ ':' :: Calendar.padded 2 t.second ++ '.' :: fraction t.nano

def chars (t : Time) : List Char := Calendar.padded 2 t.hour ++ t.afterHour

def toText (t : Time) : String := String.ofList t.chars

/-- The form of diagnostics, whose hour has no leading zero. -/
def toDebug (t : Time) : String := String.ofList (Nat.toDigits 10 t.hour ++ t.afterHour)

/-- At most thirty-two digits after the point are read; those beyond the ninth are dropped. -/
def fraction? (cs : List Char) : Option (Nat × List Char) :=
  let digits := (cs.takeWhile Char.isDigit).take 32
  let kept := digits.take 9
  (Integer.natural? kept).map fun n => (n * Nat.pow 10 (9 - kept.length), cs.drop digits.length)

def read? (cs : List Char) : Option (Time × List Char) := do
  let (hour, cs) ← Calendar.field? 2 cs
  let cs ← Calendar.mark? ':' cs
  let (minute, cs) ← Calendar.field? 2 cs
  let cs ← Calendar.mark? ':' cs
  let (second, cs) ← Calendar.field? 2 cs
  let cs ← Calendar.mark? '.' cs
  let (nano, cs) ← fraction? cs
  let time ← ofParts? hour minute second nano
  pure (time, cs)

def ofText? (text : String) : Option Time := Calendar.whole? (read? text.toList)

end Time
end DataAccess
