import DataAccess.Calendar.Date
import DataAccess.Calendar.Time

/-! A day and a time of day, without a zone. -/
namespace DataAccess

structure Timestamp where
  date : Date
  time : Time
deriving DecidableEq

namespace Timestamp

def compare (a b : Timestamp) : Ordering := (a.date.compare b.date).then (a.time.compare b.time)

def toText (t : Timestamp) : String := t.date.toText ++ " " ++ t.time.toText

def toDebug (t : Timestamp) : String := t.date.toText ++ " " ++ t.time.toDebug

def ofText? (text : String) : Option Timestamp := Calendar.whole? do
  let (date, cs) ← Date.read? text.toList
  let cs ← Calendar.mark? ' ' cs
  let (time, cs) ← Time.read? cs
  pure (⟨date, time⟩, cs)

end Timestamp
end DataAccess
