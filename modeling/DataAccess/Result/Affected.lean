/-! What a change to a table reports. -/
namespace DataAccess

/-- The rows changed, when known, and the key of the last row inserted, when there is one. -/
structure Affected where
  rows : Option Nat
  lastKey : Option Int64
deriving DecidableEq

namespace Affected

def unknown : Affected := ⟨none, none⟩
def ofRows (n : Nat) : Affected := ⟨some n, none⟩

/-- A further change: the rows add up in a word while both are known, and a later key stands. -/
def append (a b : Affected) : Affected where
  rows := a.rows.bind fun m => b.rows.map fun n => (m + n) % Nat.pow 2 64
  lastKey := b.lastKey.or a.lastKey

def sum (first : Affected) (rest : List Affected) : Affected := rest.foldl append first

end Affected
end DataAccess
