/-! The part of a result that is asked for: where it starts and how long it may be. -/
namespace DataAccess

structure Window where
  start : Option Nat
  limit : Option Nat
deriving DecidableEq

namespace Window

def all : Window := ⟨none, none⟩

def isPaginated (w : Window) : Bool := w.start.isSome || w.limit.isSome

def take {α : Type} (w : Window) (rows : List α) : List α :=
  let rest := rows.drop (w.start.getD 0)
  match w.limit with
  | some limit => rest.take limit
  | none => rest

/-- How many of `total` rows are taken. -/
def count (w : Window) (total : Nat) : Nat :=
  let rest := total - w.start.getD 0
  match w.limit with
  | some limit => min rest limit
  | none => rest

end Window
end DataAccess
