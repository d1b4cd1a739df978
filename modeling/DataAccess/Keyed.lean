/-! Entries under keys, in the order the keys came. -/
namespace DataAccess

abbrev Keyed (κ α : Type) := List (κ × α)

namespace Keyed

variable {κ α : Type} [DecidableEq κ]

def find? (key : κ) : Keyed κ α → Option α
  | [] => none
  | (k, a) :: rest => if k = key then some a else find? key rest

def put (key : κ) (a : α) : Keyed κ α → Keyed κ α
  | [] => [(key, a)]
  | (k, b) :: rest => if k = key then (k, a) :: rest else (k, b) :: put key a rest

def erase (key : κ) (entries : Keyed κ α) : Keyed κ α := entries.filter fun e => decide (e.1 ≠ key)

end Keyed
end DataAccess
