/-! Sorting by insertion: each element moves ahead of those after it, and no further. -/
namespace DataAccess.StableSort

variable {α : Type}

/-- Into a list in reverse order. -/
def insert (compare : α → α → Ordering) (x : α) : List α → List α
  | [] => [x]
  | y :: rest => if compare x y = .lt then y :: insert compare x rest else x :: y :: rest

def sort (compare : α → α → Ordering) (xs : List α) : List α :=
  (xs.foldl (fun sorted x => insert compare x sorted) []).reverse

end DataAccess.StableSort
