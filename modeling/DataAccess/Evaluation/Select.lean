import DataAccess.Evaluation.Filter
import DataAccess.Evaluation.StableSort

/-! Selecting and counting rows in process. -/
namespace DataAccess

/-- Rows by their cells at the given places, the first difference deciding. -/
def Row.compareAt (places : List (Nat × Direction)) (a b : Row) : Ordering :=
  places.foldl (fun o (i, direction) =>
    o.then (direction.apply ((a.cell i).sortCompare (b.cell i)))) .eq

def Row.compareKeys (a b : Row) : Ordering :=
  (a.zip b).foldl (fun o (x, y) => o.then (x.sortCompare y)) .eq

structure GroupCount where
  count : Nat
  values : Row
deriving BEq

namespace GroupCount

/-- Runs of equal keys, each under its first one. -/
def runs : List Row → List GroupCount
  | [] => []
  | key :: rest =>
    let run := rest.takeWhile fun k => Row.compareKeys key k == .eq
    ⟨run.length + 1, key⟩ :: runs (rest.dropWhile fun k => Row.compareKeys key k == .eq)
termination_by keys => keys.length
decreasing_by
  have := (List.dropWhile_sublist (fun k => Row.compareKeys key k == Ordering.eq)
    (l := rest)).length_le
  simp only [List.length_cons]
  omega

end GroupCount

namespace Criteria

/-- The rows the filter admits, in their order. -/
def filter (m : Mapping) (c : Criteria) : List Row → Outcome (List Row)
  | [] => .ok []
  | row :: rest => do
    let kept ← c.admits m row
    let others ← c.filter m rest
    pure (if kept then row :: others else others)

def select (m : Mapping) (c : Criteria) (rows : List Row) : Outcome (List Row) := do
  let places ← SortKey.places m c.orders
  let kept ← c.filter m rows
  pure (c.window.take (StableSort.sort (Row.compareAt places) kept))

/-- How many rows the filter admits; the window does not count. -/
def count (m : Mapping) (c : Criteria) (rows : List Row) : Outcome Nat :=
  (c.filter m rows).map List.length

/-- Counts for each combination of cells under the properties, in their order. Without properties
all rows are one group, an empty one included. -/
def countGrouped (m : Mapping) (c : Criteria) (groupBy : List String) (rows : List Row) :
    Outcome (List GroupCount) := do
  let places ← groupBy.mapM m.position
  let kept ← c.filter m rows
  if places.isEmpty then pure (c.window.take [⟨kept.length, []⟩])
  else
    let keys := kept.map fun row => places.map row.cell
    pure (c.window.take (GroupCount.runs (StableSort.sort Row.compareKeys keys)))

end Criteria
end DataAccess
