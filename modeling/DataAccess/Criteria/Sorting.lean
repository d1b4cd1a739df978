/-! Sort keys. A computed key is an engine's own text and has no meaning elsewhere. -/
namespace DataAccess

inductive Direction where
  | ascending | descending | computed
deriving DecidableEq

def Direction.apply : Direction → Ordering → Ordering
  | .descending, o => o.swap
  | _, o => o

structure SortKey where
  property : String
  direction : Direction
deriving DecidableEq

end DataAccess
