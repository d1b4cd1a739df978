import DataAccess.Criteria
import DataAccess.Join.Expression

/-! What pairs of rows are asked for. -/
namespace DataAccess

namespace JoinKind

/-- The kind that keeps the same rows with the sides exchanged; only one-sided kinds have one. -/
def flip : JoinKind → Outcome JoinKind
  | .leftOuter => .ok .rightOuter
  | .rightOuter => .ok .leftOuter
  | kind => .error (.unsupportedFlip kind)

end JoinKind

inductive Side where
  | left | right
deriving DecidableEq

def Side.other : Side → Side
  | .left => .right
  | .right => .left

structure JoinSortKey where
  property : String
  direction : Direction
  side : Side
deriving DecidableEq

def JoinSortKey.flip (k : JoinSortKey) : JoinSortKey := { k with side := k.side.other }

/-- Side filters apply before the join: a row that fails its filter is as good as absent. -/
structure JoinCriteria where
  kind : JoinKind
  operator : Connective
  expressions : List JoinExpression
  orders : List JoinSortKey
  left : Option Criteria
  right : Option Criteria
  window : Window
deriving BEq

namespace JoinCriteria

def ofKind (kind : JoinKind) : JoinCriteria := ⟨kind, .and, [], [], none, none, .all⟩
def on (c : JoinCriteria) (e : JoinExpression) : JoinCriteria :=
  { c with expressions := c.expressions ++ [e] }
def orderBy (c : JoinCriteria) (side : Side) (property : String) (direction : Direction) :
    JoinCriteria :=
  { c with orders := c.orders ++ [⟨property, direction, side⟩] }
def start (c : JoinCriteria) (n : Nat) : JoinCriteria :=
  { c with window := { c.window with start := some n } }
def limit (c : JoinCriteria) (n : Nat) : JoinCriteria :=
  { c with window := { c.window with limit := some n } }

def validate (c : JoinCriteria) : Outcome Unit :=
  if c.expressions.isEmpty then .error (.emptyCriteria "join") else .ok ()

def criteria (c : JoinCriteria) : Side → Option Criteria
  | .left => c.left
  | .right => c.right

/-- Gives a side its filter, of which order and window do not count. -/
def withFilter (c : JoinCriteria) (side : Side) (filter : Criteria) : JoinCriteria :=
  match side with
  | .left => { c with left := some filter.filterOnly }
  | .right => { c with right := some filter.filterOnly }

/-- A side's filter, unless it admits every row. -/
def filter? (c : JoinCriteria) (side : Side) : Option Criteria :=
  (c.criteria side).filter (!·.isEmpty)

def flip (c : JoinCriteria) : Outcome JoinCriteria := do
  pure { c with
    kind := (← c.kind.flip)
    expressions := c.expressions.map .flip
    orders := c.orders.map .flip
    left := c.right
    right := c.left }

end JoinCriteria

/-- A pair of rows; an outer join leaves a side out where there was no partner. -/
structure JoinResult (α β : Type) where
  left : Option α
  right : Option β
deriving DecidableEq

def JoinResult.flip {α β : Type} (r : JoinResult α β) : JoinResult β α := ⟨r.right, r.left⟩

end DataAccess
