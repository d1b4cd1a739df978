import DataAccess.Backend
import DataAccess.Join.Plan

/-!
Joins over storages: run by the left storage where it reaches the right table, or else here, both
sides being fetched.
-/
namespace DataAccess

abbrev JoinedRow := JoinResult Row Row

/-- A storage and a table in it. -/
structure Source (σ : Type) where
  backend : Backend σ
  mapping : Mapping

namespace Join

variable {σ : Type}

/-- The criteria a side is fetched by: its filter, and its sort keys. -/
def sideCriteria (c : JoinCriteria) (side : Side) : Criteria :=
  { ((c.filter? side).getD .all) with
    orders := (c.orders.filter (decide <| ·.side = side)).map fun k => ⟨k.property, k.direction⟩ }

def planned (left right : Mapping) (c : JoinCriteria) : Action σ JoinPlan := do
  let p ← Action.of (JoinPlan.ofCriteria left right c)
  Action.effect (Effect.log .debug ("Pseudo " ++ c.kind.display ++ " join of `" ++
    left.table.fullName ++ "` with `" ++ right.table.fullName ++ "` using " ++
    (if p.index.isSome then "a hash index" else "a nested loop") ++
    ", both sides are loaded in memory"))
  pure p

/-- The plan and the rows of both sides, the left ones fetched first. -/
def loaded (l r : Source σ) (c : JoinCriteria) : Action σ (JoinPlan × List Row × List Row) := do
  let p ← planned l.mapping r.mapping c
  let left ← l.backend.fetch l.mapping (sideCriteria c .left)
  let right ← r.backend.fetch r.mapping (sideCriteria c .right)
  pure (p, left, right)

/-- The side whose rows are all kept is put first. -/
def fromKeptSide {α : Type} (l r : Source σ) (c : JoinCriteria)
    (run : Bool → Source σ → Source σ → JoinCriteria → Action σ α) : Action σ α := do
  Action.of c.validate
  if c.kind = .rightOuter then run true r l (← Action.of c.flip) else run false l r c

/-- Joins here. -/
def here (l r : Source σ) (c : JoinCriteria) : Action σ (List JoinedRow) :=
  fromKeptSide l r c fun flipped l r c => do
    let (p, left, right) ← loaded l r c
    let rows := (c.window.take (p.sorted left right)).map (JoinPlan.rowsOf left right)
    pure (if flipped then rows.map .flip else rows)

def countHere (l r : Source σ) (c : JoinCriteria) : Action σ Nat :=
  fromKeptSide l r c fun _ l r c => do
    let (p, left, right) ← loaded l r c
    pure (c.window.count (p.merge left right).length)

/-- How a join is run: by the left storage as it is or with the sides exchanged, or here. -/
inductive Strategy where
  | native | nativeFlipped | inMemory
deriving DecidableEq

def resolve (l r : Backend σ) (c : JoinCriteria) : Option (Joins σ × Bool) := do
  let joins ← l.joins
  guard (joins.reaches c r.name r.descriptor)
  if joins.supports c.kind then pure (joins, false)
  else match c.kind.flip with
    | .ok kind => if joins.supports kind then pure (joins, true) else none
    | .error _ => none

def strategy (l r : Backend σ) (c : JoinCriteria) : Strategy :=
  match resolve l r c with
  | some (_, false) => .native
  | some (_, true) => .nativeFlipped
  | none => .inMemory

/-- A side of a joined row; it is left out when all its key cells are NULL. -/
def sideOf (coerce : Value → Option Kind → Outcome Value) (m : Mapping) (cells : Row) :
    Outcome (Option Row) :=
  if m.keyPositions.all fun i => (cells.cell i).isNull then .ok none
  else (m.undecodable ((cells.zip m.columns).mapM fun (v, c) => coerce v c.kind)).map some

/-- Cuts a joined row into its sides. -/
def decode (coerce : Value → Option Kind → Outcome Value) (p : Sql.Pair) (row : LabeledRow) :
    Outcome JoinedRow := do
  let width := p.left.columns.length + p.right.columns.length
  if row.cells.length ≠ width then
    throw (.resultProcessing (p.left.table.fullName ++ " joined with " ++ p.right.table.fullName)
      (.other ("expected " ++ toString width ++ " columns, the row has " ++
        toString row.cells.length)))
  pure ⟨← sideOf coerce p.left (row.cells.take p.left.columns.length),
    ← sideOf coerce p.right (row.cells.drop p.left.columns.length)⟩

def native (b : Backend σ) (joins : Joins σ) (p : Sql.Pair) (c : JoinCriteria) :
    Action σ (List JoinedRow) := do
  b.collect (← joins.compile p c) (decode b.coerce p)

def fetch (l r : Source σ) (c : JoinCriteria) : Action σ (List JoinedRow) := do
  Action.of c.validate
  match resolve l.backend r.backend c with
  | some (joins, false) => native l.backend joins ⟨l.mapping, r.mapping⟩ c
  | some (joins, true) =>
    Action.effect (Effect.log .debug (l.backend.name ++ " cannot run a " ++ c.kind.display ++
      " join, running the flipped join"))
    let rows ← native l.backend joins ⟨r.mapping, l.mapping⟩ (← Action.of c.flip)
    pure (rows.map .flip)
  | none => here l r c

def count (l r : Source σ) (c : JoinCriteria) : Action σ Nat := do
  Action.of c.validate
  match resolve l.backend r.backend c with
  | some (joins, false) => joins.count ⟨l.mapping, r.mapping⟩ c
  | some (joins, true) => joins.count ⟨r.mapping, l.mapping⟩ (← Action.of c.flip)
  | none => countHere l r c

end Join
end DataAccess
