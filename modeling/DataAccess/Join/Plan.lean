import DataAccess.Evaluation.StableSort
import DataAccess.Join.Criteria
import DataAccess.Keyed
import DataAccess.Mapping

/-!
Joining two lists of rows. Pairs name rows by their places; they come in the order of the left rows,
then of the right ones, and right rows left over come last.
-/
namespace DataAccess

structure JoinTerm where
  left : Nat
  right : Nat
  predicate : JoinExpression

/-- A look-up on equal cells narrows the candidates where one equality must hold. -/
structure JoinPlan where
  kind : JoinKind
  operator : Connective
  terms : List JoinTerm
  index : Option (Nat × Nat)
  orders : List (Side × Nat × Direction)

abbrev PlacePair := Option Nat × Option Nat

namespace JoinPlan

def term (left right : Mapping) (e : JoinExpression) : Outcome JoinTerm := do
  pure ⟨← left.position e.left, ← right.position e.right, e⟩

def order (left right : Mapping) (k : JoinSortKey) : Outcome (Side × Nat × Direction) :=
  match k.direction with
  | .computed =>
    .error (.unsupportedClause "Pseudo join" ("computed order `" ++ k.property ++ "`"))
  | direction => do
    let m := match k.side with
      | .left => left
      | .right => right
    pure (k.side, ← m.position k.property, direction)

def isEquality (t : JoinTerm) : Bool := t.predicate.relation = .equal && t.predicate.positive

def indexOf (operator : Connective) (terms : List JoinTerm) : Option (Nat × Nat) :=
  if operator = .and ∨ terms.length = 1 then
    (terms.find? isEquality).map fun t => (t.left, t.right)
  else none

def ofCriteria (left right : Mapping) (c : JoinCriteria) : Outcome JoinPlan := do
  let terms ← c.expressions.mapM (term left right)
  let orders ← c.orders.mapM (order left right)
  pure ⟨c.kind, c.operator, terms, indexOf c.operator terms, orders⟩

def withoutIndex (p : JoinPlan) : JoinPlan := { p with index := none }

def matchesRows (p : JoinPlan) (left right : Row) : Bool :=
  let holds (t : JoinTerm) := t.predicate.matchesCells (left.cell t.left) (right.cell t.right)
  match p.operator with
  | .and => p.terms.all holds
  | .or => p.terms.any holds

/-- The places of rows by the key of one cell; NULL has no key. -/
def indexBy (place : Nat) (rows : List Row) : Keyed JoinKey (List Nat) :=
  rows.zipIdx.foldl (fun index (row, i) =>
    match (row.cell place).joinKey? with
    | some key => index.put key ((index.find? key).getD [] ++ [i])
    | none => index) []

/-- The right rows worth trying for a left one. -/
def candidates (p : JoinPlan) (right : List Row) : Row → List Nat :=
  match p.index with
  | none => fun _ => List.range right.length
  | some (l, r) =>
    let index := indexBy r right
    fun row => ((row.cell l).joinKey?.bind index.find?).getD []

def partners (p : JoinPlan) (right : List Row) (row : Row) (tried : List Nat) : List Nat :=
  tried.filter fun i => p.matchesRows row (right.getD i [])

def pairsOf (p : JoinPlan) (i : Nat) (partners : List Nat) : List PlacePair :=
  if partners.isEmpty then if p.kind.preservesLeft then [(some i, none)] else []
  else partners.map fun j => (some i, some j)

def merge (p : JoinPlan) (left right : List Row) : List PlacePair :=
  let candidates := p.candidates right
  let found := left.map fun row => p.partners right row (candidates row)
  let matched := found.flatten
  found.zipIdx.flatMap (fun (partners, i) => p.pairsOf i partners) ++
    if p.kind.preservesRight then
      ((List.range right.length).filter (· ∉ matched)).map fun j => (none, some j)
    else []

/-- A cell of a pair, NULL on a side left out. -/
def pairCell (left right : List Row) (pair : PlacePair) (side : Side) (place : Nat) : Value :=
  match side with
  | .left => pair.1.elim (.null none) fun i => (left.getD i []).cell place
  | .right => pair.2.elim (.null none) fun j => (right.getD j []).cell place

def comparePairs (p : JoinPlan) (left right : List Row) (a b : PlacePair) : Ordering :=
  p.orders.foldl (fun o (side, place, direction) => o.then (direction.apply
    ((pairCell left right a side place).sortCompare (pairCell left right b side place)))) .eq

def sorted (p : JoinPlan) (left right : List Row) : List PlacePair :=
  StableSort.sort (p.comparePairs left right) (p.merge left right)

def rowsOf (left right : List Row) (pair : PlacePair) : JoinResult Row Row :=
  ⟨pair.1.map (left.getD · []), pair.2.map (right.getD · [])⟩

end JoinPlan
end DataAccess
