import DataAccess.Sqlite.Search

/-!
How the engine comes by the rows of a table: by their numbers, by their key, or by the conditions of
a disjunction in turn. The cheapest way is taken, sorting counted in.
-/
namespace DataAccess.Sqlite

inductive Way where
  | numbers
  | key
  | turns (place : Nat)

/-- `used` are the places of the conditions that lead to the rows, and `met` are the sort keys that
the way meets. Ways with the same `slot` are measured against each other before any sorting. -/
structure Plan where
  way : Way
  used : List Nat
  cost : Nat
  rows : Nat
  met : Nat
  backwards : Bool
  slot : Nat

abbrev SortPlaces := List (Nat × Direction)

/-- What it costs to take conditions in turn, and the rows that gives. -/
structure Turns where
  cost : Nat
  rows : Nat

namespace Condition

/-- Whether a condition, if it holds, leaves few rows. -/
def isEqual : Condition → Bool
  | .test _ (.equal v) true => !v.isNull
  | .test _ (.inList [_]) true => true
  | _ => false

/-- Whether a condition is settled by the column's being required. -/
def isSettled (t : Table) : Condition → Bool
  | .test i (.equal v) _ => v.isNull && t.isRequired i
  | _ => false

/-- An interval has two ends to check. -/
def checks (t : Table) (c : Condition) : Nat :=
  match c with
  | .test _ (.between ..) true => 2
  | c => if c.isSettled t then 0 else 1

/-- Rows that are left when the conditions hold, too, that were not used to find them. -/
def thinned (t : Table) (rows : Nat) (cs : List Condition) (used : List Nat) : Nat :=
  let unused := cs.zipIdx.foldl (fun n (c, i) => n + (c.checks t - used.count i)) 0
  let isEven := cs.zipIdx.any fun (c, i) => c.isEqual && !used.contains i
  min (rows - unused) (Cost.table - if isEven then 20 else 0)

end Condition

namespace Turns

def cheaper (best : Option Turns) (t : Turns) : Option Turns :=
  if best.any (·.cost ≤ t.cost) then best else some t

/-- Rows found by conditions, other ones holding too. -/
def direct? (t : Table) (others : List Condition) (c : Condition) : Option Turns :=
  let own := c.conjuncts
  ((t.searches (own ++ others)).map fun s =>
    ⟨s.cost t, Condition.thinned t s.rows own s.used⟩).foldl cheaper none

/-- Whether a condition says anything of a column by itself. -/
def isTelling (t : Table) (c : Condition) : Bool :=
  (List.range t.fields.length).any fun i => (Reach.ofCondition? t i c).isSome

mutual

/-- Every condition of a disjunction, if each leads to rows. Nesting is followed as far as the fuel
goes. -/
def ofDisjunction? (t : Table) (others : List Condition) (c : Condition) : Nat → Option Turns
  | 0 => none
  | fuel + 1 =>
    match c.disjuncts.mapM fun d => ofPart? t others d fuel with
    | some (first :: second :: rest) =>
      let join (a b : Turns) : Turns := ⟨Cost.add a.cost b.cost, Cost.add a.rows b.rows⟩
      let all := (second :: rest).foldl join first
      some { all with cost := all.cost + 1 }
    | _ => none

def ofPart? (t : Table) (others : List Condition) (c : Condition) : Nat → Option Turns
  | 0 => direct? t others c
  | fuel + 1 =>
    let own := c.conjuncts
    let nested := own.zipIdx.filterMap fun (d, i) =>
      ofDisjunction? t (own.eraseIdx i ++ others) d fuel
    (if own.any (isTelling t) then nested else []).foldl cheaper (direct? t others c)

end

end Turns

namespace Plan

/-- How many sort keys rows meet that come in the order of some columns, and which way those columns
are gone through. Columns with a single value are in any order. -/
def meets (isPinned : Nat → Bool) (isDistinct : Bool) : List Nat → Option Direction → SortPlaces →
    Nat × Option Direction
  | _, way, [] => (0, way)
  | columns, way, (i, direction) :: rest =>
    if isPinned i then
      let (n, way) := meets isPinned isDistinct columns way rest
      (n + 1, way)
    else match columns with
      | [] => (if isDistinct then rest.length + 1 else 0, way)
      | column :: columns =>
        if column = i && way.all (decide <| · = direction) then
          let (n, way) := meets isPinned isDistinct columns (some direction) rest
          (n + 1, way)
        else (0, way)

variable (t : Table) (cs : List Condition) (orders : SortPlaces)

def isPinned (i : Nat) : Bool := cs.any fun c => (Reach.ofCondition? t i c).any (·.isFixed)

/-- Rows that are sorted anyway come backwards where a choice of values comes first and all else is
in order then. -/
def ofSearch (way : Way) (slot cost : Nat) (s : Search) : Plan :=
  let columns := t.entry.filter (!s.fixed.contains ·)
  let free := columns.filter (!s.chosen.contains ·)
  let isDistinct := s.isDistinct && free.all t.isRequired
  let (met, direction) := meets (isPinned t cs) isDistinct columns none orders
  let inner := meets (fun i => isPinned t cs i || s.chosen.contains i) isDistinct free none orders
  let direction := if met = 0 ∧ inner.1 = orders.length then inner.2 else direction
  let rows := Condition.thinned t s.rows cs s.used
  ⟨way, s.used, cost, rows, met, decide (direction = some .descending), slot⟩

/-- Going through the whole key. Rows are fetched unless a condition on the key leaves them out. -/
def costOfKey : Nat :=
  let along := Cost.table + 1 + t.keyShare
  let isOnKey (c : Condition) : Bool := c.isSettled t || c.places.all t.keyPlaces.contains
  let checked := cs.takeWhile isOnKey
  let fetched := Cost.ofScan - checked.length - 19 * (checked.filter Condition.isEqual).length
  if t.isCovered then along else Cost.add along fetched

def all : List Plan :=
  let isWanted := orders.any fun (i, _) => t.entry.contains i
  let slot := if !isWanted then 0 else if t.numberPlace.isSome then 1 else 2
  let found (way : Way) := (t.searches cs).map fun s => ofSearch t cs orders way slot (s.cost t) s
  let ways :=
    if t.numberPlace.isSome then
      ofSearch t cs orders .numbers slot Cost.ofScan .all :: found .numbers
    else
      let met := (meets (isPinned t cs) false [] none orders).1
      let rows := Condition.thinned t Cost.table cs []
      ⟨.numbers, [], Cost.ofScan, rows, met, false, 0⟩ ::
        (if isWanted then [ofSearch t cs orders .key slot (costOfKey t cs) .all] else []) ++
          found .key
  let turns := cs.zipIdx.filterMap fun (c, i) =>
    (Turns.ofDisjunction? t (cs.eraseIdx i) c (c.groups + 1)).map fun turns =>
      ⟨.turns i, [i], turns.cost, turns.rows, 0, false, 0⟩
  ways ++ turns

/-- A plan that uses more conditions on the key than another one is taken to be no worse. -/
def adjusted (p q : Plan) : Plan :=
  match q.way, p.way with
  | .key, .key =>
    if q.used.length < p.used.length ∧ q.used.all p.used.contains ∧
        (q.cost ≤ p.cost ∨ q.rows ≤ p.rows) then
      { p with cost := min q.cost p.cost, rows := min (q.rows - 1) p.rows }
    else p
  | _, _ => p

/-- Plans that are worth looking at: no other one of the slot is as cheap and as narrow. -/
def keep (ps : List Plan) (p : Plan) : List Plan :=
  let p := ps.foldl adjusted p
  let beats (p q : Plan) : Bool := decide (p.slot = q.slot ∧ p.cost ≤ q.cost ∧ p.rows ≤ q.rows)
  if ps.any (beats · p) then ps else ps.filter (!beats p ·) ++ [p]

/-- The first plan of those with the least cost; of two such the one with fewer rows. -/
def best? (cost : Plan → Nat) (ps : List Plan) : Option Plan :=
  let compare (p q : Plan) : Ordering :=
    (Ord.compare (cost p) (cost q)).then
      ((Ord.compare p.rows q.rows).then (Ord.compare p.cost q.cost))
  ps.foldl (fun best p => if best.any (compare · p != .gt) then best else some p) none

/-- Sorting costs alike for all plans: as for those rows that the cheapest one gives. -/
def choose (limit : Option Nat) : Option Plan := do
  let ps := (all t cs orders).foldl keep []
  let rows := (← best? (·.cost) ps).rows + 1
  let sort (p : Plan) : Nat :=
    if p.met = orders.length then p.cost
    else Cost.add p.cost (Cost.ofSort rows t.fields.length orders.length p.met limit) + 3
  best? sort ps

end Plan
end DataAccess.Sqlite
