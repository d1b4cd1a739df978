import DataAccess.Sqlite.Condition
import DataAccess.Sqlite.Cost

/-!
What conditions leave of a key. The first columns of the key are fixed one after the other, and the
next one may have ends.
-/
namespace DataAccess.Sqlite

/-- What a condition leaves of a column. -/
inductive Reach where
  | value
  | absent
  | choice (n : Nat)
  | ends (lower upper : Bool)
  | present
deriving DecidableEq

namespace Reach

/-- Whether a pattern begins with text that stands for itself. Where cells may be numbers that text
may not look like one, and neither may the next text in order. -/
def isAnchored (a : Affinity) (pattern : String) : Bool :=
  let lead := pattern.toList.takeWhile fun c => c != '%' && c != '_' && c != '\x00'
  let next := lead.dropLast ++ lead.getLast?.toList.map fun c => .ofNat (c.toNat + 1)
  let isNumber (cs : List Char) : Bool := (Cell.number? (.ofList cs)).isSome
  !lead.isEmpty && (decide (a = .text) || !(lead == ['-'] || isNumber lead || isNumber next))

def ofClause? (t : Table) (place : Nat) : Clause → Bool → Option Reach
  | .equal v, positive =>
    if v.isNull then
      if t.isRequired place then none else some (if positive then .absent else .present)
    else if positive then some .value else none
  | .inList vs, true => match vs with
    | [] => none
    | [_] => some .value
    | _ => some (.choice vs.length)
  | .greater _, positive => some (.ends positive !positive)
  | .lesser _, positive => some (.ends (!positive) positive)
  | .between .., true => some (.ends true true)
  | .like pattern, true =>
    if isAnchored (t.affinity place) pattern then some (.ends true true) else none
  | _, _ => none

/-- Values for one column, one in place of the other, are a choice. -/
def ofCondition? (t : Table) (place : Nat) : Condition → Option Reach
  | .test i clause positive => if i = place then ofClause? t place clause positive else none
  | c =>
    let parts := c.disjuncts
    let isValue : Condition → Bool
      | .test i clause positive =>
        decide (i = place ∧ ofClause? t place clause positive = some .value)
      | _ => false
    if parts.all isValue then some (.choice parts.length) else none

def isFixed (r : Reach) : Bool := decide (r = .value ∨ r = .absent)

/-- The first of the strongest kind. -/
def strongest? (rs : List (Reach × Nat)) : Option (Reach × Nat) :=
  let choice := (rs.filterMap fun (r, i) => match r with
    | .choice n => some (n, i)
    | _ => none).foldl (fun best c => if best.any fun b : Nat × Nat => b.1 ≤ c.1 then best
      else some c) none
  (rs.find? (·.1 = .value)).or ((rs.find? (·.1 = .absent)).or
    (choice.map fun (n, i) => (.choice n, i)))

end Reach

/-- A part of the key: columns with a single value, columns with several ones, the conditions used,
and the rows for each choice of values. -/
structure Search where
  fixed : List Nat
  chosen : List Nat
  used : List Nat
  each : Nat
  choices : Nat
  isDistinct : Bool

namespace Search

def all : Search := ⟨[], [], [], Cost.table, 0, true⟩

def rows (s : Search) : Nat := s.each + s.choices
def cost (t : Table) (s : Search) : Nat := t.costOfFinding s.each + s.choices

/-- One more column of the key is fixed. -/
def fix (size place : Nat) (s : Search) : Reach × Nat → Search
  | (r, i) =>
    let first := s.fixed.length + s.chosen.length
    let each := s.each + Cost.agreeing size (first + 1) - Cost.agreeing size first
    let s := { s with each, used := i :: s.used }
    match r with
    | .choice n => { s with chosen := place :: s.chosen, choices := s.choices + Cost.ofNat n }
    | .absent => { s with fixed := place :: s.fixed, each := each + 10, isDistinct := false }
    | _ => { s with fixed := place :: s.fixed }

/-- The next column of the key has ends. -/
def bound? (rs : List (Reach × Nat)) (s : Search) : Option Search :=
  let lower := rs.find? fun (r, _) => decide (r = .ends true true ∨ r = .ends true false)
  let upper := rs.find? fun (r, _) => decide (r = .ends true true ∨ r = .ends false true)
  let present := if lower.isSome then none else rs.find? (·.1 = .present)
  let used := ([lower, upper, present].filterMap id).map (·.2)
  if used.isEmpty then none
  else some { s with
    used := used ++ s.used
    each := Cost.between s.each lower.isSome upper.isSome present.isSome }

/-- The parts of the key that conditions lead to. -/
def along (t : Table) (cs : List Condition) (size : Nat) : List Nat → Search → List Search
  | [], _ => []
  | place :: rest, s =>
    let rs := cs.zipIdx.filterMap fun (c, i) => (Reach.ofCondition? t place c).map (·, i)
    (s.bound? rs).toList ++ match Reach.strongest? rs with
      | some r => s.fix size place r :: along t cs size rest (s.fix size place r)
      | none => []

end Search

namespace Table

/-- The columns that rows are found by. -/
def entry (t : Table) : List Nat := t.numberPlace.elim t.keyPlaces ([·])

def searches (t : Table) (cs : List Condition) : List Search :=
  Search.along t cs t.entry.length t.entry .all

end Table
end DataAccess.Sqlite
