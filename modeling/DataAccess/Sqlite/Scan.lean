import DataAccess.Evaluation.StableSort
import DataAccess.Sqlite.Plan

/-! Rows in the order in which the engine comes by them, and sorted. -/
namespace DataAccess.Sqlite.Table

def byKey (t : Table) : List Stored :=
  if t.numberPlace.isSome then t.rows
  else StableSort.sort (fun a b => Cell.compareAll (t.keyOf a) (t.keyOf b)) t.rows

/-- Whether the conditions of a disjunction, when they are taken in turn, have a condition beside
them to find rows by. -/
def isBeside (t : Table) : Condition → Bool
  | .test i clause positive => match Reach.ofClause? t i clause positive, clause with
    | some .present, _ | none, _ | _, .like _ => false
    | _, _ => true
  | _ => true

/-- Rows as they come; some may be left out that the conditions exclude, and none comes twice. Each
turn is planned by itself. The fuel is for disjunctions within one another. -/
def visited (t : Table) (cs : List Condition) (orders : SortPlaces) (limit : Option Nat) :
    Nat → List Stored
  | 0 => t.rows
  | fuel + 1 =>
    match Plan.choose t cs orders limit with
    | none => t.rows
    | some plan =>
      let rows := match plan.way with
        | .numbers => t.rows
        | .key => t.byKey
        | .turns place =>
          let beside := (cs.eraseIdx place).filter t.isBeside
          (cs[place]?.elim [] Condition.disjuncts).foldl (fun seen c =>
            seen ++ (visited t (c.conjuncts ++ beside) [] none fuel).filter fun s =>
              c.holds t s && s ∉ seen) []
      if plan.backwards then rows.reverse else rows

/-- The cells at places of two rows, the first difference deciding. -/
def compareAt (orders : SortPlaces) (a b : Stored) : Ordering :=
  orders.foldl (fun o (i, direction) =>
    o.then (direction.apply ((a.cells.getD i .null).compare (b.cells.getD i .null)))) .eq

/-- The rows that pass, sorted. -/
def scan (t : Table) (c : Condition) (orders : SortPlaces) (limit : Option Nat) : List Stored :=
  let rows := t.visited c.conjuncts orders limit (c.groups + 1)
  StableSort.sort (compareAt orders) (rows.filter (c.holds t))

end DataAccess.Sqlite.Table
