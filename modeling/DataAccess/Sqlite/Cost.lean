import DataAccess.Sqlite.Table

/-!
What it costs to come by rows. Costs and counts are kept as ten times their binary logarithms, and a
table is taken to have `2 ^ 20` rows.
-/
namespace DataAccess.Sqlite

namespace Cost

def ofNat (n : Nat) : Nat :=
  10 * n.log2 + [0, 2, 3, 5, 6, 7, 8, 9].getD (n * 8 / Nat.pow 2 n.log2 % 8) 0

/-- The sum of what is counted, which is hardly more than the larger one unless both are close. -/
def add (a b : Nat) : Nat :=
  let apart := max a b - min a b
  max a b + ([1, 3, 5, 8, 11, 14, 18, 24, 31, 49].filter (apart ≤ ·)).length

/-- Rows of a table. -/
def table : Nat := 200

/-- Finding the place of a row among others. -/
def depth (rows : Nat) : Nat := if rows ≤ 10 then 0 else ofNat rows - 33

/-- All rows, one after the other. -/
def ofScan : Nat := table + 16

/-- Rows that agree in the first columns of a key. -/
def agreeing (columns first : Nat) : Nat :=
  if first = columns then 0 else [table, 33, 32, 30, 28, 27].getD first 23

/-- What is left of rows between ends. Not to be NULL is an end too, but not much of one. -/
def between (rows : Nat) (lower upper present : Bool) : Nat :=
  let ends := lower.toNat + upper.toNat + ((lower || present) && upper).toNat
  min (max 10 (rows - 20 * ends)) (rows - (lower || present).toNat - upper.toNat)

/-- Sorting rows by keys of which the first ones are met already; a limit keeps the heap small. -/
def ofSort (rows columns keys met : Nat) (limit : Option Nat) : Nat :=
  let share := if met = 0 then 66 else ofNat ((keys - met) * 100 / keys)
  let all := rows + ofNat ((columns + 59) / 30) + share - 66
  match limit with
  | none => all + depth rows
  | some n => all + (if met = 0 then 10 else 16) + depth (min (ofNat n) rows)

end Cost

namespace Table

/-- Whether the key leads to whole rows. -/
def isCovered (t : Table) : Bool := t.numberPlace.isSome || t.fields.all (·.key)

/-- What is read along a key, compared with what is read along the table. -/
def keyShare (t : Table) : Nat :=
  let size (fields : List Field) (more : Nat) : Nat :=
    Cost.ofNat (4 * fields.foldl (fun sum f => sum + f.weight) more)
  if t.numberPlace.isSome then 15
  else 15 * size (t.fields.filter (·.key)) 1 / size t.fields 1

/-- Finding rows by their key. Where that does not lead to whole rows they are fetched one by one.
-/
def costOfFinding (t : Table) (rows : Nat) : Nat :=
  let along := Cost.add (Cost.depth Cost.table) (rows + 1 + t.keyShare)
  if t.isCovered then along else Cost.add along (rows + 16)

end Table
end DataAccess.Sqlite
