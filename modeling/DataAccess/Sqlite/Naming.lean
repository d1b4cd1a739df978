import DataAccess.Query
import DataAccess.Sqlite.Condition

/-!
The columns that a statement names, and where it names them. A name is refused that no column has.
A function, or a test for NULL, does not keep the engine from looking further, and it is the last
name looked at that it complains of.
-/
namespace DataAccess.Sqlite

/-- A column as it is named in a statement, with the side of a join that it is looked for on. -/
structure Mention where
  column : String
  side : Option Side
  offset : Option Nat

namespace Mention

def display (m : Mention) : String := m.side.elim "" (Sql.aliasOf · ++ ".") ++ m.column

def sideOf? : Sql.Piece → Option Side
  | .text s => [Side.left, .right].find? fun side => Sql.aliasOf side ++ "." == s
  | _ => none

end Mention

/-- Looking at a statement from left to right: at an operator, where it ends if something was amiss,
at a name, or at a name that is passed over if something was amiss. -/
inductive Glance where
  | operator
  | name (goesOn : Bool)
  | laterName
deriving DecidableEq

namespace Glance

def ofClause : Clause → Bool → List Glance
  | .equal v, _ => if v.isNull then [.name true] else [.operator, .name false]
  | .equalIgnoringCase v, _ => if v.isNull then [.name true] else [.operator, .name true]
  | .like _, true => [.laterName]
  | .likeIgnoringCase _, true => [.name true]
  | .like _, false | .likeIgnoringCase _, false => [.operator, .name true]
  | .between .., _ => [.operator, .name false, .name false]
  | _, _ => [.operator, .name false]

mutual

def ofExpression : Expression → List Glance
  | .test _ clause positive => ofClause clause positive
  | .group _ [e] _ _ => ofExpression e
  | .group _ es _ _ => .operator :: ofExpressions es
  | .raw .. => []

def ofExpressions : List Expression → List Glance
  | [] => []
  | e :: rest => ofExpression e ++ ofExpressions rest

end

/-- What is complained of at the end. -/
def complaint? (isKnown : Mention → Bool) : List Glance → List Mention → Option Mention →
    Option Mention
  | .operator :: _, _, some m => some m
  | .operator :: rest, ms, none => complaint? isKnown rest ms none
  | .name goesOn :: rest, m :: ms, found =>
    if isKnown m then complaint? isKnown rest ms found
    else if goesOn then complaint? isKnown rest ms (some m)
    else some m
  | .laterName :: rest, m :: ms, found =>
    complaint? isKnown rest ms (if found.isSome || isKnown m then found else some m)
  | _, _, found => found

end Glance

/-- A clause as it is read. Behind ON it is not told where a name stands. -/
structure Reading where
  clause : Sql.Pieces
  glances : List Glance
  located : Bool

namespace Reading

def ofFilter (c : Criteria) (located : Bool) (clause : Sql.Pieces) : Reading :=
  ⟨clause, (if 1 < c.expressions.length then [.operator] else []) ++
    Glance.ofExpressions c.expressions, located⟩

/-- Columns in a list. -/
def ofList (clause : Sql.Pieces) : Reading := ⟨clause, clause.map fun _ => .name false, true⟩

/-- A predicate between two columns. -/
def ofPredicate (clause : Sql.Pieces) : Reading :=
  ⟨clause, [.operator, .name false, .name false], false⟩

def mentions (w : Written) (r : Reading) : List Mention :=
  let head := Sql.Pieces.before r.clause (w.pieces.toOption.getD [])
  r.clause.zipIdx.filterMap fun (p, i) => match p with
    | .name column =>
      let side := if i = 0 then none else r.clause[i - 1]?.bind Mention.sideOf?
      let lead := r.clause.take (if side.isSome then i - 1 else i)
      some ⟨column, side, if r.located then some (w.dialect.size (head ++ lead)) else none⟩
    | _ => none

end Reading

/-- Refuses clauses that name a column that is not there. -/
def checkNames (w : Written) (isKnown : Option Side → String → Bool) (rs : List Reading) :
    Answer Unit :=
  match Glance.complaint? (fun m => isKnown m.side m.column) (rs.flatMap (·.glances))
      (rs.flatMap (·.mentions w)) none with
  | some m => .error (.noSuchColumn m.display m.offset)
  | none => .ok ()

namespace Table

def hasNamed (t : Table) (column : String) : Bool := (t.place? column).isSome

def checkFilter (t : Table) (w : Written) (m : Mapping) (c : Criteria) : Answer Unit := do
  let clause ← readable (Sql.whereClause (.plain .select) m c)
  checkNames w (fun _ => t.hasNamed) [.ofFilter c true clause]

def checkOrders (t : Table) (w : Written) (m : Mapping) (orders : List SortKey) : Answer Unit := do
  checkNames w (fun _ => t.hasNamed) [.ofList (← readable (Sql.orderBy (.plain .select) m orders))]

def checkGroups (t : Table) (w : Written) (m : Mapping) (groupBy : List String) : Answer Unit :=
  groupBy.forM fun property => do
    checkNames w (fun _ => t.hasNamed) [.ofList [.name (← readable (m.column property)).name]]

end Table

/-- The names of a join: those of sides that are filtered in tables of their own, those that are
listed, those of the conditions, and those of the sort keys. -/
def checkJoined (w : Written) (left right : Table) (p : Sql.Pair) (c : JoinCriteria)
    (listed : Sql.Pieces) : Answer Unit := do
  let table : Side → Table
    | .left => left
    | .right => right
  let isKnown (side : Option Side) (column : String) := side.all (table · |>.hasNamed column)
  let filter (ctx : Side → Sql.Context) (located : Bool) (side : Side) : Answer (List Reading) :=
    match c.filter? side with
    | none => pure []
    | some f => do
      pure [.ofFilter f located (← readable (Sql.filter (ctx side) (p.mapping side) f))]
  let beside (side : Side) : Sql.Context := ⟨.select, Sql.aliasOf side⟩
  for side in Sql.sourceSides c.kind do
    checkNames w (fun _ => (table side).hasNamed) (← filter (fun _ => .plain .select) true side)
  checkNames w isKnown [.ofList listed]
  let behindWhere ← (Sql.whereSides c.kind).mapM (filter beside true)
  let predicates ← c.expressions.mapM fun e => readable (Sql.joinExpression (.plain .joinOn) p e)
  let behindOn ← (Sql.onSide? c.kind).toList.mapM (filter beside false)
  checkNames w isKnown (behindWhere.flatten ++ predicates.map .ofPredicate ++ behindOn.flatten)
  checkNames w isKnown [.ofList (← readable (Sql.joinOrderBy p c.orders))]

end DataAccess.Sqlite
