import DataAccess.Join.Criteria
import DataAccess.Mapping
import DataAccess.Proofs.Sql.Tokens

/-!
Tokens read as conditions and joins. What stands in parentheses is read as one item of what is
around it, AND binds tighter than OR, and each placeholder stands for the next parameter.
-/
namespace DataAccess.Sql

structure ColumnRef where
  qualifier : Option String
  name : String
deriving DecidableEq

/-- What a row is asked for, by the names of columns. -/
inductive Condition where
  | test (column : ColumnRef) (clause : Clause) (positive : Bool)
  | compare (left : ColumnRef) (relation : Relation) (positive : Bool) (right : ColumnRef)
  | connected (operator : Connective) (first second : Condition)

/-- A token, a parameter in its place, or what a pair of parentheses holds. -/
inductive Item where
  | token (t : Token)
  | value (v : Value)
  | values (vs : List Value)
  | column (c : ColumnRef)
  | masked (c : ColumnRef) (mask : Value)
  | condition (c : Condition)
  | derived (table : TableRef) (filter : Condition)

/-- What is read, where nothing is left over. -/
def whole? {α : Type} : Option (α × List Item) → Option α
  | some (a, []) => some a
  | _ => none

def column? : List Item → Option (ColumnRef × List Item)
  | .token (.word q) :: .token .dot :: .token (.name n) :: rest => some (⟨some q, n⟩, rest)
  | .token (.name n) :: rest => some (⟨none, n⟩, rest)
  | _ => none

def table? : List Item → Option (TableRef × List Item)
  | .token (.name s) :: .token .dot :: .token (.name n) :: rest => some (⟨s, n⟩, rest)
  | .token (.name n) :: rest => some (⟨"", n⟩, rest)
  | _ => none

def values? : List Item → Option (List Value)
  | [.value v] => some [v]
  | .value v :: .token .comma :: rest => (values? rest).map (v :: ·)
  | _ => none

def relationClause : Relation → Value → Clause
  | .equal => .equal
  | .greater => .greater
  | .lesser => .lesser

/-- A column against a parameter, or against two as ends of a range. NULL equals nothing. -/
def compared? (c : ColumnRef) (r : Relation) (positive : Bool) (v : Value) :
    List Item → Option Condition
  | [] => if r = .equal ∧ v.isNull then none else some (.test c (relationClause r v) positive)
  | .token (.connective operator) :: rest =>
    match column? rest with
    | some (c', [.token (.comparison r' positive'), .value w]) =>
      if c' = c ∧ r = .lesser ∧ r' = .greater ∧ positive' = positive ∧
          operator = (if positive then .or else .and) then
        some (.test c (.between v w) !positive)
      else none
    | _ => none
  | _ => none

/-- What is asked of a column, or of two. -/
def asked? (c : ColumnRef) : List Item → Option Condition
  | [.token (.keyword .is), .token (.keyword .null)] => some (.test c (.equal (.null none)) true)
  | [.token (.keyword .is), .token (.keyword .not), .token (.keyword .null)] =>
    some (.test c (.equal (.null none)) false)
  | [.token (.keyword .like), .value (.of (.varchar pattern))] =>
    some (.test c (.like pattern) true)
  | [.token (.keyword .not), .token (.keyword .like), .value (.of (.varchar pattern))] =>
    some (.test c (.like pattern) false)
  | [.token (.keyword .in), .values vs] => some (.test c (.inList vs) true)
  | [.token (.keyword .not), .token (.keyword .in), .values vs] => some (.test c (.inList vs) false)
  | .token (.comparison r positive) :: .value v :: rest => compared? c r positive v rest
  | .token (.comparison r positive) :: rest =>
    (whole? (column? rest)).map (.compare c r positive)
  | _ => none

/-- What is asked of the lower case of a column, or of some of its bits. -/
def folded? : List Item → Option Condition
  | [.token (.keyword .lower), .column c, .token (.comparison .equal positive),
      .token (.keyword .lower), .values [v]] =>
    if v.isNull then none else some (.test c (.equalIgnoringCase v) positive)
  | [.token (.keyword .lower), .column c, .token (.keyword .like), .token (.keyword .lower),
      .values [.of (.varchar pattern)]] => some (.test c (.likeIgnoringCase pattern) true)
  | [.token (.keyword .lower), .column c, .token (.keyword .not), .token (.keyword .like),
      .token (.keyword .lower), .values [.of (.varchar pattern)]] =>
    some (.test c (.likeIgnoringCase pattern) false)
  | [.masked c (.of (.int64 mask)), .token (.comparison .equal positive),
      .value (.of (.int64 n))] =>
    if mask = n then some (.test c (.hasBits mask) positive) else none
  | _ => none

def leaf? (items : List Item) : Option Condition :=
  match column? items with
  | some (c, rest) => asked? c rest
  | none => folded? items

/-- A disjunction of what came before and what comes now. -/
def disjoined (before : Option Condition) (current : Condition) : Condition :=
  before.elim current (.connected .or · current)

/-- The condition that began with terms read before, as far as it goes. -/
def conditionFrom (before : Option Condition) (current : Condition) :
    List Item → Condition × List Item
  | .token (.connective .and) :: .condition c :: rest =>
    conditionFrom before (.connected .and current c) rest
  | .token (.connective .or) :: .condition c :: rest =>
    conditionFrom (some (disjoined before current)) c rest
  | rest => (disjoined before current, rest)

def condition? : List Item → Option (Condition × List Item)
  | .condition c :: rest => some (conditionFrom none c rest)
  | _ => none

def masked? (items : List Item) : Option Item :=
  match column? items with
  | some (c, [.token .ampersand, .value v]) => some (.masked c v)
  | _ => none

def derived? : List Item → Option Item
  | .token (.keyword .select) :: .token .star :: .token (.keyword .from) :: rest =>
    match table? rest with
    | some (t, .token (.keyword .where) :: rest) => (whole? (condition? rest)).map (.derived t)
    | _ => none
  | _ => none

/-- What stands between parentheses. -/
def group? (items : List Item) : Option Item :=
  (leaf? items).map .condition <|> (whole? (condition? items)).map .condition <|>
    (values? items).map .values <|> (whole? (column? items)).map .column <|> masked? items <|>
    derived? items

/-- Parameters to come, and what was read in each pair of parentheses still open, the last item
first. -/
structure Reader where
  params : List Value
  frames : List (List Item)

namespace Reader

def add (r : Reader) (i : Item) : Option Reader :=
  match r.frames with
  | frame :: outer => some { r with frames := (i :: frame) :: outer }
  | [] => none

def push (r : Reader) : Token → Option Reader
  | .opening => some { r with frames := [] :: r.frames }
  | .closing => match r.frames with
    | content :: outer => (group? content.reverse).bind { r with frames := outer }.add
    | [] => none
  | .placeholder => match r.params with
    | v :: params => { r with params }.add (.value v)
    | [] => none
  | t => r.add (.token t)

end Reader

/-- The items of a text, if its parentheses match and it takes all parameters. -/
def items? (params : List Value) (text : String) : Option (List Item) :=
  match (tokens text.toList).foldlM Reader.push ⟨params, [[]]⟩ with
  | some ⟨[], [items]⟩ => some items.reverse
  | _ => none

/-- A table under a name, with the filter of a derived one. -/
structure Source where
  table : TableRef
  name : String
  filter : Option Condition

structure Body where
  left : Source
  kind : JoinKind
  right : Source
  on : Condition
  filter : Option Condition

def source? : List Item → Option (Source × List Item)
  | .derived t c :: .token (.keyword .as) :: .token (.word name) :: rest =>
    some (⟨t, name, some c⟩, rest)
  | items => match table? items with
    | some (t, .token (.keyword .as) :: .token (.word name) :: rest) => some (⟨t, name, none⟩, rest)
    | _ => none

def joinKind? : List Item → Option (JoinKind × List Item)
  | .token (.keyword .inner) :: .token (.keyword .join) :: rest => some (.inner, rest)
  | .token (.keyword .left) :: .token (.keyword .join) :: rest => some (.leftOuter, rest)
  | .token (.keyword .right) :: .token (.keyword .join) :: rest => some (.rightOuter, rest)
  | .token (.keyword .full) :: .token (.keyword .outer) :: .token (.keyword .join) :: rest =>
    some (.outer, rest)
  | _ => none

def where? : List Item → Option (Option Condition)
  | [] => some none
  | .token (.keyword .where) :: rest => (whole? (condition? rest)).map some
  | _ => none

def body? : List Item → Option Body
  | .token (.keyword .from) :: items => do
    let (left, items) ← source? items
    let (kind, items) ← joinKind? items
    let (right, items) ← source? items
    match items with
    | .token (.keyword .on) :: items => do
      let (on, items) ← condition? items
      pure ⟨left, kind, right, on, ← where? items⟩
    | _ => none
  | _ => none

def readBody? (params : List Value) (text : String) : Option Body :=
  (items? params text).bind body?

end DataAccess.Sql
