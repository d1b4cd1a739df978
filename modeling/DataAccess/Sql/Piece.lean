import DataAccess.Value
import DataAccess.Join.Kind
import DataAccess.Criteria.Window

/-!
SQL as pieces: keywords, names and parameters are told apart until a dialect writes them.
-/
namespace DataAccess.Sql

/-- Where in a statement a piece stands. -/
inductive Part where
  | none
  | createTable | dropTable
  | deleteFrom | deleteFromWhere
  | insertInto | insertIntoValues
  | update | updateSet | updateWhere
  | select | selectFrom | selectWhere | selectGroupBy | selectOrderBy
  | join | joinOn
deriving DecidableEq

/-- The part, and the alias that columns are prefixed with; empty for none. -/
structure Context where
  part : Part
  qualifier : String
deriving DecidableEq

def Context.plain (part : Part) : Context := ⟨part, ""⟩
def Context.at (c : Context) (part : Part) : Context := { c with part }
def Context.qualified (c : Context) (qualifier : String) : Context := { c with qualifier }

/-- `bound` passes a parameter whose place the text already has. -/
inductive Piece where
  | text (s : String)
  | name (s : String)
  | columnAlias (s : String)
  | kind (k : Option Kind)
  | parameter (v : Value)
  | bound (v : Value)
deriving DecidableEq

abbrev Pieces := List Piece

instance : Coe String Piece := ⟨.text⟩

namespace Piece

/-- Whether nothing is written. -/
def isSilent : Piece → Bool
  | .text s => s == ""
  | .bound _ => true
  | _ => false

def value? : Piece → Option Value
  | .parameter v | .bound v => some v
  | _ => none

end Piece

namespace Pieces

def isSilent (ps : Pieces) : Bool := ps.all (·.isSilent)
def params (ps : Pieces) : List Value := ps.filterMap (·.value?)
def parenthesized (ps : Pieces) : Pieces := .text "(" :: ps ++ [.text ")"]
def parenthesizedIf (b : Bool) (ps : Pieces) : Pieces := if b then ps.parenthesized else ps

/-- The pieces before the first place where certain pieces follow. -/
def before (following : Pieces) : Pieces → Pieces
  | [] => []
  | p :: rest => if following.isPrefixOf (p :: rest) then [] else p :: before following rest

theorem isSilent_cons {p : Piece} {ps : Pieces} :
    isSilent (p :: ps) = true ↔ p.isSilent = true ∧ ps.isSilent = true :=
  Bool.and_eq_true_iff

theorem params_append (ps qs : Pieces) : params (ps ++ qs) = params ps ++ params qs :=
  List.filterMap_append

end Pieces

/-- A separator follows each item that wrote something and has an item after it. -/
def separated (separator : String) : List Pieces → Pieces
  | [] => []
  | [item] => item
  | item :: rest =>
    item ++ (if item.isSilent then [] else [.text separator]) ++ separated separator rest

theorem separated_cons_cons (separator : String) (item next : Pieces) (rest : List Pieces) :
    separated separator (item :: next :: rest) =
      item ++ (if item.isSilent then [] else [.text separator]) ++
        separated separator (next :: rest) := rfl

/-- What engines differ in. `placeholder n` stands for the `n`th parameter, counted from one. -/
structure Dialect where
  declaresAlias : Part → Bool
  name : String → String
  columnAlias : String → String
  placeholder : Nat → String
  kind : Option Kind → String
  window : Window → String
  supports : JoinKind → Bool
  fullJoin : String

namespace Dialect

/-- The text, `n` parameters having been passed before. -/
def writeFrom (d : Dialect) (n : Nat) : Pieces → List Char
  | [] => []
  | .text s :: rest => s.toList ++ d.writeFrom n rest
  | .name s :: rest => (d.name s).toList ++ d.writeFrom n rest
  | .columnAlias s :: rest => (d.columnAlias s).toList ++ d.writeFrom n rest
  | .kind k :: rest => (d.kind k).toList ++ d.writeFrom n rest
  | .parameter _ :: rest => (d.placeholder (n + 1)).toList ++ d.writeFrom (n + 1) rest
  | .bound _ :: rest => d.writeFrom (n + 1) rest

theorem writeFrom_append (d : Dialect) (n : Nat) (ps qs : Pieces) :
    d.writeFrom n (ps ++ qs) = d.writeFrom n ps ++ d.writeFrom (n + ps.params.length) qs := by
  induction ps generalizing n with
  | nil => rfl
  | cons p rest ih =>
    have passed : n + (Pieces.params (p :: rest)).length =
        n + (Pieces.params [p]).length + (Pieces.params rest).length := by
      rw [← List.singleton_append, Pieces.params_append, List.length_append, Nat.add_assoc]
    rw [passed]
    cases p <;> simp only [List.cons_append, writeFrom, ih, List.append_assoc] <;> rfl

theorem writeFrom_of_isSilent (d : Dialect) (n : Nat) {ps : Pieces} (silent : ps.isSilent = true) :
    d.writeFrom n ps = [] := by
  induction ps generalizing n with
  | nil => rfl
  | cons p rest ih =>
    obtain ⟨quiet, others⟩ := Pieces.isSilent_cons.mp silent
    cases p with
    | text s =>
      obtain rfl : s = "" := by simpa [Piece.isSilent] using quiet
      exact ih n others
    | bound v => exact ih (n + 1) others
    | _ => cases quiet

def write (d : Dialect) (ps : Pieces) : String := String.ofList (d.writeFrom 0 ps)

/-- How many bytes the text has. -/
def size (d : Dialect) (ps : Pieces) : Nat := (d.write ps).utf8ByteSize

end Dialect
end DataAccess.Sql
