import DataAccess.Join.Kind
import DataAccess.Text.Abridged
import DataAccess.Value.Text

/-! What can go wrong, who is at fault, and how it is told. -/
namespace DataAccess

inductive Failure where
  | unsupportedFlip (join : JoinKind)
  | unsupportedInvert (clause : String)
  | emptyCriteria (operation : String)
  | emptyAssignment
  | emptyInList (property : String)
  | nullOperand (property clause : String)
  | unsupportedClause (storage clause : String)
  | unknownProperty (table property : String)
  | typeCoercion (value target : String)
  | execution (query : String) (params : List Value) (source : Failure)
  | resultProcessing (table : String) (source : Failure)
  | invalidUrl (url reason : String)
  | poolDiscipline (reason : String)
  | other (message : String)
  | context (message : String) (source : Failure)

inductive FailureKind where
  | configuration | execution | resultProcessing | poolDiscipline
deriving DecidableEq

namespace Failure

/-- A failed statement, which is shown abridged. -/
def ofExecution (query : String) (params : List Value) (source : Failure) : Failure :=
  .execution (Text.abridged query) params source

def message : Failure → String
  | .unsupportedFlip join =>
    "Cannot flip a " ++ join.display ++ " join, only left and right outer joins can be flipped"
  | .unsupportedInvert clause =>
    "Cannot invert the raw clause `" ++ clause ++ "`, provide the negated clause explicitly"
  | .emptyCriteria operation => operation ++ " requires at least one expression"
  | .emptyAssignment => "An update requires at least one value to assign"
  | .emptyInList property =>
    "Property `" ++ property ++ "` must be compared against at least one value"
  | .nullOperand property clause =>
    "Property `" ++ property ++ "` cannot be compared with NULL using " ++ clause
  | .unsupportedClause storage clause => storage ++ " cannot handle " ++ clause
  | .unknownProperty table property =>
    "Unknown property `" ++ property ++ "` for table `" ++ table ++ "`"
  | .typeCoercion value target => "Cannot coerce " ++ value ++ " into " ++ target
  | .execution query params source =>
    "Query execution failed: " ++ source.message ++ "\n" ++ query ++ "\nParameters: " ++
      Scalar.listed (params.map Value.display)
  | .resultProcessing table source =>
    "Could not decode a row of `" ++ table ++ "`: " ++ source.message
  | .invalidUrl url reason => "Invalid connection url `" ++ url ++ "`: " ++ reason
  | .poolDiscipline reason => "Pooled object misuse: " ++ reason
  | .other message => message
  | .context message _ => message

/-- The messages from the outermost to the root cause. -/
def chain (f : Failure) : List String :=
  f.message :: match f with
    | .execution _ _ source | .resultProcessing _ source | .context _ source => source.chain
    | _ => []

/-- All messages on one line. -/
def inline (f : Failure) : String := ": ".intercalate f.chain

/-- The first failure of the chain that has a kind. -/
def root : Failure → Failure
  | .context _ source => source.root
  | f => f

def kind? (f : Failure) : Option FailureKind :=
  match f.root with
  | .other _ | .context .. => none
  | .execution .. => some .execution
  | .resultProcessing .. => some .resultProcessing
  | .poolDiscipline _ => some .poolDiscipline
  | _ => some .configuration

end Failure

abbrev Outcome := Except Failure

end DataAccess
