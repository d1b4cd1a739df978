import DataAccess.Failure
import DataAccess.Numeric.Integer
import DataAccess.Text.Form

/-!
Connection urls, `scheme://location?options`. Pool size and patience are the connection's own
affair; all else makes up its identity, under which it reaches the same data.
-/
namespace DataAccess

structure Descriptor where
  scheme : String
  location : String
  options : List (String × String)
  maxIdle : Nat
  busyTimeout : Nat
deriving DecidableEq

namespace Descriptor

def defaultMaxIdle : Nat := 4
def defaultBusyTimeout : Nat := 5000

def optionText (d : Descriptor) : String := Form.ofPairs d.options

def identity (d : Descriptor) : String :=
  d.scheme ++ "://" ++ d.location ++ if d.options.isEmpty then "" else "?" ++ d.optionText

def isSchemeChar (c : Char) : Bool := c.isAlphanum || c = '+' || c = '-' || c = '.'

/-- Options in turn: the two settings, of which the last counts, and the rest in order. -/
def withOption (invalid : String → Failure) (d : Descriptor) (option : String × String) :
    Outcome Descriptor :=
  let number (read : Nat → Descriptor) : Outcome Descriptor :=
    match Integer.word? option.2.toList with
    | some n => .ok (read n)
    | none => .error (invalid (option.1 ++ " must be a non negative integer"))
  if option.1 = "pool_max_idle" then number fun n => { d with maxIdle := n }
  else if option.1 = "busy_timeout_ms" then number fun n => { d with busyTimeout := n }
  else .ok { d with options := d.options ++ [option] }

def ofUrl (url : String) : Outcome Descriptor :=
  let invalid := Failure.invalidUrl url
  match Form.splitAt? "://".toList url.toList with
  | none => .error (invalid "expected `scheme://location`")
  | some (scheme, rest) =>
    if scheme.isEmpty || !scheme.all isSchemeChar then .error (invalid "the scheme is not valid")
    else
      let (location, query) := (Form.splitAt? ['?'] rest).getD (rest, [])
      if location.isEmpty then .error (invalid "the location is empty")
      else (Form.pairs query).foldlM (withOption invalid)
        ⟨String.ofList (scheme.map Char.toLower), String.ofList location, [], defaultMaxIdle,
          defaultBusyTimeout⟩

def option? (d : Descriptor) (key : String) : Option String := d.options.lookup key

def expectScheme (d : Descriptor) (scheme : String) : Outcome Unit :=
  if d.scheme = scheme then .ok ()
  else .error (.invalidUrl d.identity ("expected a `" ++ scheme ++ "://` url"))

end Descriptor
end DataAccess
