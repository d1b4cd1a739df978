/-! The four kinds of join. -/
namespace DataAccess

inductive JoinKind where
  | inner | leftOuter | rightOuter | outer
deriving DecidableEq

namespace JoinKind

def display : JoinKind → String
  | .inner => "inner"
  | .leftOuter => "left outer"
  | .rightOuter => "right outer"
  | .outer => "full outer"

/-- Whether left rows without a partner are kept. -/
def preservesLeft : JoinKind → Bool
  | .leftOuter | .outer => true
  | .inner | .rightOuter => false

def preservesRight : JoinKind → Bool
  | .rightOuter | .outer => true
  | .inner | .leftOuter => false

end JoinKind
end DataAccess
