import DataAccess.Pool
import DataAccess.Query

/-! Queries compiled into leased ones. -/
namespace DataAccess

abbrev QueryPool := Pool Shape Query

namespace QueryPool

variable {σ α : Type}

def lease (pool : Place σ QueryPool) (shape : Shape) : Action σ Query :=
  Pool.lease pool shape (pure (.blank shape))

def release (pool : Place σ QueryPool) (q : Query) : Effect σ Unit :=
  Pool.release pool q.shape q.reset

/-- What cannot be compiled gives its query back. -/
def compile (pool : Place σ QueryPool) (d : Sql.Dialect) (shape : Shape) (s : Statement) :
    Action σ Query := do
  let blank ← lease pool shape
  match blank.compile d s with
  | .ok q => pure q
  | .error f => do
    Action.effect (release pool blank)
    Action.of (.error f)

/-- Compiles a query and holds it while the work is done. -/
def during (pool : Place σ QueryPool) (d : Sql.Dialect) (shape : Shape) (s : Statement)
    (work : Query → Action σ α) : Action σ α := do
  let q ← compile pool d shape s
  Action.ensuring (work q) (release pool q)

end QueryPool
end DataAccess
