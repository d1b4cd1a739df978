import DataAccess.Conformance.Changing
import DataAccess.Conformance.Joining
import DataAccess.Conformance.Recording

/-! Every expectation on storages, in turn. -/
namespace DataAccess.Conformance

variable {σ : Type}

/-- Tables by themselves are kept on the left; joins have their right table on the right. -/
def all (left right : Backend σ) : Action σ Unit := do
  filtering left
  counting left
  changing left
  joinKinds left right
  joinWindows left right
  joinPredicates left right

/-- A run of everything under observation: whether all expectations were met, and the calls. -/
def observe (left right : Backend σ) (faultAt : Option Nat) :
    Effect σ (Bool × List Call) := fun env =>
  let (r, out) := (all (Recording.backend .left left) (Recording.backend .right right)).run
    ⟨⟨env.state, [], faultAt⟩, env.log⟩
  ((r.toBool, out.state.calls), ⟨out.state.inner, out.log⟩)

end DataAccess.Conformance
