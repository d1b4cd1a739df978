import DataAccess.Failure
import DataAccess.Keyed

/-!
Operations on a state that keep a log and may fail. What a failed operation did to the state before
it failed stays done.
-/
namespace DataAccess

inductive Level where
  | debug | warn | error
deriving DecidableEq

structure LogRecord where
  level : Level
  message : String
deriving DecidableEq

/-- A state and the log so far, latest record last. -/
structure Env (σ : Type) where
  state : σ
  log : List LogRecord

abbrev Effect (σ : Type) := StateM (Env σ)
abbrev Action (σ : Type) := ExceptT Failure (Effect σ)

/-- A part of a state. -/
structure Place (σ τ : Type) where
  get : σ → τ
  set : τ → σ → σ

namespace Place

variable {σ τ υ κ : Type}

def whole : Place σ σ := ⟨id, fun s _ => s⟩
def comp (p : Place σ τ) (q : Place τ υ) : Place σ υ :=
  ⟨fun s => q.get (p.get s), fun u s => p.set (q.set u (p.get s)) s⟩

/-- The entry under a key, with a stand-in until there is one. -/
def entry [DecidableEq κ] (key : κ) (absent : τ) : Place (Keyed κ τ) τ :=
  ⟨fun entries => (entries.find? key).getD absent, fun a entries => entries.put key a⟩

end Place

namespace Effect

variable {σ τ α : Type}

def state : Effect σ σ := fun env => (env.state, env)
def setState (s : σ) : Effect σ Unit := fun env => ((), { env with state := s })
def modify (f : σ → σ) : Effect σ Unit := fun env => ((), { env with state := f env.state })
def log (level : Level) (message : String) : Effect σ Unit :=
  fun env => ((), { env with log := env.log ++ [⟨level, message⟩] })

/-- An effect on a part of the state. -/
def within (p : Place σ τ) (e : Effect τ α) : Effect σ α := fun env =>
  let (a, inner) := e ⟨p.get env.state, env.log⟩
  (a, ⟨p.set inner.state env.state, inner.log⟩)

def read (p : Place σ τ) : Effect σ τ := within p state
def write (p : Place σ τ) (t : τ) : Effect σ Unit := within p (setState t)

/-- An effect on the state together with something beside it. -/
def beside {β : Type} (b : β) (e : Effect (σ × β) α) : Effect σ (α × β) := fun env =>
  let (a, inner) := e ⟨(env.state, b), env.log⟩
  ((a, inner.state.2), ⟨inner.state.1, inner.log⟩)

end Effect

namespace Action

variable {σ τ α : Type}

def of (r : Outcome α) : Action σ α := ExceptT.mk (pure r)
def effect (e : Effect σ α) : Action σ α := ExceptT.lift e
def within (p : Place σ τ) (a : Action τ α) : Action σ α := ExceptT.mk (Effect.within p a.run)

/-- Does `cleanup` whether `a` succeeds or not. -/
def ensuring (a : Action σ α) (cleanup : Effect σ Unit) : Action σ α := ExceptT.mk do
  let r ← a.run
  cleanup
  pure r

/-- A failure that the log is told about. -/
def fail (f : Failure) : Action σ α := ExceptT.mk do
  Effect.log .error f.inline
  pure (.error f)

end Action
end DataAccess
