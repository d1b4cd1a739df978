import DataAccess.Pool

/-! Things held under names of one's own, beside what they were taken from. -/
namespace DataAccess

structure Lease (κ τ : Type) where
  key : κ
  object : τ

namespace Lease

variable {σ κ τ : Type} [DecidableEq κ]

def take (pool : Place σ (Pool κ τ)) (key : κ) (create : Action σ τ) : Action σ (Lease κ τ) := do
  pure ⟨key, ← Pool.lease pool key create⟩

/-- The object goes back as `reset` leaves it. -/
def finish (pool : Place σ (Pool κ τ)) (reset : τ → τ) (l : Lease κ τ) : Effect σ Unit :=
  Pool.release pool l.key (reset l.object)

def inspect (key : κ → String) (object : τ → String) (l : Lease κ τ) : String :=
  "Pooled \x7b key: " ++ key l.key ++ ", object: Some(" ++ object l.object ++ ") \x7d"

end Lease

structure Desk (σ α : Type) where
  source : σ
  held : Keyed String α

namespace Desk

variable {σ α β : Type}

def ofSource (source : σ) : Desk σ α := ⟨source, []⟩
def sourcePlace : Place (Desk σ α) σ := ⟨Desk.source, fun source d => { d with source }⟩
def find? (d : Desk σ α) (name : String) : Option α := d.held.find? name
def put (name : String) (a : α) (d : Desk σ α) : Desk σ α := { d with held := d.held.put name a }

/-- Takes what a name holds off the desk. -/
def take (name : String) : Effect (Desk σ α) (Option α) := do
  let d ← Effect.state
  Effect.setState { d with held := d.held.erase name }
  pure (d.find? name)

/-- Finishes what a name held; false when it held nothing. -/
def drop (name : String) (finish : α → Effect σ Unit) : Effect (Desk σ α) Bool := do
  match ← take name with
  | some a =>
    Effect.within sourcePlace (finish a)
    pure true
  | none => pure false

/-- Obtains something for a name. What the name held before ends after that. -/
def hold (name : String) (obtain : Action σ α) (finish : α → Effect σ Unit) :
    Action (Desk σ α) α := do
  let a ← Action.within sourcePlace obtain
  let _ ← Action.effect (drop name finish)
  Action.effect (Effect.modify (put name a))
  pure a

end Desk
end DataAccess
