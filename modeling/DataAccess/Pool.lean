import DataAccess.Effect

/-!
Pools of objects that are used again. An object is either leased or idle under the key it was made
for; a list of idle objects that is full turns back what is given to it.
-/
namespace DataAccess

/-- Idle objects with the latest first. A poisoned pool hands out nothing and keeps nothing. -/
structure Pool (κ τ : Type) where
  name : String
  maxIdle : Nat
  idle : Keyed κ (List τ)
  created : Nat
  reused : Nat
  poisoned : Bool

structure PoolStats where
  created : Nat
  reused : Nat
  idle : Nat
deriving DecidableEq

namespace Pool

variable {κ τ : Type} [DecidableEq κ]

def new (name : String) (maxIdle : Nat) : Pool κ τ := ⟨name, maxIdle, [], 0, 0, false⟩

def inspect (p : Pool κ τ) : String :=
  "Pool \x7b name: " ++ Text.quoted p.name ++ ", max_idle: " ++ toString p.maxIdle ++ " \x7d"

def idleUnder (p : Pool κ τ) (key : κ) : List τ := (p.idle.find? key).getD []

def idleCount (p : Pool κ τ) (key : κ) : Nat := if p.poisoned then 0 else (p.idleUnder key).length

def stats (p : Pool κ τ) : PoolStats :=
  ⟨p.created, p.reused, if p.poisoned then 0 else (p.idle.flatMap Prod.snd).length⟩

def poisonedFailure (p : Pool κ τ) : Failure :=
  .poolDiscipline ("the " ++ p.name ++ " pool lock is poisoned")

/-- An idle object of the key, the latest first. -/
def takeIdle? (p : Pool κ τ) (key : κ) : Option (τ × Pool κ τ) :=
  match p.idleUnder key with
  | [] => none
  | object :: rest => some (object, { p with idle := p.idle.put key rest, reused := p.reused + 1 })

/-- Counts an object that was made. -/
def noteCreated (p : Pool κ τ) : Pool κ τ := { p with created := p.created + 1 }

/-- Whether an object given back would be kept. -/
def hasRoom (p : Pool κ τ) (key : κ) : Bool :=
  !p.poisoned && decide ((p.idleUnder key).length < p.maxIdle)

/-- Takes an object back under its key, which stays known even when there is no room. -/
def giveBack (p : Pool κ τ) (key : κ) (object : τ) : Pool κ τ :=
  if p.poisoned then p
  else
    let list := p.idleUnder key
    { p with idle := p.idle.put key (if p.hasRoom key then object :: list else list) }

def clear (p : Pool κ τ) : Pool κ τ := if p.poisoned then p else { p with idle := [] }

/-- Work that fails with the table of idle objects in hand; without an entry there is none. -/
def poison (p : Pool κ τ) : Bool × Pool κ τ :=
  if p.poisoned || p.idle.isEmpty then (false, p) else (true, { p with poisoned := true })

variable {σ : Type}

/-- An idle object of the key, or else a new one. -/
def lease (pool : Place σ (Pool κ τ)) (key : κ) (create : Action σ τ) : Action σ τ := do
  let p ← Action.effect (Effect.read pool)
  if p.poisoned then Action.of (.error p.poisonedFailure)
  else match p.takeIdle? key with
    | some (object, p) => do
      Action.effect (Effect.write pool p)
      pure object
    | none => do
      let object ← create
      Action.effect (Effect.within pool (Effect.modify noteCreated))
      pure object

/-- Ends a lease. -/
def release (pool : Place σ (Pool κ τ)) (key : κ) (object : τ) : Effect σ Unit := do
  let p ← Effect.read pool
  if p.poisoned then
    Effect.log .error
      ("The " ++ p.name ++ " pool lock is poisoned, discarding the returned object")
  Effect.write pool (p.giveBack key object)

end Pool
end DataAccess
