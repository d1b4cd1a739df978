import DataAccess.Pool.Desk
import DataAccess.Sqlite.Connection

/-! Pooled connections. -/
namespace DataAccess.Sqlite

structure Fleet where
  pool : Pool String Connection
  engine : Engine

namespace Fleet

variable {α : Type}

def poolPlace : Place Fleet (Pool String Connection) := ⟨pool, fun pool f => { f with pool }⟩
def enginePlace : Place Fleet Engine := ⟨engine, fun engine f => { f with engine }⟩

def leaseBy (identity : String) (connect : Action Engine Connection) : Action Fleet Connection :=
  Pool.lease poolPlace identity (Action.within enginePlace connect)

def lease (d : Descriptor) : Action Fleet Connection := leaseBy d.identity (Connection.connect d)

def use (c : Connection) (work : Effect Link α) : Effect Fleet (α × Connection) :=
  Effect.within enginePlace (Effect.beside c work)

/-- Ends a lease. A connection that is not kept is closed. -/
def giveBackBy (reset : Effect Link Unit) (c : Connection) : Effect Fleet Unit := do
  let ((), c) ← use c reset
  let kept := (← Effect.read poolPlace).hasRoom c.identity
  Pool.release poolPlace c.identity c
  if !kept then Effect.within enginePlace c.disconnect

def giveBack (c : Connection) : Effect Fleet Unit := giveBackBy Link.reset c

/-- Works with a connection that is leased for the purpose. -/
def withLeased (identity : String) (connect : Action Engine Connection) (reset : Effect Link Unit)
    (work : Effect Link α) : Action Fleet α := do
  let c ← leaseBy identity connect
  let (a, c) ← Action.effect (use c work)
  Action.effect (giveBackBy reset c)
  pure a

/-- Uses a connection that is held under a name. -/
def useHeld (name : String) (c : Connection) (work : Effect Link α) :
    Effect (Desk Fleet Connection) α := do
  let (a, c) ← Effect.within Desk.sourcePlace (use c work)
  Effect.modify (Desk.put name c)
  pure a

end Fleet
end DataAccess.Sqlite
