import DataAccess.Backend

/-! Storages that keep a record of what they are asked, and that can be made to fail once. -/
namespace DataAccess.Conformance

inductive Request where
  | statement (s : Statement)
  | execute (text : String)

inductive Reply where
  | done
  | changed (a : Affected)
  | compiled (q : Query)
  | counted (n : Nat)
  | grouped (gs : List GroupCount)

/-- A request, the side that was asked, its reply, and the rows that were handed out. -/
structure Call where
  side : Side
  request : Request
  reply : Outcome Reply
  handed : List Row

/-- The calls so far, and the number of the one that fails before it reaches the storage. -/
structure Recording (σ : Type) where
  inner : σ
  calls : List Call
  faultAt : Option Nat

namespace Recording

variable {σ α β : Type}

def innerPlace : Place (Recording σ) σ := ⟨inner, fun inner r => { r with inner }⟩

def injected : Failure := .ofExecution "" [] (.other "injected")

def isDue (r : Recording σ) : Bool := r.faultAt == some r.calls.length

def record (call : Call) : Effect (Recording σ) Unit :=
  Effect.modify fun r => { r with calls := r.calls ++ [call] }

def observed (side : Side) (s : Statement) (shown : α → Reply) (act : Action σ α) :
    Action (Recording σ) α := ExceptT.mk do
  let r ← if (← Effect.state).isDue then pure (.error injected)
    else Effect.within innerPlace act.run
  record ⟨side, .statement s, r.map shown, []⟩
  pure r

/-- A receiver that remembers its rows, the one it fails on included. -/
def remembering (receive : Receiver β) : Receiver (β × List Row) := fun (b, seen) row =>
  let (b, r) := receive b row
  ((b, seen ++ [row.cells]), r)

def execute (side : Side) (b : Backend σ) (q : Query) (receive : Receiver β) (start : β) :
    Effect (Recording σ) (β × Outcome Unit) := do
  let ((a, seen), ending) ← if (← Effect.state).isDue then pure ((start, []), .error injected)
    else Effect.within innerPlace (b.execute q (remembering receive) (start, []))
  record ⟨side, .execute q.text, ending.map fun _ => .done, seen⟩
  pure (a, ending)

def joins (side : Side) (j : Joins σ) : Joins (Recording σ) where
  reaches := j.reaches
  supports := j.supports
  compile p c := observed side (.join p c) .compiled (j.compile p c)
  count p c := observed side (.joinCount p c) .counted (j.count p c)

/-- A storage observed as one side; many rows are changed one by one. -/
def backend (side : Side) (b : Backend σ) : Backend (Recording σ) :=
  let done (_ : Unit) : Reply := .done
  let insert m row := observed side (.insert m row) .changed (b.insert m row)
  let update m c values := observed side (.update m c values) .changed (b.update m c values)
  { name := b.name
    descriptor := b.descriptor
    createTable := fun m flag => observed side (.createTable m flag) done (b.createTable m flag)
    dropTable := fun m flag => observed side (.dropTable m flag) done (b.dropTable m flag)
    insert := insert
    insertBatch := fun m => Backend.oneByOne (insert m)
    update := update
    updateBatch := fun m => Backend.oneByOne fun (c, values) => update m c values
    delete := fun m c => observed side (.delete m c) .changed (b.delete m c)
    deleteAll := fun m => observed side (.deleteAll m) .changed (b.deleteAll m)
    compileQuery := fun m c => observed side (.select m c) .compiled (b.compileQuery m c)
    execute := execute side b
    dispose := fun q => Effect.within innerPlace (b.dispose q)
    count := fun m c => observed side (.count m c) .counted (b.count m c)
    countGrouped := fun m c groupBy =>
      observed side (.countGrouped m c groupBy) .grouped (b.countGrouped m c groupBy)
    coerce := Value.coerce
    joins := b.joins.map (joins side) }

end Recording
end DataAccess.Conformance
