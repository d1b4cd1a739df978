import DataAccess.Backend
import DataAccess.Query.Compiled

/-!
A storage that plays a script. Whatever is asked of it is compiled and recorded; the answers are set
beforehand.
-/
namespace DataAccess

/-- The rows that queries find, the count, the reason why all but counting fails, if there is one,
and the joins that are taken on. -/
structure Script where
  labels : List String
  rows : List Row
  count : Nat
  fault : Option String
  native : Bool
  kinds : List JoinKind

structure Scripted where
  descriptor : Descriptor
  script : Script
  queries : QueryPool
  recorded : List Query

namespace Scripted

def scheme : String := "scripted"

def ofUrl (url : String) (script : Script) : Outcome Scripted := do
  let d ← Descriptor.ofUrl url
  d.expectScheme scheme
  pure ⟨d, script, .new "scripted query" d.maxIdle, []⟩

def queriesPlace : Place Scripted QueryPool := ⟨queries, fun queries s => { s with queries }⟩
def recordedPlace : Place Scripted (List Query) := ⟨recorded, fun recorded s => { s with recorded }⟩

def record (q : Query) : Action Scripted Unit :=
  Action.effect (Effect.within recordedPlace (Effect.modify (· ++ [q])))

/-- What was recorded since the last look. -/
def trace : Effect Scripted (List Query) := do
  let seen ← Effect.read recordedPlace
  Effect.write recordedPlace []
  pure seen

def verdict (script : Script) (q : Query) : Outcome Unit :=
  match script.fault with
  | some reason => .error (.ofExecution q.text q.params (.other reason))
  | none => .ok ()

def compile (shape : Shape) (s : Statement) : Action Scripted Query := do
  let q ← QueryPool.compile queriesPlace .generic shape s
  record q
  pure q

def statement (script : Script) (s : Statement) : Action Scripted Unit :=
  QueryPool.during queriesPlace .generic .statement s fun q => do
    record q
    Action.of (verdict script q)

def change (script : Script) (s : Statement) : Action Scripted Affected := do
  statement script s
  pure .unknown

def counted {α : Type} (shape : Shape) (s : Statement) (answer : α) : Action Scripted α :=
  QueryPool.during queriesPlace .generic shape s fun q => do
    record q
    pure answer

/-- Hands out the rows; the fault comes after the last one. -/
def execute (script : Script) {β : Type} (q : Query) (receive : Receiver β) (start : β) :
    Effect Scripted (β × Outcome Unit) :=
  let (b, ending) := deliver receive start (script.rows.map (⟨script.labels, ·⟩))
  pure (b, ending.bind fun _ => verdict script q)

def joins (d : Descriptor) (script : Script) : Joins Scripted where
  reaches _ _ other := script.native && other.identity == d.identity
  supports kind := decide (kind ∈ script.kinds)
  compile p c := compile .join (.join p c)
  count p c := counted .joinCount (.joinCount p c) (c.window.count script.count)

def backend (d : Descriptor) (script : Script) : Backend Scripted where
  name := scheme
  descriptor := d
  createTable m flag := statement script (.createTable m flag)
  dropTable m flag := statement script (.dropTable m flag)
  insert m row := change script (.insert m row)
  insertBatch m := Backend.oneByOne fun row => change script (.insert m row)
  update m c values := change script (.update m c values)
  updateBatch m := Backend.oneByOne fun (c, values) => change script (.update m c values)
  delete m c := change script (.delete m c)
  deleteAll m := change script (.deleteAll m)
  compileQuery m c := compile .select (.select m c)
  execute := execute script
  dispose := QueryPool.release queriesPlace
  count m c := counted .count (.count m c) script.count
  countGrouped m c groupBy := counted .countGrouped (.countGrouped m c groupBy) []
  coerce := Value.coerce
  joins := some (joins d script)

end Scripted
end DataAccess
