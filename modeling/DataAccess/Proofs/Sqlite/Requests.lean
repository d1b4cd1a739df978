import DataAccess.Proofs.Memory.Performed
import DataAccess.Sqlite

/-!
Requests to sessions, on two sides at once. Queries and commands come out of pools that tell nothing
of what was done before; the rest is what connections do.
-/
namespace DataAccess.Sqlite

/-- What can be asked of a session: an operation, or a join of two tables. -/
inductive Request where
  | operation (o : Memory.Operation)
  | compileJoin (pair : Sql.Pair) (c : JoinCriteria)
  | countJoin (pair : Sql.Pair) (c : JoinCriteria)

namespace Request

def Result : Request → Type
  | .operation o => o.Result
  | .compileJoin .. => Outcome Query
  | .countJoin .. => Outcome Nat

def perform (site : Site) : (r : Request) → Effect Session r.Result
  | .operation o => o.perform (Session.backend site)
  | .compileJoin pair c => ((Session.joins site).compile pair c).run
  | .countJoin pair c => ((Session.joins site).count pair c).run

end Request

namespace Session

variable {site site' : Site} {R : Env Session → Env Session → Prop} {α : Type} {q : Query}
  {s : Session}

/-- A command of a text that is not yet filled in. -/
def blankCommand (key : String × String) : Command := .ofText key.1

/-- A command that is leased has the query's text and parameters, and the session's transaction. -/
theorem leaseCommand_eq (site : Site) (fresh : (commandsPlace.get s).Fresh blankCommand)
    (q : Query) (log : List LogRecord) :
    leaseCommand site q ⟨s, log⟩ = (.ok ⟨q.text, q.params, s.transaction.map (·.id), q.written⟩,
      ⟨commandsPlace.set (s.storage.commands.leased (q.text, site.identity)) s, log⟩) := by
  have leased : Pool.lease commandsPlace (q.text, site.identity) (pure (.ofText q.text)) ⟨s, log⟩ =
      (.ok (.ofText q.text),
        ⟨commandsPlace.set (s.storage.commands.leased (q.text, site.identity)) s, log⟩) :=
    fresh.lease_eq rfl (q.text, site.identity) log
  exact Action.bind_of_ok leased

theorem told_alike (logs : Effect.Logs R) (q : Query) : Action.Alike R (told q) (told q) :=
  .effect (.log logs .debug q.display)

theorem compile_alike (logs : Effect.Logs R) (queries : Pool.Tidy Query.blank queriesPlace R)
    (shape : Shape) (s : Statement) (mapping joined : Option Mapping) :
    Action.Alike R (compile shape s mapping joined) (compile shape s mapping joined) :=
  (QueryPool.compile_alike queries).bind fun q => (told_alike logs q).bind fun _ => .pure _

/-- What sides have in common: where the storage is, their queries and commands, and what comes of
work on a connection. -/
structure Passes (site site' : Site) (R : Env Session → Env Session → Prop) : Prop where
  identity : site'.identity = site.identity
  logs : Effect.Logs R
  queries : Pool.Tidy Query.blank queriesPlace R
  commands : Pool.Tidy blankCommand commandsPlace R
  transaction : ∀ env env', R env env' →
    env'.state.transaction.map (·.id) = env.state.transaction.map (·.id)
  execute : ∀ command, Action.Alike R (withConnection site (site.execute command).run)
    (withConnection site' (site'.execute command).run)
  query : ∀ {β : Type} command (receive : Receiver β) start,
    Action.Alike R (withConnection site (site.query command receive start))
      (withConnection site' (site'.query command receive start))

namespace Passes

theorem withCommand (passes : Passes site site' R) {work work' : Command → Action Session α}
    (each : ∀ command, Action.Alike R (work command) (work' command)) :
    Action.Alike R (withCommand site q work) (Session.withCommand site' q work') := by
  have tidy := passes.commands
  refine .bind_of_ok fun env env' h => ?_
  obtain ⟨fresh, fresh'⟩ := tidy.fresh env env' h
  have leased := leaseCommand_eq site fresh q env.log
  have leased' := leaseCommand_eq site' fresh' q env'.log
  rw [passes.transaction env env' h, passes.identity] at leased'
  have kept := tidy.kept (Pool.leased (q.text, site.identity)) (fun p hp => hp.leased _) env env' h
  refine ⟨_, _, _, _, leased, leased', kept, ?_⟩
  rw [passes.identity]
  exact (each _).ensuring (tidy.release (q.text, site.identity))

theorem linked_execute (passes : Passes site site' R) (command : Command) :
    Action.Alike R (linked site (site.execute command)) (linked site' (site'.execute command)) :=
  (passes.execute command).bind fun r => .of r

theorem statement (passes : Passes site site' R) (s : Statement) :
    Action.Alike R (statement site s) (Session.statement site' s) :=
  QueryPool.during_alike passes.queries fun q => (told_alike passes.logs q).bind fun _ =>
    passes.withCommand fun command => passes.linked_execute command

theorem define (passes : Passes site site' R) (s : Statement) :
    Action.Alike R (define site s) (Session.define site' s) :=
  (passes.statement s).bind fun _ => .pure ()

theorem execute_query (passes : Passes site site' R) {β : Type} (q : Query) (receive : Receiver β)
    (start : β) : Effect.Alike R (Session.execute site q receive start)
      (Session.execute site' q receive start) := by
  refine Effect.Alike.bind (passes.withCommand fun c => passes.query c receive start) fun r => ?_
  cases r <;> exact .pure _

theorem collected (passes : Passes site site' R) (shape : Shape) (s : Statement)
    (read : LabeledRow → Outcome α) :
    Action.Alike R (collected site shape s read) (Session.collected site' shape s read) :=
  QueryPool.during_alike passes.queries fun q => (told_alike passes.logs q).bind fun _ =>
    (Action.Alike.effect (passes.execute_query q _ _)).bind fun answer =>
      (Action.Alike.of answer.2).bind fun _ => .pure answer.1

theorem total (passes : Passes site site' R) (shape : Shape) (s : Statement) (w : Window) :
    Action.Alike R (total site shape s w) (Session.total site' shape s w) :=
  (passes.collected shape s _).bind fun _ => .pure _

theorem countGrouped (passes : Passes site site' R) (m : Mapping) (c : Criteria)
    (groupBy : List String) :
    Action.Alike R (countGrouped site m c groupBy) (Session.countGrouped site' m c groupBy) :=
  (Action.Alike.of (groupBy.mapM m.column)).bind fun columns =>
    passes.collected .countGrouped (.countGrouped m c groupBy) (readGroup columns)

/-- A request gives the same on both sides. -/
theorem perform (passes : Passes site site' R) (r : Request) :
    Effect.Alike R (r.perform site) (r.perform site') := by
  cases r with
  | compileJoin pair c => exact compile_alike passes.logs passes.queries .join _ _ _
  | countJoin pair c => exact passes.total .joinCount _ _
  | operation o =>
    cases o with
    | createTable m ifNotExists => exact passes.define _
    | dropTable m ifExists => exact passes.define _
    | insert m row => exact passes.statement _
    | insertBatch m rows => exact Action.Alike.oneByOne (fun _ => passes.statement _) rows
    | update m c values => exact passes.statement _
    | updateBatch m items => exact Action.Alike.oneByOne (fun _ => passes.statement _) items
    | delete m c => exact passes.statement _
    | deleteAll m => exact passes.statement _
    | compileQuery m c => exact compile_alike passes.logs passes.queries .select _ _ _
    | execute q receive start => exact passes.execute_query q receive start
    | dispose q => exact QueryPool.release_alike passes.queries q
    | count m c => exact passes.total .count _ _
    | countGrouped m c groupBy => exact passes.countGrouped m c groupBy

end Passes
end Session
end DataAccess.Sqlite
