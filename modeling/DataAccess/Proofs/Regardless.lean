import DataAccess.Proofs.Memory.Isolated
import DataAccess.Proofs.Sqlite.Activity

/-!
What is compiled does not depend on what was done before, whether it went well or not, and a command
says no more than its query and the transaction it is run in.
-/
namespace DataAccess

open Sqlite

theorem Memory.compileQuery_regardless {s s' : Memory} (fresh : s.queries.Fresh Query.blank)
    (fresh' : s'.queries.Fresh Query.blank) (m : Mapping) (c : Criteria)
    (log log' : List LogRecord) :
    (compileQuery m c ⟨s, log⟩).1 = (compileQuery m c ⟨s', log'⟩).1 := by
  have alike := compileQuery_alike QueryPool.logs_bothFresh
    (QueryPool.tidy_bothFresh (fun _ => rfl) fun _ _ => rfl) m c
  exact (alike ⟨s, log⟩ ⟨s', log'⟩ ⟨fresh, fresh'⟩).1

theorem Sqlite.Session.compile_regardless {s s' : Session} (tidied : s.Tidied)
    (tidied' : s'.Tidied) (shape : Shape) (statement : Statement) (mapping joined : Option Mapping)
    (log log' : List LogRecord) :
    (compile shape statement mapping joined ⟨s, log⟩).1 =
      (compile shape statement mapping joined ⟨s', log'⟩).1 := by
  have alike := compile_alike QueryPool.logs_bothFresh
    (QueryPool.tidy_bothFresh (fun _ => rfl) fun _ _ => rfl) shape statement mapping joined
  exact (alike ⟨s, log⟩ ⟨s', log'⟩ ⟨tidied.queries, tidied'.queries⟩).1

/-- After any history a query is compiled into what it is compiled into by a storage that was opened
just now, in process or by the engine, in a transaction or outside; the same holds of joins. A
command that a session leases is of its query and its transaction. -/
theorem compiled_regardless :
    (∀ d ops m c log log',
      ((Memory.backend d).compileQuery m c ⟨Memory.ofOperations d ops, log⟩).1 =
        ((Memory.backend d).compileQuery m c ⟨.ofDescriptor d, log'⟩).1) ∧
    ∀ site a, Activity.Reached site a → ∀ t log, let s := a.session t
      (∀ e log₀ log', let opened := (Activity.opened site e log₀).session none
        (∀ m c, ((Session.backend site).compileQuery m c ⟨s, log⟩).1 =
          ((Session.backend site).compileQuery m c ⟨opened, log'⟩).1) ∧
        ∀ pair c, ((Session.joins site).compile pair c ⟨s, log⟩).1 =
          ((Session.joins site).compile pair c ⟨opened, log'⟩).1) ∧
      ∀ q, (Session.leaseCommand site q ⟨s, log⟩).1 =
        .ok ⟨q.text, q.params, t.map (·.id), q.written⟩ := by
  constructor
  · intro d ops m c log log'
    have start : (Memory.ofDescriptor d).queries.Fresh Query.blank := Pool.fresh_new ..
    exact Memory.compileQuery_regardless (Memory.ofOperations_fresh d ops) start m c log log'
  · intro site a reached t log
    have tidied := reached.tidied t
    refine ⟨fun e log₀ log' => ?_, fun q => ?_⟩
    · have start := Activity.opened_tidied site e log₀ none
      exact ⟨fun m c => Session.compile_regardless tidied start .select _ _ _ log log',
        fun pair c => Session.compile_regardless tidied start .join _ _ _ log log'⟩
    · rw [Session.leaseCommand_eq site tidied.commands q log]
      rfl

section Shop

def shop : Site := .of ⟨"sqlite", "shop", [("mode", "memory"), ("cache", "shared")], 2, 5000⟩

def items : Mapping := ⟨⟨"", "items"⟩, [.key "id" "id" .int64, .optional "name" "name" .varchar]⟩

def named (name : String) : Criteria := .allOf [.test "name" (.equal (.of (.varchar name))) true]

/-- A row without a name, a count where there is no table, a query that is not given back, and a
transaction. -/
def browsed : Activity :=
  let a := Activity.opened shop .idle []
  let a := a.after shop (.ask (.operation (.insert items [.of (.int64 1)])))
  let a := a.after shop (.ask (.operation (.count items (named "pen"))))
  let a := a.after shop (.ask (.operation (.compileQuery items (named "ink"))))
  a.after shop .begin

theorem reached_browsed : browsed.Reached shop := by
  have start : (Activity.opened shop .idle []).Reached shop := .opened .idle []
  have inserted := start.after (.ask (.operation (.insert items [.of (.int64 1)]))) trivial
  have counted := inserted.after (.ask (.operation (.count items (named "pen")))) trivial
  have compiled := counted.after (.ask (.operation (.compileQuery items (named "ink")))) trivial
  exact compiled.after .begin rfl

theorem compiled_regardless_browsed :
    ((Session.backend shop).compileQuery items (named "cup") ⟨browsed.session none, []⟩).1 =
        ((Session.backend shop).compileQuery items (named "cup")
          ⟨(Activity.opened shop .idle []).session none, []⟩).1 ∧
      ∀ q, (Session.leaseCommand shop q ⟨browsed.session browsed.running.head?, []⟩).1 =
        .ok ⟨q.text, q.params, some 1, q.written⟩ := by
  have first : browsed.running.head?.map (·.id) = some 1 := by decide +kernel
  have outside := compiled_regardless.2 shop browsed reached_browsed none []
  have inside := compiled_regardless.2 shop browsed reached_browsed browsed.running.head? []
  refine ⟨(outside.1 .idle [] []).1 items (named "cup"), fun q => ?_⟩
  rw [← first]
  exact inside.2 q

end Shop

end DataAccess
