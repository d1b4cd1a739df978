import DataAccess.Proofs.Sqlite.Requests

/-!
A storage in use, by any number of transactions and outside of all. Whatever is done, and whatever
the engine makes of it, queries and commands go back to their pools as they were made.
-/
namespace DataAccess.Sqlite

/-- What can be done with a storage, in a transaction or outside. -/
inductive Move where
  | ask (r : Request)
  | begin
  | commit
  | rollback
  | abandon

namespace Move

/-- Transactions are begun outside of all, and ended from inside. -/
def Fits : Move → Option Transaction → Prop
  | ask _, _ => True
  | begin, t => t = none
  | commit, t | rollback, t | abandon, t => t.isSome

/-- The move, whatever comes of it. -/
def run (site : Site) : Move → Effect Session Unit
  | ask r => discard (r.perform site)
  | begin => discard (Session.begin site).run
  | commit => discard (Session.commit site).run
  | rollback => discard (Session.rollback site).run
  | abandon => Session.abandon site

end Move

/-- A storage with its engine, and the transactions that are open. -/
structure Activity where
  storage : Sqlite
  engine : Engine
  running : List Transaction

namespace Activity

def session (a : Activity) (t : Option Transaction) : Session := ⟨a.storage, a.engine, t⟩

/-- A session has moved while other transactions were open. -/
def resume (others : List Transaction) (s : Session) : Activity :=
  ⟨s.storage, s.engine, s.transaction.toList ++ others⟩

/-- A storage that was opened just now. -/
def opened (site : Site) (e : Engine) (log : List LogRecord) : Activity :=
  resume [] (Session.connect site ⟨⟨.ofDescriptor site.descriptor, e, none⟩, log⟩).2.state

/-- Moves in any order. Between them others may use the engine. -/
inductive Reached (site : Site) : Activity → Prop where
  | opened (e : Engine) (log : List LogRecord) : Reached site (opened site e log)
  | move {a : Activity} (before : Reached site a) (m : Move) (t : Option Transaction)
      (others : List Transaction) (log : List LogRecord)
      (open_ : a.running.Perm (t.toList ++ others)) (fits : m.Fits t) :
      Reached site (resume others (m.run site ⟨a.session t, log⟩).2.state)
  | elsewhere {a : Activity} (before : Reached site a) (e : Engine)
      (later : a.engine.opened ≤ e.opened) : Reached site { a with engine := e }

/-- A move outside of all transactions. -/
def after (site : Site) (m : Move) (a : Activity) : Activity :=
  resume a.running (m.run site ⟨a.session none, []⟩).2.state

theorem Reached.after {site : Site} {a : Activity} (before : Reached site a) (m : Move)
    (fits : m.Fits none) : Reached site (a.after site m) :=
  before.move m none a.running [] (.refl _) fits

end Activity

namespace Session

variable {site : Site} {α β : Type}

/-- The queries and commands at hand are as new. -/
structure Tidied (s : Session) : Prop where
  queries : (queriesPlace.get s).Fresh Query.blank
  commands : (commandsPlace.get s).Fresh blankCommand

/-- Connections, the engine and the transaction are beside them. -/
theorem Tidied.beside {s : Session} (h : s.Tidied) {connections : Pool String Connection}
    {e : Engine} {t : Option Transaction} : Tidied ⟨{ s.storage with connections }, e, t⟩ :=
  ⟨h.queries, h.commands⟩

section

variable {P : Session → Prop}

/-- Facts that hold with any queries and commands as new, and whatever work on connections does. -/
theorem passes_kept {site' : Site} (tidied : ∀ s, P s → s.Tidied)
    (queries : ∀ s p, P s → p.Fresh Query.blank → P (queriesPlace.set p s))
    (commands : ∀ s p, P s → p.Fresh blankCommand → P (commandsPlace.set p s))
    (identity : site'.identity = site.identity)
    (execute : ∀ command, Action.Alike (Effect.Kept P)
      (withConnection site (site.execute command).run)
      (withConnection site' (site'.execute command).run))
    (query : ∀ {β : Type} command (receive : Receiver β) start, Action.Alike (Effect.Kept P)
      (withConnection site (site.query command receive start))
      (withConnection site' (site'.query command receive start))) :
    Passes site site' (Effect.Kept P) where
  identity := identity
  logs := Effect.logs_kept P
  queries := {
    same := fun _ => rfl
    fresh := fun _ _ ⟨same, h⟩ => ⟨(tidied _ h).queries, same ▸ (tidied _ h).queries⟩
    kept := fun _ hf _ _ ⟨same, h⟩ => ⟨same ▸ rfl, queries _ _ h (hf _ (tidied _ h).queries)⟩ }
  commands := {
    same := fun _ => rfl
    fresh := fun _ _ ⟨same, h⟩ => ⟨(tidied _ h).commands, same ▸ (tidied _ h).commands⟩
    kept := fun _ hf _ _ ⟨same, h⟩ => ⟨same ▸ rfl, commands _ _ h (hf _ (tidied _ h).commands)⟩ }
  transaction _ _ h := h.1 ▸ rfl
  execute := execute
  query := query

theorem control_keeps {k : Control}
    (works : Action.Keeps P (withConnection site (Link.batchBy site.control k).run)) :
    Action.Keeps P (control site k) :=
  (Action.Alike.effect (Effect.log_keeps _ _)).bind fun _ => works.bind fun r => .of r

end

theorem fleet_tidied (e : Effect Fleet α) : Effect.Keeps Tidied (Effect.within fleetPlace e) :=
  .of_leads fun _ _ h => h.beside

theorem engine_tidied (e : Effect Engine α) : Effect.Keeps Tidied (Effect.within enginePlace e) :=
  .of_leads fun _ _ h => h.beside

theorem modify_tidied (f : Option Transaction → Option Transaction) :
    Effect.Keeps Tidied (Effect.modify fun s => { s with transaction := f s.transaction }) :=
  .of_leads fun _ _ h => h.beside

theorem lease_tidied : Action.Keeps Tidied (lease site) :=
  fleet_tidied (Fleet.leaseBy site.identity site.connect).run

theorem giveBack_tidied (c : Connection) : Effect.Keeps Tidied (giveBack site c) := fleet_tidied _

theorem withConnection_tidied (work : Effect Link α) :
    Action.Keeps Tidied (withConnection site work) := by
  refine (Action.Alike.effect Effect.state_keeps).bind fun s => ?_
  cases s.transaction with
  | some t =>
    refine (Action.Alike.effect (engine_tidied _)).bind fun done => ?_
    exact (Action.Alike.effect (modify_tidied fun _ => some _)).bind fun _ => .pure _
  | none =>
    exact fleet_tidied (Fleet.withLeased site.identity site.connect (Link.resetBy site.control)
      work).run

theorem passes_tidied : Passes site site (Effect.Kept Tidied) :=
  passes_kept (fun _ h => h) (fun _ _ h hp => ⟨hp, h.commands⟩)
    (fun _ _ h hp => ⟨h.queries, hp⟩) rfl (fun _ => withConnection_tidied _)
    fun _ _ _ => withConnection_tidied _

theorem control_tidied (k : Control) : Action.Keeps Tidied (control site k) :=
  control_keeps (withConnection_tidied _)

theorem leave_eq (s : Session) (log : List LogRecord) : leave site ⟨s, log⟩ =
    (s.transaction.elim (pure ()) fun t => giveBack site t.connection)
      ⟨{ s with transaction := none }, log⟩ := by
  unfold leave
  cases h : s.transaction <;> simp [Effect.run_bind, Effect.state, Effect.setState, h]

theorem leave_tidied : Effect.Keeps Tidied (leave site) := by
  refine .of_leads fun s log h => ?_
  rw [leave_eq]
  have left : Tidied { s with transaction := none } := h.beside
  cases s.transaction with
  | none => exact left
  | some t => exact (giveBack_tidied t.connection).leads _ log left

theorem finish_tidied (k : Control) : Action.Keeps Tidied (finish site k) :=
  (control_tidied k).ensuring leave_tidied

theorem abandon_tidied : Effect.Keeps Tidied (abandon site) := by
  refine Effect.state_keeps.bind fun s => ?_
  cases s.transaction with
  | none => exact .pure ()
  | some t =>
    refine (Effect.log_keeps _ _).bind fun _ => ?_
    refine Effect.Alike.bind (control_tidied .rollback) fun r => ?_
    cases r with
    | ok _ => exact leave_tidied
    | error f => exact (Effect.log_keeps _ _).bind fun _ => leave_tidied

theorem enter_tidied (c : Connection) : Action.Keeps Tidied (enter site c) := by
  refine (Action.Alike.effect (engine_tidied _)).bind fun engine => ?_
  refine (Action.Alike.effect (engine_tidied _)).bind fun _ => ?_
  refine (Action.Alike.effect (modify_tidied fun _ => some _)).bind fun _ => ?_
  refine (Action.Alike.effect (control_tidied .begin)).bind fun r => ?_
  cases r with
  | ok _ =>
    refine (Action.Alike.effect (Effect.log_keeps _ _)).bind fun _ => ?_
    exact (Action.Alike.effect Effect.state_keeps).bind fun _ => .pure _
  | error f => exact (Action.Alike.effect abandon_tidied).bind fun _ => .of _

/-- Whatever is done, queries and commands come back as they were made. -/
theorem move_tidied (m : Move) : Effect.Leads Tidied (m.run site) fun _ => Tidied := by
  have done {α : Type} {e : Effect Session α} (h : Effect.Keeps Tidied e) :
      Effect.Leads Tidied (discard e) fun _ => Tidied := fun s log hs => h.leads s log hs
  cases m with
  | ask r => exact done (passes_tidied.perform r)
  | begin =>
    have begun : Action.Keeps Tidied (begin site) := lease_tidied.bind enter_tidied
    exact done begun
  | commit => exact done (finish_tidied .commit)
  | rollback => exact done (finish_tidied .rollback)
  | abandon => exact abandon_tidied.leads

end Session

namespace Activity

variable {site : Site} {a : Activity}

theorem opened_tidied (site : Site) (e : Engine) (log : List LogRecord) (t : Option Transaction) :
    ((opened site e log).session t).Tidied := by
  have new : (⟨.ofDescriptor site.descriptor, e, none⟩ : Session).Tidied :=
    ⟨Pool.fresh_new .., Pool.fresh_new ..⟩
  have connected : Action.Keeps Session.Tidied (Session.connect site) :=
    Session.lease_tidied.bind fun c => .effect (Session.giveBack_tidied c)
  exact (Effect.Alike.leads connected _ log new).beside

theorem Reached.tidied (reached : Reached site a) (t : Option Transaction) :
    (a.session t).Tidied := by
  induction reached generalizing t with
  | opened e log => exact opened_tidied site e log t
  | move before m t' others log open_ fits ih =>
    exact (Session.move_tidied m _ log (ih t')).beside
  | elsewhere before e later ih => exact (ih t).beside

end Activity

end DataAccess.Sqlite
