import DataAccess.Proofs.Sqlite.Activity
import DataAccess.Proofs.Sqlite.Fleet

/-!
Sessions while transactions are open. The connection of a transaction is held until the transaction
ends, and goes back then; a session outside of all transactions never gets at one.
-/
namespace DataAccess.Sqlite.Session

variable {site site' : Site} {own : Option Nat} {n : Nat} {others : List Nat} {α : Type}
  {s : Session} {pool : Pool String Connection} {work work' : Effect Link α}

/-- A session whose own connection, if it has one, and those of others are held. -/
structure Orderly (site : Site) (own : Option Nat) (others : List Nat) (s : Session) : Prop where
  fleet : (fleetPlace.get s).Orderly site.identity (own.toList ++ others)
  tidied : s.Tidied
  own : s.transaction.map (·.connection.serial) = own
  sound : ∀ t, s.transaction = some t → t.connection.Sound site.identity

/-- A session in a transaction, with the connections that are in the pool meanwhile. -/
structure Holding (site : Site) (pool : Pool String Connection) (n : Nat) (others : List Nat)
    (s : Session) : Prop where
  orderly : s.Orderly site (some n) others
  pool : s.storage.connections = pool

/-- A session that has left its transaction. -/
structure Ended (site : Site) (pool : Pool String Connection) (n : Nat) (others : List Nat)
    (s : Session) : Prop where
  orderly : s.Orderly site none others
  givenBack : Fleet.GivenBack site.identity n pool s.storage.connections

theorem orderly_queries (s : Session) (p : QueryPool) (h : s.Orderly site own others)
    (hp : p.Fresh Query.blank) : (queriesPlace.set p s).Orderly site own others :=
  ⟨h.fleet, ⟨hp, h.tidied.commands⟩, h.own, h.sound⟩

theorem orderly_commands (s : Session) (p : Pool (String × String) Command)
    (h : s.Orderly site own others) (hp : p.Fresh blankCommand) :
    (commandsPlace.set p s).Orderly site own others :=
  ⟨h.fleet, ⟨h.tidied.queries, hp⟩, h.own, h.sound⟩

theorem withConnection_inside {t : Transaction} (inside : s.transaction = some t)
    (work : Effect Link α) (log : List LogRecord) :
    let done := work ⟨(s.engine, t.connection), log⟩
    withConnection site work ⟨s, log⟩ = (.ok done.1, ⟨{ s with
      engine := done.2.state.1
      transaction := some { t with connection := done.2.state.2 } }, done.2.log⟩) := by
  rw [withConnection, Action.bind_effect, Effect.run_state]
  simp only [inside]
  rfl

theorem withConnection_outside (outside : s.transaction = none) (work : Effect Link α)
    (log : List LogRecord) :
    withConnection site work ⟨s, log⟩ = Action.within fleetPlace
      (Fleet.withLeased site.identity site.connect (Link.resetBy site.control) work) ⟨s, log⟩ := by
  rw [withConnection, Action.bind_effect, Effect.run_state]
  simp only [outside]

/-- Work in a transaction leaves the pool alone. -/
theorem withConnection_holding (steady : Link.Steady work) :
    Action.Leads (Holding site pool n others) (withConnection site work) fun _ =>
      Holding site pool n others := by
  intro s log ⟨orderly, hpool⟩
  obtain ⟨t, ht, hn⟩ := Option.map_eq_some_iff.mp orderly.own
  have sound := orderly.sound t ht
  have onward := steady (s.engine, t.connection) log sound.unpoisoned
  change Holding site pool n others (withConnection site work ⟨s, log⟩).2.state
  rw [withConnection_inside ht]
  refine ⟨⟨orderly.fleet.later onward.opened, orderly.tidied.beside, ?_, ?_⟩, hpool⟩
  · exact congrArg some (onward.serial.trans hn)
  · intro t' ht'
    obtain rfl := Option.some.inj ht'
    exact ⟨onward.identity.trans sound.identity, onward.unpoisoned⟩

theorem withConnection_orderly (reliable : site.Reliable) (steady : Link.Steady work) :
    Action.Leads (Orderly site own others) (withConnection site work) fun _ =>
      Orderly site own others := by
  intro s log orderly
  cases own with
  | some n => exact (withConnection_holding steady s log ⟨orderly, rfl⟩).orderly
  | none =>
    have outside : s.transaction = none := Option.map_eq_none_iff.mp orderly.own
    change Orderly site none others (withConnection site work ⟨s, log⟩).2.state
    rw [withConnection_outside outside]
    have fleet := Fleet.withLeased_orderly reliable steady orderly.fleet log
    exact ⟨fleet, orderly.tidied.beside, orderly.own, orderly.sound⟩

theorem withConnection_same (reliable : site.Reliable) (agrees : site.AgreesBeside others site')
    (steady : Link.Steady work)
    (same : ∀ (l : Link) log, l.2.serial ∉ others → work' ⟨l, log⟩ = work ⟨l, log⟩)
    (orderly : s.Orderly site none others) (log : List LogRecord) :
    withConnection site' work' ⟨s, log⟩ = withConnection site work ⟨s, log⟩ := by
  have outside : s.transaction = none := Option.map_eq_none_iff.mp orderly.own
  rw [withConnection_outside outside, withConnection_outside outside]
  exact congrArg
    (fun x : Outcome α × Env Fleet => (x.1, (⟨fleetPlace.set x.2.state s, x.2.log⟩ : Env Session)))
    (Fleet.withLeased_same reliable agrees steady same orderly.fleet log)

/-- What an engine does on connections that are held makes no difference to a request outside of all
transactions. -/
theorem passes_beside (reliable : site.Reliable) (agrees : site.AgreesBeside others site') :
    Passes site site' (Effect.Kept (Orderly site none others)) :=
  passes_kept (fun _ h => h.tidied) orderly_queries orderly_commands
    (congrArg Descriptor.identity agrees.descriptor)
    (fun command => Effect.Alike.of_same
      (fun _ log h => withConnection_same reliable agrees (reliable.execute command)
        (agrees.execute command) h log)
      (withConnection_orderly reliable (reliable.execute command)))
    fun command receive start => Effect.Alike.of_same
      (fun _ log h => withConnection_same reliable agrees (reliable.query command receive start)
        (agrees.query command receive start) h log)
      (withConnection_orderly reliable (reliable.query command receive start))

theorem passes_orderly (reliable : site.Reliable) :
    Passes site site (Effect.Kept (Orderly site own others)) :=
  passes_kept (fun _ h => h.tidied) orderly_queries orderly_commands rfl
    (fun command => .of_leads (withConnection_orderly reliable (reliable.execute command)))
    fun command receive start =>
      .of_leads (withConnection_orderly reliable (reliable.query command receive start))

/-- Requests in a transaction leave it on its connection. -/
theorem passes_holding (reliable : site.Reliable) :
    Passes site site (Effect.Kept (Holding site pool n others)) :=
  passes_kept (fun _ h => h.orderly.tidied)
    (fun s p h hp => ⟨orderly_queries s p h.orderly hp, h.pool⟩)
    (fun s p h hp => ⟨orderly_commands s p h.orderly hp, h.pool⟩) rfl
    (fun command => .of_leads (withConnection_holding (reliable.execute command)))
    fun command receive start =>
      .of_leads (withConnection_holding (reliable.query command receive start))

theorem control_holding (reliable : site.Reliable) (k : Control) :
    Action.Keeps (Holding site pool n others) (control site k) :=
  control_keeps (.of_leads (withConnection_holding (reliable.control _ k)))

/-- On leaving its transaction a session gives the connection back. -/
theorem leave_ended (reliable : site.Reliable) :
    Effect.Leads (Holding site pool n others) (leave site) fun _ => Ended site pool n others := by
  intro s log ⟨orderly, hpool⟩
  obtain ⟨t, ht, hn⟩ := Option.map_eq_some_iff.mp orderly.own
  rw [leave_eq, ht]
  have fleet : (fleetPlace.get s).Orderly site.identity (t.connection.serial :: others) :=
    hn ▸ orderly.fleet
  obtain ⟨back, given⟩ := Fleet.giveBackBy_orderly reliable (orderly.sound t ht) fleet log
  have nobody (t : Transaction) (h : (none : Option Transaction) = some t) :
    t.connection.Sound site.identity := nomatch h
  rw [hn] at given
  exact ⟨⟨back, orderly.tidied.beside, rfl, nobody⟩, hpool ▸ given⟩

/-- Whether the engine agrees or not. -/
theorem finish_ended (reliable : site.Reliable) (k : Control) :
    Action.Leads (Holding site pool n others) (finish site k) fun _ =>
      Ended site pool n others :=
  Action.Leads.ensuring (control_holding reliable k).leads fun _ => leave_ended reliable

theorem abandon_ended (reliable : site.Reliable) :
    Effect.Leads (Holding site pool n others) (abandon site) fun _ =>
      Ended site pool n others := by
  refine Effect.Leads.state.bind fun s => ?_
  cases ht : s.transaction with
  | none =>
    intro s' log ⟨same, holding⟩
    obtain rfl := same
    have own := holding.orderly.own
    simp [ht] at own
  | some t =>
    refine Effect.Leads.mono ?_ (fun _ h => h.2) fun _ _ h => h
    refine Effect.Leads.bind (Effect.Leads.log _ _) fun _ =>
      Effect.Leads.bind (control_holding reliable .rollback).leads fun r => ?_
    cases r with
    | ok _ => exact leave_ended reliable
    | error f => exact Effect.Leads.bind (Effect.Leads.log _ _) fun _ => leave_ended reliable

/-- A session outside of all transactions that has leased a connection. -/
structure Offered (site : Site) (pool : Pool String Connection) (c : Connection)
    (others : List Nat) (s : Session) : Prop where
  fleet : (fleetPlace.get s).Orderly site.identity (c.serial :: others)
  tidied : s.Tidied
  sound : c.Sound site.identity
  pool : s.storage.connections = pool

/-- A connection is had, or all is as it was but for the engine. -/
theorem lease_offered (reliable : site.Reliable) (orderly : s.Orderly site none others)
    (log : List LogRecord) :
    (∃ f env, lease site ⟨s, log⟩ = (.error f, env) ∧ env.state.Orderly site none others ∧
        env.state.storage.connections = s.storage.connections) ∨
      ∃ c env, lease site ⟨s, log⟩ = (.ok c, env) ∧
        env.state.Offered site env.state.storage.connections c others ∧
        env.state.transaction = none := by
  have leased := Fleet.leaseBy_leased reliable orderly.fleet log
  have run : lease site ⟨s, log⟩ =
      let done := Fleet.leaseBy site.identity site.connect ⟨fleetPlace.get s, log⟩
      (done.1, ⟨fleetPlace.set done.2.state s, done.2.log⟩) := rfl
  have outside : s.transaction = none := Option.map_eq_none_iff.mp orderly.own
  rw [run]
  generalize Fleet.leaseBy site.identity site.connect ⟨fleetPlace.get s, log⟩ = done at leased
  cases leased with
  | failed f e log' later =>
    have fleet := orderly.fleet.later later
    exact Or.inl ⟨f, _, rfl,
      ⟨fleet, orderly.tidied.beside, orderly.own, orderly.sound⟩, rfl⟩
  | had c fleet log' sound closed orderly' limit room =>
    exact Or.inr ⟨c, _, rfl, ⟨orderly', orderly.tidied.beside, sound, rfl⟩, outside⟩

/-- A transaction that is begun holds its connection; if that fails the connection goes back. -/
theorem enter_leads (reliable : site.Reliable) (c : Connection) :
    Action.Leads (Offered site pool c others) (enter site c) fun r s =>
      (∃ t, r = .ok t ∧ s.Orderly site (some c.serial) others) ∨
        ∃ f, r = .error f ∧ s.Ended site pool c.serial others := by
  have read : Action.Leads (Offered site pool c others) (Action.effect (Effect.read enginePlace))
      fun r s => r = .ok s.engine ∧ s.Offered site pool c others := fun s log h => ⟨rfl, h⟩
  refine read.bind (fun engine => ?_) (by simp)
  have counted : Action.Leads
      (fun s => Except.ok engine = (.ok s.engine : Outcome Engine) ∧ s.Offered site pool c others)
      (Action.effect (Effect.write enginePlace { engine with begun := engine.begun + 1 }))
      fun r s => r = .ok () ∧ s.Offered site pool c others := by
    intro s log ⟨same, h⟩
    obtain rfl := Except.ok.inj same
    exact ⟨rfl, h.fleet.later (Nat.le_refl _), h.tidied.beside, h.sound, h.pool⟩
  refine counted.bind (fun _ => ?_) (by simp)
  let t : Transaction := ⟨engine.begun + 1, c⟩
  have entered : Action.Leads
      (fun s => Except.ok () = (.ok () : Outcome Unit) ∧ s.Offered site pool c others)
      (Action.effect (Effect.modify fun s : Session => { s with transaction := some t }))
      fun r s => r = .ok () ∧ s.Holding site pool c.serial others := by
    intro s log ⟨_, h⟩
    have sound (t' : Transaction) (same : some t = some t') : t'.connection.Sound site.identity :=
      Option.some.inj same ▸ h.sound
    exact ⟨rfl, ⟨h.fleet, h.tidied.beside, rfl, sound⟩, h.pool⟩
  refine entered.bind (fun _ => ?_) (by simp)
  -- From here the session is in a transaction, which has to be left if it cannot be opened.
  have control : Action.Keeps (Holding site pool c.serial others) (Session.control site .begin) :=
    control_holding reliable .begin
  refine Action.Leads.mono ?_ (fun _ h => h.2) fun _ _ h => h
  refine (Action.Leads.effect control.leads).bind (fun r => ?_) (by simp)
  cases r with
  | ok _ => exact fun s log ⟨_, _, h⟩ => Or.inl ⟨_, rfl, h.orderly⟩
  | error f =>
    have abandoned : Effect.Leads (Holding site pool c.serial others) (abandon site) fun _ =>
      Ended site pool c.serial others := abandon_ended reliable
    refine Action.Leads.mono ?_ (fun _ h => h.choose_spec.2) fun _ _ h => h
    refine (Action.Leads.effect abandoned).bind (fun _ => ?_) (by simp)
    exact fun s log ⟨_, _, h⟩ => Or.inr ⟨f, rfl, h⟩

end DataAccess.Sqlite.Session
