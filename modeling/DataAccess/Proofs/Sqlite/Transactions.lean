import DataAccess.Proofs.Sqlite.Links
import DataAccess.Proofs.Sqlite.Sessions

/-!
Any number of transactions on one storage. Each has a connection of its own, which nobody else gets
at before the transaction ends, and which goes back then, outside of all transactions.
-/
namespace DataAccess.Sqlite

/-- The move leaves a transaction. -/
def Move.Ends : Move → Prop
  | commit | rollback | abandon => True
  | ask _ | begin => False

/-- What a begin that failed leaves behind: it got no connection, or the one it got went back. -/
def Session.Unspent (site : Site) (s s' : Session) (log : List LogRecord) : Prop :=
  s'.transaction = none ∧
    match lease site ⟨s, log⟩ with
    | (.error _, _) => s'.storage.connections = s.storage.connections
    | (.ok c, env) => Fleet.GivenBack site.identity c.serial env.state.storage.connections
        s'.storage.connections

namespace Session

variable {site : Site} {n : Nat} {others : List Nat} {s : Session}

theorem Ended.transaction {pool : Pool String Connection} (ended : s.Ended site pool n others) :
    s.transaction = none := Option.map_eq_none_iff.mp ended.orderly.own

/-- A transaction is begun and holds a connection, or nothing is held that was not held before. -/
theorem begin_cases (reliable : site.Reliable) (orderly : s.Orderly site none others)
    (log : List LogRecord) : ∃ own, (begin site ⟨s, log⟩).2.state.Orderly site own others ∧
      ∀ f, (begin site ⟨s, log⟩).1 = .error f →
        s.Unspent site (begin site ⟨s, log⟩).2.state log := by
  rcases lease_offered reliable orderly log with ⟨f, env, leased, after, same⟩ |
    ⟨c, env, leased, offered, outside⟩
  · have failed : begin site ⟨s, log⟩ = (.error f, env) := Action.bind_of_error leased
    rw [failed]
    refine ⟨none, after, fun _ _ => ⟨Option.map_eq_none_iff.mp after.own, ?_⟩⟩
    rw [leased]
    exact same
  · have entered : begin site ⟨s, log⟩ = enter site c env := Action.bind_of_ok leased
    have leads : _ ∨ _ := enter_leads reliable c env.state env.log offered
    rw [entered]
    rcases leads with ⟨t, ok, after⟩ | ⟨f, failed, ended⟩
    · refine ⟨_, after, fun f failed => ?_⟩
      cases ok.symm.trans failed
    · refine ⟨none, ended.orderly, fun _ _ => ⟨ended.transaction, ?_⟩⟩
      rw [leased]
      exact ended.givenBack

/-- A transaction that ends gives its connection back, whether the engine agrees or not. -/
theorem ends_ended (reliable : site.Reliable) {m : Move} (ends : m.Ends)
    (orderly : s.Orderly site (some n) others) (log : List LogRecord) :
    (m.run site ⟨s, log⟩).2.state.Ended site s.storage.connections n others := by
  have holding : s.Holding site s.storage.connections n others := ⟨orderly, rfl⟩
  cases m with
  | commit => exact finish_ended reliable .commit s log holding
  | rollback => exact finish_ended reliable .rollback s log holding
  | abandon => exact abandon_ended reliable s log holding
  | ask r => exact ends.elim
  | begin => exact ends.elim

end Session

namespace Activity

variable {site : Site} {a : Activity}

/-- The connections of open transactions, by their numbers. -/
def held (a : Activity) : List Nat := a.running.map (·.connection.serial)

structure Orderly (site : Site) (a : Activity) : Prop where
  fleet : (⟨a.storage.connections, a.engine⟩ : Fleet).Orderly site.identity a.held
  tidied : (a.session none).Tidied
  sound : ∀ t ∈ a.running, t.connection.Sound site.identity

theorem Orderly.session (orderly : a.Orderly site) {t : Option Transaction}
    {others : List Transaction} (open_ : a.running.Perm (t.toList ++ others)) :
    (a.session t).Orderly site (t.map (·.connection.serial))
      (others.map (·.connection.serial)) where
  fleet := by
    have held := open_.map (fun t : Transaction => t.connection.serial)
    rw [List.map_append] at held
    have same : (t.map (·.connection.serial)).toList = t.toList.map (·.connection.serial) := by
      cases t <;> rfl
    rw [same]
    exact orderly.fleet.perm held
  tidied := orderly.tidied.beside
  own := rfl
  sound t' ht := by
    obtain rfl : t = some t' := ht
    exact orderly.sound t' (open_.mem_iff.mpr List.mem_cons_self)

theorem orderly_resume {own : Option Nat} {others : List Transaction} {s : Session}
    (orderly : s.Orderly site own (others.map (·.connection.serial)))
    (sound : ∀ t ∈ others, t.connection.Sound site.identity) :
    (resume others s).Orderly site where
  fleet := by
    have held : (resume others s).held = own.toList ++ others.map (·.connection.serial) := by
      rw [← orderly.own]
      unfold resume Activity.held
      cases s.transaction <;> rfl
    rw [held]
    exact orderly.fleet
  tidied := orderly.tidied.beside
  sound t ht := by
    rcases List.mem_append.mp ht with mine | other
    · exact orderly.sound t (Option.mem_toList.mp mine)
    · exact sound t other

theorem session_ended (reliable : site.Reliable) {m : Move} {t : Option Transaction}
    {others : List Nat} (fits : t.isSome) (ends : m.Ends)
    (orderly : (a.session t).Orderly site (t.map (·.connection.serial)) others)
    (log : List LogRecord) :
    (m.run site ⟨a.session t, log⟩).2.state.Orderly site none others := by
  obtain ⟨t, rfl⟩ := Option.isSome_iff_exists.mp fits
  exact (Session.ends_ended reliable ends orderly log).orderly

theorem opened_orderly (reliable : site.Reliable) (e : Engine) (log : List LogRecord) :
    (opened site e log).Orderly site := by
  have new : (⟨.ofDescriptor site.descriptor, e, none⟩ : Session).Orderly site none [] := by
    have fleet : (⟨.new "sqlite connection" site.descriptor.maxIdle, e⟩ : Fleet).Orderly
        site.identity [] :=
      ⟨rfl, Nat.zero_le _, fun _ h => absurd h List.not_mem_nil, .nil,
        fun _ h => absurd h List.not_mem_nil⟩
    exact ⟨fleet, ⟨Pool.fresh_new .., Pool.fresh_new ..⟩, rfl, fun _ h => nomatch h⟩
  have nobody : ∀ t ∈ ([] : List Transaction), t.connection.Sound site.identity := by simp
  rcases Session.lease_offered reliable new log with ⟨f, env, leased, after, -⟩ |
    ⟨c, env, leased, offered, outside⟩
  · have failed : Session.connect site ⟨⟨.ofDescriptor site.descriptor, e, none⟩, log⟩ =
      (.error f, env) := Action.bind_of_error leased
    unfold opened
    rw [failed]
    exact orderly_resume after nobody
  · have had : Session.connect site ⟨⟨.ofDescriptor site.descriptor, e, none⟩, log⟩ =
      Action.effect (Session.giveBack site c) env := Action.bind_of_ok leased
    have back := (Fleet.giveBackBy_orderly reliable offered.sound offered.fleet env.log).1
    unfold opened
    rw [had]
    have after : (Action.effect (Session.giveBack site c) env).2.state.Orderly site none [] :=
      ⟨back, offered.tidied.beside, congrArg (Option.map (·.connection.serial)) outside,
        fun t h => nomatch outside.symm.trans h⟩
    exact orderly_resume after nobody

/-- Whatever is done leaves things in order. -/
theorem Reached.orderly (reliable : site.Reliable) (reached : a.Reached site) : a.Orderly site := by
  induction reached with
  | opened e log => exact opened_orderly reliable e log
  | elsewhere before e later ih =>
    exact ⟨ih.fleet.later later, ih.tidied.beside, ih.sound⟩
  | @move a before m t others log open_ fits ih =>
    have session := ih.session open_
    -- The other transactions are not there for the session, but their connections are held.
    have sound (t' : Transaction) (ht : t' ∈ others) : t'.connection.Sound site.identity :=
      ih.sound t' (open_.mem_iff.mpr (List.mem_append_right _ ht))
    cases m with
    | ask r =>
      have kept := ((Session.passes_orderly reliable).perform r).leads _ log session
      exact orderly_resume kept sound
    | begin =>
      obtain rfl : t = none := fits
      obtain ⟨own, begun, -⟩ := Session.begin_cases reliable session log
      exact orderly_resume begun sound
    | commit =>
      exact orderly_resume (session_ended (m := .commit) reliable fits trivial session log) sound
    | rollback =>
      exact orderly_resume (session_ended (m := .rollback) reliable fits trivial session log) sound
    | abandon =>
      exact orderly_resume (session_ended (m := .abandon) reliable fits trivial session log) sound

/-- No connection is held twice, or held and idle; what is idle is outside of all transactions; what
engines do on connections that are held makes no difference outside of transactions; a transaction
stays on its connection until it ends, and then gives it back, as does one that could not begin. -/
theorem Reached.isolated (reliable : site.Reliable) (reached : a.Reached site) :
    (a.held ++ a.storage.connections.allIdle.map (·.serial)).Nodup ∧
    (∀ c ∈ a.storage.connections.allIdle, c.before = none) ∧
    (∀ site', site.AgreesBeside a.held site' → ∀ (r : Request) log,
      r.perform site' ⟨a.session none, log⟩ = r.perform site ⟨a.session none, log⟩) ∧
    (∀ t ∈ a.running, ∀ log,
      (∀ r : Request, let s := (r.perform site ⟨a.session (some t), log⟩).2.state
        s.transaction.map (·.connection.serial) = some t.connection.serial ∧
          s.storage.connections = a.storage.connections) ∧
      ∀ m : Move, m.Ends → let s := (m.run site ⟨a.session (some t), log⟩).2.state
        s.transaction = none ∧ Fleet.GivenBack site.identity t.connection.serial
          a.storage.connections s.storage.connections) ∧
    ∀ f log, (Session.begin site ⟨a.session none, log⟩).1 = .error f →
      (a.session none).Unspent site (Session.begin site ⟨a.session none, log⟩).2.state log := by
  have orderly := reached.orderly reliable
  have all : a.running.Perm ((none : Option Transaction).toList ++ a.running) := .refl _
  have outside := orderly.session all
  refine ⟨orderly.fleet.apart, fun c hc => (orderly.fleet.idle c hc).2,
    fun site' agrees r log => ?_, fun t ht log => ?_, fun f log failed => ?_⟩
  · have passes := Session.passes_beside reliable agrees
    let env : Env Session := ⟨a.session none, log⟩
    obtain ⟨result, rest, -⟩ := passes.perform r env env ⟨rfl, outside⟩
    exact (Prod.ext result rest).symm
  · obtain ⟨before, after, split⟩ := List.append_of_mem ht
    have open_ : a.running.Perm (t :: (before ++ after)) := split ▸ List.perm_middle
    have inside := orderly.session (t := some t) open_
    refine ⟨fun r => ?_, fun m ends => ?_⟩
    · have kept := ((Session.passes_holding reliable).perform r).leads _ log ⟨inside, rfl⟩
      exact ⟨kept.orderly.own, kept.pool⟩
    · have ended := Session.ends_ended reliable ends inside log
      exact ⟨ended.transaction, ended.givenBack⟩
  · obtain ⟨own, -, unspent⟩ := Session.begin_cases reliable outside log
    exact unspent f failed

section Till

def till : Site := .prompt ⟨"sqlite", "till", [("mode", "memory"), ("cache", "shared")], 2, 5000⟩

def sales : Mapping := ⟨⟨"", "sales"⟩, [.key "id" "id" .int64]⟩

/-- A move in the transaction that moved last. -/
def inside (site : Site) (m : Move) (a : Activity) : Activity :=
  match a.running with
  | t :: others => resume others (m.run site ⟨a.session (some t), []⟩).2.state
  | [] => a

theorem Reached.inside (before : Reached site a) {m : Move} (fits : ∀ t, m.Fits (some t)) :
    (a.inside site m).Reached site := by
  unfold Activity.inside
  cases h : a.running with
  | nil => exact before
  | cons t others => exact before.move m (some t) others [] (by simp [h]) (fits t)

/-- Two transactions; one makes a table, and others cannot get at it before that is committed. -/
def traded : Activity :=
  let a := opened till .idle []
  let a := (a.after till .begin).after till .begin
  let a := a.inside till (.ask (.operation (.createTable sales false)))
  a.after till (.ask (.operation (.insert sales [.of (.int64 1)])))

theorem reached_traded : traded.Reached till := by
  have start : (opened till .idle []).Reached till := .opened .idle []
  have begun := (start.after .begin rfl).after .begin rfl
  have created := begun.inside (m := .ask (.operation (.createTable sales false))) fun _ => trivial
  exact created.after (.ask (.operation (.insert sales [.of (.int64 1)]))) trivial

theorem isolated_traded : till.Reliable ∧ traded.Reached till ∧
    traded.held = [1, 0] ∧ traded.storage.connections.allIdle.map (·.serial) = [2] ∧
    (∀ c ∈ traded.storage.connections.allIdle, c.before = none) ∧
    (∀ site', till.AgreesBeside [1, 0] site' → ∀ (r : Request) log,
      r.perform site' ⟨traded.session none, log⟩ = r.perform till ⟨traded.session none, log⟩) ∧
    (∀ t ∈ traded.running.head?, ∀ log, Fleet.GivenBack till.identity t.connection.serial
      traded.storage.connections
      (Session.commit till ⟨traded.session (some t), log⟩).2.state.storage.connections) ∧
    ∃ f, (Session.begin till ⟨traded.session none, []⟩).1 = .error f ∧
      (traded.session none).Unspent till
        (Session.begin till ⟨traded.session none, []⟩).2.state [] := by
  have held : traded.held = [1, 0] := by decide +kernel
  have refused : (Session.begin till ⟨traded.session none, []⟩).1.isOk = false := by decide +kernel
  have reliable : till.Reliable := Site.prompt_reliable _
  obtain ⟨-, outside, beside, ends, unspent⟩ := reached_traded.isolated reliable
  refine ⟨reliable, reached_traded, held, by decide +kernel, outside, held ▸ beside,
    fun t ht log => ((ends t (List.mem_of_mem_head? ht) log).2 .commit trivial).2, ?_⟩
  cases h : (Session.begin till ⟨traded.session none, []⟩).1 with
  | ok t => simp [h, Except.isOk, Except.toBool] at refused
  | error f => exact ⟨f, rfl, unspent f [] h⟩

end Till

end Activity
end DataAccess.Sqlite
