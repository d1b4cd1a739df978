import DataAccess.Proofs.Sqlite.Edits

/-!
What sessions report of updates and deletions. Two histories that leave a connection the same tables
to see differ in the key that is reported and in nothing else.
-/
namespace DataAccess

open Outcome

namespace Effect

variable {σ τ α : Type}

/-- Sides that differ in their logs at most. -/
def SameState (env env' : Env σ) : Prop := env.state = env'.state

theorem within_sameState (p : Place σ τ) {e e' : Effect τ α} (h : Alike SameState e e') :
    Alike SameState (within p e) (within p e') := by
  intro env env' same
  have inner := h ⟨p.get env.state, env.log⟩ ⟨p.get env'.state, env'.log⟩ (congrArg p.get same)
  refine ⟨inner.1, ?_⟩
  change p.set _ _ = p.set _ _
  rw [inner.2, same]

end Effect

theorem Pool.lease_sameState {κ σ τ : Type} [DecidableEq κ] (pool : Place σ (Pool κ τ)) (key : κ)
    {create : Action σ τ} (creates : Action.Alike Effect.SameState create create) :
    Action.Alike Effect.SameState (lease pool key create) (lease pool key create) := by
  have state {σ : Type} : Effect.Alike Effect.SameState (Effect.state (σ := σ)) Effect.state :=
    fun _ _ h => ⟨h, h⟩
  have write (p : Pool κ τ) : Effect.Alike Effect.SameState (Effect.setState p)
      (Effect.setState p) := fun _ _ _ => ⟨rfl, rfl⟩
  have modify (f : Pool κ τ → Pool κ τ) : Effect.Alike Effect.SameState (Effect.modify f)
      (Effect.modify f) := fun _ _ h => ⟨rfl, congrArg f h⟩
  refine (Action.Alike.effect (Effect.within_sameState pool state)).bind fun p => ?_
  split
  · exact .of _
  · split
    · exact (Action.Alike.effect (Effect.within_sameState pool (write _))).bind fun _ => .pure _
    · refine creates.bind fun object => ?_
      exact (Action.Alike.effect (Effect.within_sameState pool (modify _))).bind fun _ => .pure _

namespace Sqlite

/-- The engine opens connections and runs statements as databases in memory do. -/
structure Site.Genuine (site : Site) : Prop where
  connect : site.connect = Connection.connect site.descriptor
  execute : site.execute = Link.execute

theorem Site.genuine_of (d : Descriptor) : (Site.of d).Genuine := ⟨rfl, rfl⟩
theorem Site.genuine_prompt (d : Descriptor) : (Site.prompt d).Genuine := ⟨rfl, rfl⟩

variable {site : Site}

theorem Connection.connect_sameState (d : Descriptor) :
    Action.Alike Effect.SameState (connect d) (connect d) := by
  intro ⟨e, log⟩ ⟨e', log'⟩ same
  obtain rfl : e = e' := same
  unfold connect
  cases unknownOption? d with
  | some r => exact ⟨rfl, rfl⟩
  | none =>
    cases isReachable d with
    | false => exact ⟨rfl, rfl⟩
    | true => exact ⟨rfl, rfl⟩

theorem Fleet.leaseBy_sameState (genuine : site.Genuine) :
    Action.Alike Effect.SameState (leaseBy site.identity site.connect)
      (leaseBy site.identity site.connect) := by
  have connect : Action.Alike Effect.SameState (Action.within enginePlace site.connect)
      (Action.within enginePlace site.connect) := by
    rw [genuine.connect]
    exact Effect.within_sameState enginePlace (Connection.connect_sameState _)
  exact Pool.lease_sameState poolPlace site.identity connect

namespace Session

variable {s s' : Session} {l : Link} {α : Type} {others : List Nat}

/-- The connection that work is done on next, with the engine as it is found then. -/
def upcoming (site : Site) (s : Session) : Outcome Link :=
  (withConnection site Effect.state ⟨s, []⟩).1

theorem upcoming_inside {t : Transaction} (inside : s.transaction = some t) :
    s.upcoming site = .ok (s.engine, t.connection) :=
  congrArg Prod.fst (withConnection_inside inside Effect.state [])

theorem upcoming_outside (outside : s.transaction = none) : s.upcoming site =
    (Fleet.withLeased site.identity site.connect (Link.resetBy site.control) Effect.state
      ⟨fleetPlace.get s, []⟩).1 :=
  congrArg Prod.fst (withConnection_outside outside Effect.state [])

/-- Queries and commands make no difference to it. -/
theorem upcoming_congr (transaction : s'.transaction = s.transaction)
    (fleet : fleetPlace.get s' = fleetPlace.get s) : s'.upcoming site = s.upcoming site := by
  cases h : s.transaction with
  | some t =>
    rw [upcoming_inside h, upcoming_inside (transaction.trans h)]
    exact congrArg (fun f : Fleet => (.ok (f.engine, t.connection) : Outcome Link)) fleet
  | none => rw [upcoming_outside h, upcoming_outside (transaction.trans h), fleet]

theorem leaseBy_of_upcoming (genuine : site.Genuine) (outside : s.transaction = none)
    (next : s.upcoming site = .ok l) (log : List LogRecord) : ∃ f log',
      Fleet.leaseBy site.identity site.connect ⟨fleetPlace.get s, log⟩ = (.ok l.2, ⟨f, log'⟩) ∧
        f.engine = l.1 := by
  rw [upcoming_outside outside] at next
  let lease (log : List LogRecord) :=
    Fleet.leaseBy site.identity site.connect ⟨fleetPlace.get s, log⟩
  have silent : (lease []).1 = (lease log).1 ∧ (lease []).2.state = (lease log).2.state :=
    Fleet.leaseBy_sameState genuine ⟨fleetPlace.get s, []⟩ ⟨fleetPlace.get s, log⟩ rfl
  rcases leased : lease [] with ⟨f | c, ⟨fleet, log₀⟩⟩
  · have failed : Fleet.withLeased site.identity site.connect (Link.resetBy site.control)
      (Effect.state : Effect Link Link) ⟨fleetPlace.get s, []⟩ = (.error f, ⟨fleet, log₀⟩) :=
      Action.bind_of_error leased
    rw [failed] at next
    cases next
  · rw [Fleet.withLeased_of_leased leased] at next
    obtain rfl : (fleet.engine, c) = l := Except.ok.inj next
    rcases leased' : lease log with ⟨r, ⟨fleet', log'⟩⟩
    rw [leased, leased'] at silent
    obtain ⟨rfl, rfl⟩ := silent
    exact ⟨fleet, log', leased', rfl⟩

/-- Work after work is done on one connection: that of the transaction, or one that goes back to a
pool which keeps connections, and comes out of it again. -/
def Lasting (site : Site) (s : Session) : Prop := s.transaction = none →
  site.Reliable ∧ 0 < s.storage.connections.maxIdle ∧ ∃ others, s.Orderly site none others

/-- Work is done on the connection that was to be expected. It is expected again where connections
last and the work opens no transaction. -/
theorem withConnection_of_upcoming (genuine : site.Genuine) (next : s.upcoming site = .ok l)
    (work : Effect Link α) (log : List LogRecord) : ∃ log',
      (withConnection site work ⟨s, log⟩).1 = .ok (work ⟨l, log'⟩).1 ∧
      (s.Lasting site → Link.Steady work → (work ⟨l, log'⟩).2.state.2.before = l.2.before →
        (withConnection site work ⟨s, log⟩).2.state.upcoming site =
            .ok (work ⟨l, log'⟩).2.state ∧
          (withConnection site work ⟨s, log⟩).2.state.Lasting site) := by
  cases h : s.transaction with
  | some t =>
    rw [upcoming_inside h] at next
    obtain rfl := Except.ok.inj next
    rw [withConnection_inside h]
    refine ⟨log, rfl, fun _ _ _ => ⟨?_, nofun⟩⟩
    generalize work ⟨(s.engine, t.connection), log⟩ = done
    exact upcoming_inside (s := ⟨s.storage, done.2.state.1, some ⟨t.id, done.2.state.2⟩⟩) rfl
  | none =>
    obtain ⟨e, c⟩ := l
    obtain ⟨f, log', leased, rfl⟩ := leaseBy_of_upcoming genuine h next log
    have ran : Fleet.withLeased site.identity site.connect (Link.resetBy site.control) work
        ⟨fleetPlace.get s, log⟩ = _ := Fleet.withLeased_of_leased leased
    refine ⟨log', ?_, fun lasting steady closed => ?_⟩
    · rw [withConnection_outside h]
      exact congrArg Prod.fst ran
    · obtain ⟨reliable, positive, others, orderly⟩ := lasting h
      have after : Orderly site none others (withConnection site work ⟨s, log⟩).2.state :=
        withConnection_orderly reliable steady s log orderly
      obtain ⟨⟨next, engine', leased'⟩, limit⟩ :=
        Fleet.withLeased_again reliable steady orderly.fleet positive leased closed
      rw [withConnection_outside h] at after ⊢
      refine ⟨?_, fun _ => ⟨reliable, limit.symm ▸ positive, others, after⟩⟩
      refine Eq.trans (upcoming_outside (by exact h)) ?_
      refine (congrArg Prod.fst (Fleet.withLeased_of_leased leased')).trans ?_
      exact congrArg (fun e => Except.ok (e, _)) engine'

/-- Facts that hold with any queries and commands as new. -/
structure Beside (P : Session → Prop) : Prop where
  tidied : ∀ s, P s → s.Tidied
  queries : ∀ s p, P s → p.Fresh Query.blank → P (queriesPlace.set p s)
  commands : ∀ s p, P s → p.Fresh blankCommand → P (commandsPlace.set p s)

section

variable {P : Session → Prop} {Q : Outcome Affected → Session → Prop} {st : Statement}

theorem Beside.release_query (beside : Beside P) (q : Query) :
    Effect.Leads P (QueryPool.release queriesPlace q) fun _ => P := by
  intro s log hs
  have fresh := (beside.tidied s hs).queries
  have released : QueryPool.release queriesPlace q ⟨s, log⟩ = _ :=
    Pool.release_eq fresh.sound rfl q.shape (Query.blank q.shape) log
  rw [released]
  exact beside.queries s _ hs (fresh.giveBack q.shape)

theorem Beside.release_command (beside : Beside P) (key : String × String) :
    Effect.Leads P (Pool.release commandsPlace key (blankCommand key)) fun _ => P := by
  intro s log hs
  have fresh := (beside.tidied s hs).commands
  rw [Pool.release_eq fresh.sound rfl key (blankCommand key) log]
  exact beside.commands s _ hs (fresh.giveBack key)

theorem Beside.withCommand_leads (before : Beside P) (after : ∀ r, Beside (Q r)) {q : Query}
    {work : Command → Action Session Affected}
    (works : ∀ command, command.written = q.written → Action.Leads P (work command) Q) :
    Action.Leads P (withCommand site q work) Q := by
  intro s log hs
  have fresh := (before.tidied s hs).commands
  have leased := leaseCommand_eq site fresh q log
  have ran : withCommand site q work ⟨s, log⟩ = _ := Action.bind_of_ok leased
  rw [ExceptT.run, ran]
  refine (Action.Leads.ensuring (works _ rfl) fun r => ?_) _ log
    (before.commands s _ hs (fresh.leased _))
  exact (after r).release_command (q.text, site.identity)

/-- A statement that cannot be written goes back as it was had. -/
theorem Tidied.compile_error {s : Session} (tidied : s.Tidied) {f : Failure}
    (pieces : st.pieces .sqlite = .error f) (log : List LogRecord) :
    QueryPool.compile queriesPlace .sqlite .statement st ⟨s, log⟩ = (.error f,
      (QueryPool.release queriesPlace (Query.blank .statement)
        ⟨queriesPlace.set (s.storage.queries.leased .statement) s, log⟩).2) := by
  have leased : Pool.lease queriesPlace .statement (pure (Query.blank .statement)) ⟨s, log⟩ = _ :=
    tidied.queries.lease_eq rfl .statement log
  have refused : (Query.blank .statement).compile .sqlite st = .error f := by
    simp [Query.compile, pieces]
  refine (Action.bind_of_ok leased).trans ?_
  rw [refused]
  rfl

theorem Tidied.compile_ok {s : Session} (tidied : s.Tidied) {ps : List Sql.Piece}
    (pieces : st.pieces .sqlite = .ok ps) (log : List LogRecord) :
    ∃ q : Query, q.written = some ⟨.sqlite, st⟩ ∧
      QueryPool.compile queriesPlace .sqlite .statement st ⟨s, log⟩ =
        (.ok q, ⟨queriesPlace.set (s.storage.queries.leased .statement) s, log⟩) := by
  have leased : Pool.lease queriesPlace .statement (pure (Query.blank .statement)) ⟨s, log⟩ = _ :=
    tidied.queries.lease_eq rfl .statement log
  obtain ⟨q, written, made⟩ : ∃ q : Query, q.written = some ⟨.sqlite, st⟩ ∧
      (Query.blank .statement).compile .sqlite st = .ok q :=
    ⟨_, rfl, by simp [Query.compile, pieces]; rfl⟩
  refine ⟨q, written, (Action.bind_of_ok leased).trans ?_⟩
  rw [made]
  rfl

/-- A statement does what comes of running it on a connection, once it is written. -/
theorem Beside.statement_leads (before : Beside P) (after : ∀ r, Beside (Q r))
    (works : (∃ ps, st.pieces .sqlite = .ok ps) → ∀ command : Command,
      command.written = some ⟨.sqlite, st⟩ →
      Action.Leads P (linked site (site.execute command)) Q)
    (unwritten : (¬∃ ps, st.pieces .sqlite = .ok ps) → ∀ f s, P s → Q (.error f) s) :
    Action.Leads P (statement site st) Q := by
  intro s log hs
  have tidied := before.tidied s hs
  have had := before.queries s _ hs (tidied.queries.leased .statement)
  cases pieces : st.pieces .sqlite with
  | error f =>
    have failed : statement site st ⟨s, log⟩ = _ :=
      Action.bind_of_error (tidied.compile_error pieces log)
    rw [ExceptT.run, failed]
    exact unwritten (by simp [pieces]) f _ (before.release_query _ _ log had)
  | ok ps =>
    obtain ⟨q, written, compiled⟩ := tidied.compile_ok pieces log
    have ran : statement site st ⟨s, log⟩ = _ := Action.bind_of_ok compiled
    rw [ExceptT.run, ran]
    refine (Action.Leads.ensuring ?_ fun r => (after r).release_query q) _ log had
    refine (Action.Leads.effect (Effect.Leads.log .debug q.display)).bind (fun _ => ?_) (by simp)
    have commanded : Action.Leads P
        (withCommand site q fun command => linked site (site.execute command)) Q :=
      before.withCommand_leads after fun command same =>
        works ⟨ps, pieces⟩ command (same.trans written)
    exact commanded.mono (fun _ h => h.choose_spec.2) fun _ _ h => h

end

end Session

namespace Catalog

variable {c after after' : Catalog} {st : Statement} {sts : List Statement} {n n' : Nat}
  {ns ns' : List Nat}

/-- What an edit makes of the tables that are seen, and how many rows it changes. -/
structure Edits (c : Catalog) (st : Statement) (n : Nat) (after : Catalog) : Prop where
  edit : st.isEdit
  written : ∃ ps, st.pieces .sqlite = .ok ps
  answered : c.answer ⟨.sqlite, st⟩ = .ok (.changed n none, after)

/-- Edits one after the other. -/
inductive EditsAll : Catalog → List Statement → List Nat → Catalog → Prop
  | nil (c : Catalog) : EditsAll c [] [] c
  | cons {c after last : Catalog} {st : Statement} {sts : List Statement} {n : Nat} {ns : List Nat}
      (first : c.Edits st n after) (rest : EditsAll after sts ns last) :
      EditsAll c (st :: sts) (n :: ns) last

theorem Edits.unique (h : c.Edits st n after) (h' : c.Edits st n' after') :
    n = n' ∧ after = after' := by
  cases h.answered.symm.trans h'.answered
  exact ⟨rfl, rfl⟩

theorem Edits.alone (h : c.Edits st n after) : c.EditsAll [st] [n] after := .cons h (.nil _)

/-- What is seen and what is done determine how many rows are changed. -/
theorem EditsAll.unique (h : c.EditsAll sts ns after) (h' : c.EditsAll sts ns' after') :
    ns = ns' := by
  induction h generalizing ns' with
  | nil c =>
    cases h'
    rfl
  | cons first _ ih =>
    cases h' with
    | cons first' rest' =>
      obtain ⟨rfl, rfl⟩ := first.unique first'
      rw [ih rest']

end Catalog

namespace Session

variable {stays : Prop} {l : Link} {st : Statement}

/-- A session that is about to work on a connection, and goes on working on it if it is to stay. -/
structure Ready (site : Site) (stays : Prop) (l : Link) (s : Session) : Prop where
  tidied : s.Tidied
  upcoming : s.upcoming site = .ok l
  lasting : stays → s.Lasting site

/-- An edit reports how many rows it changed, and the key that the connection inserted last; then
the session goes on. Where nobody else holds anything it fails only if there is no answer to it. -/
structure Reported (site : Site) (stays : Prop) (l : Link) (st : Statement) (r : Outcome Affected)
    (s : Session) : Prop where
  tidied : s.Tidied
  done : ∀ report, r = .ok report → ∃ n l', l.catalog.Edits st n l'.catalog ∧
    report = ⟨some n, l.2.insertedKey⟩ ∧ l'.2.insertedKey = l.2.insertedKey ∧
      (l.Free → l'.Free) ∧ (stays → Ready site stays l' s)
  failed : ∀ f, r = .error f → l.Free → ∀ n after, ¬l.catalog.Edits st n after

theorem Lasting.imp {s s' : Session} (h : s.Lasting site)
    (transaction : s'.transaction = s.transaction)
    (limit : s'.storage.connections.maxIdle = s.storage.connections.maxIdle)
    (kept : ∀ others, s.Orderly site none others → s'.Orderly site none others) :
    s'.Lasting site := fun outside => by
  obtain ⟨reliable, positive, others, orderly⟩ := h (transaction ▸ outside)
  exact ⟨reliable, limit ▸ positive, others, kept others orderly⟩

theorem beside_ready : Beside (Ready site stays l) where
  tidied _ h := h.tidied
  queries s p h fresh := {
    tidied := ⟨fresh, h.tidied.commands⟩
    upcoming := Eq.trans (upcoming_congr (by rfl) (by rfl)) h.upcoming
    lasting := fun hs => (h.lasting hs).imp rfl rfl fun _ orderly =>
      orderly_queries s p orderly fresh }
  commands s p h fresh := {
    tidied := ⟨h.tidied.queries, fresh⟩
    upcoming := Eq.trans (upcoming_congr (by rfl) (by rfl)) h.upcoming
    lasting := fun hs => (h.lasting hs).imp rfl rfl fun _ orderly =>
      orderly_commands s p orderly fresh }

/-- What is reported stands as long as the session is ready for what it was ready for. -/
theorem Reported.imp {r : Outcome Affected} {s s' : Session} (h : s.Reported site stays l st r)
    (tidied : s'.Tidied) (ready : ∀ l', s.Ready site stays l' → s'.Ready site stays l') :
    s'.Reported site stays l st r where
  tidied := tidied
  done report hr := by
    obtain ⟨n, l', edits, reported, inserted, free, next⟩ := h.done report hr
    exact ⟨n, l', edits, reported, inserted, free, fun hs => ready l' (next hs)⟩
  failed := h.failed

theorem beside_reported (r : Outcome Affected) : Beside (Reported site stays l st r) where
  tidied _ h := h.tidied
  queries s p h fresh := h.imp ⟨fresh, h.tidied.commands⟩ fun _ ready =>
    beside_ready.queries s p ready fresh
  commands s p h fresh := h.imp ⟨h.tidied.queries, fresh⟩ fun _ ready =>
    beside_ready.commands s p ready fresh

/-- One edit. -/
theorem statement_reported (genuine : site.Genuine) (edit : st.isEdit) :
    Action.Leads (Ready site stays l) (statement site st) (Reported site stays l st) := by
  refine beside_ready.statement_leads beside_reported (fun writable command written => ?_) ?_
  · intro s log ready
    obtain ⟨log', result, after⟩ := withConnection_of_upcoming genuine ready.upcoming
      (site.execute command).run log
    have kept : Action.Keeps Tidied (withConnection site (site.execute command).run) :=
      withConnection_tidied _
    have tidied := kept.leads s log ready.tidied
    have ran : linked site (site.execute command) ⟨s, log⟩ =
        ((withConnection site (site.execute command).run ⟨s, log⟩).1 >>= id,
          (withConnection site (site.execute command).run ⟨s, log⟩).2) :=
      Action.run_bind_of _ id _
    rw [ExceptT.run, ran, result]
    rw [genuine.execute] at after tidied ⊢
    refine ⟨tidied, fun report done => ?_, fun f failed free n changed edits => ?_⟩
    · obtain ⟨n, edited, rfl⟩ := Link.execute_edited written edit (Prod.ext done rfl)
      refine ⟨n, _, ⟨edit, writable, edited.answered⟩, rfl, edited.inserted, fun free => ?_,
        fun hs => ?_⟩
      · obtain ⟨_, _, executed, stillFree⟩ :=
          Link.execute_of_free free written edited.answered log'
        exact congrArg (·.2.state) executed ▸ stillFree
      · obtain ⟨next, lasting⟩ := after (ready.lasting hs) (Link.execute_steady _) edited.before
        exact ⟨tidied, next, fun _ => lasting⟩
    · obtain ⟨_, _, executed, -⟩ := Link.execute_of_free free written edits.answered log'
      cases (congrArg Prod.fst executed).symm.trans failed
  · intro unwritable f s ready
    refine ⟨ready.tidied, nofun, fun _ _ _ n after edits => unwritable edits.written⟩

/-- Edits item by item, from an item on. -/
theorem onward_reported {β : Type} (genuine : site.Genuine) (make : β → Statement)
    {change : β → Action Session Affected} (same : ∀ b, change b = statement site (make b))
    (edits : ∀ b, (make b).isEdit) (items : List β) (sum : Affected) :
    Action.Leads (Ready site True l) (Backend.onward change sum items) fun r _ =>
      (∀ report, r = .ok report → ∃ ns after, l.catalog.EditsAll (items.map make) ns after ∧
        report = sum.sum (ns.map fun n => ⟨some n, l.2.insertedKey⟩)) ∧
      ∀ f, r = .error f → l.Free → ∀ ns after, ¬l.catalog.EditsAll (items.map make) ns after := by
  induction items generalizing l sum with
  | nil =>
    intro s log _
    refine ⟨fun report done => ⟨[], _, .nil _, (Except.ok.inj done).symm⟩, fun f failed => ?_⟩
    cases failed
  | cons item rest ih =>
    intro s log ready
    have first := statement_reported genuine (edits item) s log ready
    rw [← same] at first
    rcases h : change item ⟨s, log⟩ with ⟨f | report, ⟨s', log'⟩⟩
    · rw [ExceptT.run, h] at first
      rw [ExceptT.run, Backend.onward_of_error h]
      refine ⟨nofun, fun _ _ free ns after all => ?_⟩
      cases all with
      | cons edited _ => exact first.failed f rfl free _ _ edited
    · rw [ExceptT.run, h] at first
      obtain ⟨n, l', edited, rfl, inserted, free, next⟩ := first.done report rfl
      rw [ExceptT.run, Backend.onward_of_ok h]
      obtain ⟨done, failed⟩ := ih (sum.append ⟨some n, l.2.insertedKey⟩) s' log' (next trivial)
      refine ⟨fun report hr => ?_, fun f hf isFree ns after all => ?_⟩
      · obtain ⟨ns, after, all, rfl⟩ := done report hr
        exact ⟨n :: ns, after, .cons edited all, by rw [inserted]; rfl⟩
      · cases all with
        | cons edited' all' =>
          obtain ⟨rfl, rfl⟩ := edited.unique edited'
          exact failed f hf (free isFree) _ _ all'

end Session

/-- Requests that change rows in place or delete them. -/
inductive Edit where
  | update (m : Mapping) (c : Criteria) (values : Assignments)
  | updateBatch (m : Mapping) (items : List (Criteria × Assignments))
  | delete (m : Mapping) (c : Criteria)
  | deleteAll (m : Mapping)

namespace Edit

def perform (site : Site) : Edit → Action Session Affected
  | update m c values => (Session.backend site).update m c values
  | updateBatch m items => (Session.backend site).updateBatch m items
  | delete m c => (Session.backend site).delete m c
  | deleteAll m => (Session.backend site).deleteAll m

def isBatch : Edit → Bool
  | updateBatch .. => true
  | _ => false

def statements : Edit → List Statement
  | update m c values => [.update m c values]
  | updateBatch m items => items.map fun (c, values) => .update m c values
  | delete m c => [.delete m c]
  | deleteAll m => [.deleteAll m]

/-- The rows that are reported; those of a batch are added up in a word. -/
def total : Edit → List Nat → Nat
  | updateBatch .., ns => ns.sum % Nat.pow 2 64
  | _, ns => ns.sum

/-- The key that is reported: the one inserted last on the connection, if anything is done there. -/
def key (edit : Edit) (l : Link) : Option Int64 :=
  if edit.statements.isEmpty then none else l.2.insertedKey

/-- Each of its statements has an answer, the tables being what those before left. -/
def Answered (edit : Edit) (c : Catalog) : Prop := ∃ ns after, c.EditsAll edit.statements ns after

variable {edit : Edit} {l l' : Link} {r r' : Outcome Affected}

/-- What comes of an edit on a connection. Rows are told by what is seen there; where nobody else
holds anything it fails only if one of its statements has no answer. -/
structure Comes (edit : Edit) (l : Link) (r : Outcome Affected) : Prop where
  done : ∀ report, r = .ok report → ∃ ns after, l.catalog.EditsAll edit.statements ns after ∧
    report = ⟨some (edit.total ns), edit.key l⟩
  failed : ∀ f, r = .error f → l.Free → ¬edit.Answered l.catalog

/-- The same rows are changed where the same is seen. -/
theorem Comes.rows_agree (h : edit.Comes l r) (h' : edit.Comes l' r')
    (same : l.catalog = l'.catalog) : ∃ n,
      (∀ report, r = .ok report → report = ⟨some n, edit.key l⟩) ∧
        ∀ report, r' = .ok report → report = ⟨some n, edit.key l'⟩ := by
  by_cases answered : edit.Answered l.catalog
  · obtain ⟨ns, after, all⟩ := answered
    refine ⟨edit.total ns, fun report hr => ?_, fun report hr => ?_⟩
    · obtain ⟨ns', _, all', rfl⟩ := h.done report hr
      rw [all.unique all']
    · obtain ⟨ns', _, all', rfl⟩ := h'.done report hr
      rw [all.unique (same ▸ all')]
  · refine ⟨0, fun report hr => ?_, fun report hr => ?_⟩
    · obtain ⟨ns, after, all, -⟩ := h.done report hr
      exact absurd ⟨ns, after, all⟩ answered
    · obtain ⟨ns, after, all, -⟩ := h'.done report hr
      exact absurd ⟨ns, after, same ▸ all⟩ answered

/-- What has an answer is done, unless somebody is in the way. -/
theorem Comes.exists_ok_iff (h : edit.Comes l r) (free : l.Free) :
    (∃ report, r = .ok report) ↔ edit.Answered l.catalog := by
  constructor
  · intro ⟨report, hr⟩
    obtain ⟨ns, after, all, -⟩ := h.done report hr
    exact ⟨ns, after, all⟩
  · intro answered
    cases hr : r with
    | ok report => exact ⟨report, rfl⟩
    | error f => exact absurd answered (h.failed f hr free)

theorem comes_of_reported {st : Statement} {s : Session} {stays : Prop}
    (single : edit.statements = [st]) (total : ∀ ns, edit.total ns = ns.sum)
    (h : s.Reported site stays l st r) : edit.Comes l r where
  done report hr := by
    obtain ⟨n, l', edits, rfl, -⟩ := h.done report hr
    refine ⟨[n], _, single ▸ edits.alone, ?_⟩
    simp [total, key, single]
  failed f hf free answered := by
    obtain ⟨ns, after, all⟩ := answered
    rw [single] at all
    cases all with
    | cons edits _ => exact h.failed f hf free _ _ edits

/-- What is done on a connection is told by it, and by nothing that was done before. -/
theorem perform_comes (genuine : site.Genuine) (edit : Edit) :
    Action.Leads (Session.Ready site edit.isBatch l) (edit.perform site)
      fun r _ => edit.Comes l r := by
  have single {edit : Edit} {st : Statement}
      (writes : edit.perform site = Session.statement site st) (alone : edit.statements = [st])
      (total : ∀ ns, edit.total ns = ns.sum) (edits : st.isEdit) :
      Action.Leads (Session.Ready site edit.isBatch l) (edit.perform site)
        fun r _ => edit.Comes l r :=
    writes ▸ (Session.statement_reported genuine edits).mono (fun _ h => h)
      fun _ _ h => comes_of_reported alone total h
  cases edit with
  | update m c values => exact single rfl rfl (fun _ => rfl) rfl
  | delete m c => exact single rfl rfl (fun _ => rfl) rfl
  | deleteAll m => exact single rfl rfl (fun _ => rfl) rfl
  | updateBatch m items =>
    intro s log ready
    obtain ⟨done, failed⟩ := Session.onward_reported genuine
      (fun (c, values) => .update m c values) (fun _ => rfl) (fun _ => rfl) items
      (.ofRows 0) s log ⟨ready.tidied, ready.upcoming, fun _ => ready.lasting rfl⟩
    refine ⟨fun report hr => ?_, fun f hf free ⟨ns, after, all⟩ => failed f hf free ns after all⟩
    obtain ⟨ns, after, all, rfl⟩ := done report hr
    refine ⟨ns, after, all, ?_⟩
    cases items with
    | nil =>
      cases all
      rfl
    | cons item rest =>
      cases all
      exact Affected.sum_of_key_cons ..

end Edit

namespace Activity

variable {site : Site} {a a' : Activity} {edit : Edit} {t t' : Option Transaction} {l l' : Link}

/-- A history after which an edit is done on a connection next. That of a transaction stays with it;
otherwise a batch goes on with the same one where the pool keeps connections. -/
structure Faces (site : Site) (edit : Edit) (a : Activity) (t : Option Transaction) (l : Link) :
    Prop where
  reached : a.Reached site
  next : (a.session t).upcoming site = .ok l
  stays : edit.isBatch → t = none → site.Reliable ∧ 0 < a.storage.connections.maxIdle

theorem Faces.ready (faces : a.Faces site edit t l) : (a.session t).Ready site edit.isBatch l where
  tidied := faces.reached.tidied t
  upcoming := faces.next
  lasting batch outside := by
    obtain rfl : t = none := outside
    obtain ⟨reliable, positive⟩ := faces.stays batch rfl
    have all : a.running.Perm ((none : Option Transaction).toList ++ a.running) := .refl _
    exact ⟨reliable, positive, _, (faces.reached.orderly reliable).session all⟩

/-- Two histories after which the connections see the same tables. Whatever else they did, the same
edit reports the same rows; the key that it reports is the one that was inserted last on its
connection, by whatever statement. Where nobody else holds anything of the databases, it is done
after both just where the tables have an answer to it. -/
theorem edits_reported (genuine : site.Genuine) (faces : a.Faces site edit t l)
    (faces' : a'.Faces site edit t' l') (same : l.catalog = l'.catalog)
    (log log' : List LogRecord) :
    let r := (edit.perform site ⟨a.session t, log⟩).1
    let r' := (edit.perform site ⟨a'.session t', log'⟩).1
    (∃ n, (∀ report, r = .ok report → report = ⟨some n, edit.key l⟩) ∧
      ∀ report, r' = .ok report → report = ⟨some n, edit.key l'⟩) ∧
    (l.Free → ((∃ report, r = .ok report) ↔ edit.Answered l.catalog)) ∧
    (l'.Free → ((∃ report, r' = .ok report) ↔ edit.Answered l.catalog)) := by
  have comes := edit.perform_comes genuine _ log faces.ready
  have comes' := edit.perform_comes genuine _ log' faces'.ready
  exact ⟨comes.rows_agree comes' same, comes.exists_ok_iff, same ▸ comes'.exists_ok_iff⟩

section Diary

def diary : Site := .prompt ⟨"sqlite", "diary", [("mode", "memory"), ("cache", "shared")], 2, 5000⟩

def notes : Mapping := ⟨⟨"", "notes"⟩, [.key "id" "id" .int64]⟩

def noteOf (id : Int64) : Criteria := .allOf [.test "id" (.equal (.of (.int64 id))) true]

/-- A storage that was opened and asked to do all of these. -/
def written (ops : List Memory.Operation) : Activity :=
  ops.foldl (fun a o => a.after diary (.ask (.operation o))) (opened diary .idle [])

theorem reached_written (ops : List Memory.Operation) : (written ops).Reached diary := by
  have all (a : Activity) (before : a.Reached diary) :
      (ops.foldl (fun a o => a.after diary (.ask (.operation o))) a).Reached diary := by
    induction ops generalizing a with
    | nil => exact before
    | cons o rest ih => exact ih _ (before.after (.ask (.operation o)) trivial)
  exact all _ (.opened .idle [])

theorem exists_faces (ops : List Memory.Operation) (edit : Edit) (P : Link → Prop)
    [DecidablePred P] (keeps : 0 < (written ops).storage.connections.maxIdle)
    (h : (((written ops).session none).upcoming diary).toOption.any (fun l => P l)) :
    ∃ l, (written ops).Faces diary edit none l ∧ P l := by
  cases next : ((written ops).session none).upcoming diary with
  | error f => simp [next, Except.toOption] at h
  | ok l =>
    have reliable : diary.Reliable := Site.prompt_reliable _
    refine ⟨l, ⟨reached_written ops, next, fun _ _ => ⟨reliable, keeps⟩⟩, ?_⟩
    simpa [next, Except.toOption] using h

/-- A diary with one note. -/
def opening : List Memory.Operation :=
  [.createTable notes false, .insert notes [.of (.int64 3)]]

/-- Another note is taken and torn out. -/
def torn : List Memory.Operation :=
  opening ++ [.insert notes [.of (.int64 7)], .delete notes (noteOf 7)]

def page : Catalog :=
  ⟨[("notes", { Table.declare .sqlite notes with rows := [⟨3, [.integer 3]⟩] })], []⟩

/-- One note gets another number, and then another again. -/
def renumbered : Edit :=
  .updateBatch notes [(noteOf 3, [("id", .of (.int64 4))]), (noteOf 4, [("id", .of (.int64 5))])]

theorem edits_reported_torn : ∃ l l' : Link, (written opening).Faces diary renumbered none l ∧
    (written torn).Faces diary renumbered none l' ∧ l.catalog = page ∧ l'.catalog = page ∧
    l.Free ∧ l'.Free ∧
    (renumbered.perform diary ⟨(written opening).session none, []⟩).1 = .ok ⟨some 2, some 3⟩ ∧
    (renumbered.perform diary ⟨(written torn).session none, []⟩).1 = .ok ⟨some 2, some 7⟩ := by
  obtain ⟨l, faces, sees, free⟩ := exists_faces opening renumbered
    (fun l => l.catalog = page ∧ l.Free) (by decide +kernel)
    (by decide +kernel)
  obtain ⟨l', faces', sees', free', key'⟩ := exists_faces torn renumbered
    (fun l => l.catalog = page ∧ l.Free ∧ renumbered.key l = some 7) (by decide +kernel)
    (by decide +kernel)
  have done : (renumbered.perform diary ⟨(written opening).session none, []⟩).1 =
      .ok ⟨some 2, some 3⟩ := Outcome.eq_ok_of_toOption (by decide +kernel)
  have genuine : diary.Genuine := Site.genuine_prompt _
  obtain ⟨⟨n, first, second⟩, here, there⟩ := edits_reported genuine faces faces'
    (sees.trans sees'.symm) [] []
  obtain ⟨report, done'⟩ := (there free').mpr ((here free).mp ⟨_, done⟩)
  obtain rfl : 2 = n := Option.some.inj (congrArg Affected.rows (first _ done))
  refine ⟨l, l', faces, faces', sees, sees', free, free', done, ?_⟩
  rw [done', second report done', key']

/-- Nothing was ever noted. -/
def blank : List Memory.Operation := [.createTable notes false]

/-- Nothing is noted any more. -/
def emptied : List Memory.Operation := blank ++ [.insert notes [.of (.int64 7)], .deleteAll notes]

/-- Deletions of nothing from an empty table; one reports the key of a row that is long gone. -/
theorem deleteAll_told_apart : ∃ l l' : Link,
    (written blank).Faces diary (.deleteAll notes) none l ∧
    (written emptied).Faces diary (.deleteAll notes) none l' ∧ l.catalog = l'.catalog ∧
    ((Edit.deleteAll notes).perform diary ⟨(written blank).session none, []⟩).1 =
      .ok ⟨some 0, none⟩ ∧
    ((Edit.deleteAll notes).perform diary ⟨(written emptied).session none, []⟩).1 =
      .ok ⟨some 0, some 7⟩ := by
  obtain ⟨l, faces, sees⟩ := exists_faces blank (.deleteAll notes)
    (fun l => l.catalog = ⟨[("notes", Table.declare .sqlite notes)], []⟩) (by decide +kernel)
    (by decide +kernel)
  obtain ⟨l', faces', sees'⟩ := exists_faces emptied (.deleteAll notes)
    (fun l => l.catalog = ⟨[("notes", Table.declare .sqlite notes)], []⟩) (by decide +kernel)
    (by decide +kernel)
  exact ⟨l, l', faces, faces', sees.trans sees'.symm,
    Outcome.eq_ok_of_toOption (by decide +kernel), Outcome.eq_ok_of_toOption (by decide +kernel)⟩

end Diary

end Activity
end Sqlite
end DataAccess
