import DataAccess.Proofs.Pool.Idle
import DataAccess.Sqlite

/-!
Connections that are leased and given back. Each is numbered; one that is held by somebody is not
idle, and one that is idle is outside of all transactions.
-/
namespace DataAccess.Sqlite

variable {α : Type}

namespace Link

/-- The same connection, still of use, and no fewer connections. -/
structure Onward (l l' : Link) : Prop where
  serial : l'.2.serial = l.2.serial
  identity : l'.2.identity = l.2.identity
  unpoisoned : l'.2.poisoned = false
  opened : l.1.opened ≤ l'.1.opened

theorem Onward.refl {l : Link} (h : l.2.poisoned = false) : l.Onward l :=
  ⟨rfl, rfl, h, Nat.le_refl _⟩

theorem Onward.trans {l l' l'' : Link} (h : l.Onward l') (h' : l'.Onward l'') : l.Onward l'' where
  serial := h'.serial.trans h.serial
  identity := h'.identity.trans h.identity
  unpoisoned := h'.unpoisoned
  opened := Nat.le_trans h.opened h'.opened

/-- Work that leaves the connection what it is. -/
def Steady (work : Effect Link α) : Prop :=
  ∀ (l : Link) log, l.2.poisoned = false → l.Onward (work ⟨l, log⟩).2.state

end Link

/-- What is taken for granted of an engine: it opens connections one after the other, outside of
transactions; work on a connection leaves it the connection it is; and a transaction that is open
can be rolled back, which closes it. -/
structure Site.Reliable (site : Site) : Prop where
  connected : ∀ e log c env, site.connect ⟨e, log⟩ = (.ok c, env) →
    c.serial = e.opened ∧ c.identity = site.identity ∧ c.poisoned = false ∧ c.before = none ∧
      env.state.opened = e.opened + 1
  unconnected : ∀ e log f env, site.connect ⟨e, log⟩ = (.error f, env) →
    e.opened ≤ env.state.opened
  control : ∀ failed k, Link.Steady (site.control failed k).run
  execute : ∀ command, Link.Steady (site.execute command).run
  query : ∀ {β : Type} command (receive : Receiver β) start,
    Link.Steady (site.query command receive start)
  rollback : ∀ failed (l : Link) log, l.2.poisoned = false → l.2.before.isSome →
    (site.control failed .rollback ⟨l, log⟩).1 = .ok () ∧
      (site.control failed .rollback ⟨l, log⟩).2.state.2.before = none

/-- Another engine, which does the same on connections that are not held. -/
structure Site.AgreesBeside (site : Site) (held : List Nat) (site' : Site) : Prop where
  descriptor : site'.descriptor = site.descriptor
  connect : site'.connect = site.connect
  control : ∀ failed k (l : Link) log, l.2.serial ∉ held →
    site'.control failed k ⟨l, log⟩ = site.control failed k ⟨l, log⟩
  execute : ∀ command (l : Link) log, l.2.serial ∉ held →
    site'.execute command ⟨l, log⟩ = site.execute command ⟨l, log⟩
  query : ∀ {β : Type} command (receive : Receiver β) start (l : Link) log, l.2.serial ∉ held →
    site'.query command receive start ⟨l, log⟩ = site.query command receive start ⟨l, log⟩

variable {site site' : Site}

/-- A connection inside a transaction is rolled back. -/
theorem Link.resetBy_eq (l : Link) (log : List LogRecord) : ∃ log', ∀ control,
    resetBy control ⟨l, log⟩ = if l.2.isAutocommit then ((), ⟨l, log⟩)
      else ((), (control id .rollback ⟨l, log'⟩).2) := by
  let warning := "A connection to " ++ l.2.identity ++
    " went back to the pool inside a transaction, rolling back"
  refine ⟨log ++ [⟨.warn, warning⟩], fun control => ?_⟩
  have run : resetBy control ⟨l, log⟩ =
      (if (!l.2.isAutocommit) = true then (do
        Effect.log .warn warning
        let _ ← (control id .rollback).run) else pure ()) ⟨l, log⟩ := rfl
  rw [run]
  cases l.2.isAutocommit <;> rfl

/-- A connection that goes back is outside of all transactions. -/
theorem Link.resetBy_onward (reliable : site.Reliable) {l : Link} (h : l.2.poisoned = false)
    (log : List LogRecord) : l.Onward (resetBy site.control ⟨l, log⟩).2.state ∧
      (resetBy site.control ⟨l, log⟩).2.state.2.before = none := by
  obtain ⟨log', run⟩ := resetBy_eq l log
  rw [run]
  cases hb : l.2.before with
  | none =>
    rw [if_pos (by simp [Connection.isAutocommit, hb])]
    exact ⟨.refl h, hb⟩
  | some own =>
    rw [if_neg (by simp [Connection.isAutocommit, hb, h])]
    exact ⟨reliable.control id .rollback l log' h,
      (reliable.rollback id l log' h (by simp [hb])).2⟩

theorem Link.resetBy_same {held : List Nat} (agrees : site.AgreesBeside held site') {l : Link}
    (free : l.2.serial ∉ held) (log : List LogRecord) :
    resetBy site'.control ⟨l, log⟩ = resetBy site.control ⟨l, log⟩ := by
  obtain ⟨log', run⟩ := resetBy_eq l log
  rw [run, run, agrees.control id .rollback l log' free]

namespace Connection

/-- A connection to the place, which can be used. -/
structure Sound (identity : String) (c : Connection) : Prop where
  identity : c.identity = identity
  unpoisoned : c.poisoned = false

end Connection

namespace Fleet

def idleSerials (f : Fleet) : List Nat := f.pool.allIdle.map (·.serial)

/-- Nobody holds what is idle or what another holds, and what is idle is as it should be. -/
structure Orderly (identity : String) (held : List Nat) (f : Fleet) : Prop where
  unpoisoned : f.pool.poisoned = false
  few : (f.pool.idleUnder identity).length ≤ f.pool.maxIdle
  idle : ∀ c ∈ f.pool.allIdle, c.Sound identity ∧ c.before = none
  apart : (held ++ f.idleSerials).Nodup
  numbered : ∀ n ∈ held ++ f.idleSerials, n < f.engine.opened

variable {identity : String} {held held' : List Nat} {f : Fleet} {c : Connection}

theorem Orderly.perm (orderly : f.Orderly identity held) (perm : held.Perm held') :
    f.Orderly identity held' where
  unpoisoned := orderly.unpoisoned
  few := orderly.few
  idle := orderly.idle
  apart := (perm.append_right _).nodup_iff.mp orderly.apart
  numbered n hn := orderly.numbered n ((perm.append_right _).mem_iff.mpr hn)

/-- The engine has gone on. -/
theorem Orderly.later (orderly : f.Orderly identity held) {e : Engine}
    (later : f.engine.opened ≤ e.opened) : (⟨f.pool, e⟩ : Fleet).Orderly identity held :=
  { orderly with numbered := fun n hn => Nat.lt_of_lt_of_le (orderly.numbered n hn) later }

/-- What comes of a lease: nothing, or a connection that nobody held. There is room for it when it
comes back, if any are kept. -/
inductive Leased (site : Site) (held : List Nat) (f : Fleet) : Outcome Connection × Env Fleet → Prop
  | failed (failure : Failure) (e : Engine) (log : List LogRecord)
    (later : f.engine.opened ≤ e.opened) : Leased site held f (.error failure, ⟨⟨f.pool, e⟩, log⟩)
  | had (c : Connection) (f' : Fleet) (log : List LogRecord) (sound : c.Sound site.identity)
    (closed : c.before = none) (orderly : f'.Orderly site.identity (c.serial :: held))
    (limit : f'.pool.maxIdle = f.pool.maxIdle)
    (room : 0 < f.pool.maxIdle → f'.pool.hasRoom site.identity = true) :
    Leased site held f (.ok c, ⟨f', log⟩)

theorem connect_within {r : Outcome Connection} {env : Env Engine} {log : List LogRecord}
    (h : site.connect ⟨f.engine, log⟩ = (r, env)) :
    Action.within enginePlace site.connect ⟨f, log⟩ = (r, ⟨⟨f.pool, env.state⟩, env.log⟩) := by
  change ((site.connect ⟨f.engine, log⟩).1,
    (⟨⟨f.pool, (site.connect ⟨f.engine, log⟩).2.state⟩, (site.connect ⟨f.engine, log⟩).2.log⟩ :
      Env Fleet)) = _
  rw [h]

/-- A connection that was idle is held instead. -/
theorem leaseBy_taken (orderly : f.Orderly site.identity held) {taken : Connection × Pool _ _}
    (h : f.pool.takeIdle? site.identity = some taken) (log : List LogRecord) :
    Leased site held f (leaseBy site.identity site.connect ⟨f, log⟩) := by
  have took := Pool.taken_of_takeIdle? h
  have leased : leaseBy site.identity site.connect ⟨f, log⟩ =
    (.ok taken.1, ⟨⟨taken.2, f.engine⟩, log⟩) := Pool.lease_of_taken orderly.unpoisoned rfl h log
  rw [leased]
  have serials : f.idleSerials.Perm (taken.1.serial :: taken.2.allIdle.map (·.serial)) :=
    took.all.map (fun c : Connection => c.serial)
  have all : (held ++ f.idleSerials).Perm
      (taken.1.serial :: held ++ taken.2.allIdle.map (·.serial)) :=
    (serials.append_left held).trans List.perm_middle
  have first := orderly.idle taken.1 (took.all.mem_iff.mpr List.mem_cons_self)
  have unpoisoned := took.fixed.2.trans orderly.unpoisoned
  have fewer : (taken.2.idleUnder site.identity).length < taken.2.maxIdle := by
    have few := orderly.few
    rwa [took.under, if_pos rfl, List.length_cons, ← took.fixed.1] at few
  refine .had taken.1 _ log first.1 first.2
    ⟨unpoisoned, Nat.le_of_lt fewer, fun c hc => ?_, ?_, fun n hn => ?_⟩ took.fixed.1
    fun _ => by simp [Pool.hasRoom, unpoisoned, fewer]
  · exact orderly.idle c (took.all.mem_iff.mpr (List.mem_cons_of_mem _ hc))
  · exact all.nodup_iff.mp orderly.apart
  · exact orderly.numbered n (all.mem_iff.mpr hn)

/-- Connections are numbered as they are opened, so nobody has a new one's number. -/
theorem Orderly.opened (orderly : f.Orderly identity held) {e : Engine}
    (serial : c.serial = f.engine.opened) (opened : e.opened = f.engine.opened + 1) :
    (⟨f.pool.noteCreated, e⟩ : Fleet).Orderly identity (c.serial :: held) where
  unpoisoned := orderly.unpoisoned
  few := orderly.few
  idle := orderly.idle
  apart := by
    have fresh : c.serial ∉ held ++ f.idleSerials := fun old =>
      absurd (orderly.numbered _ old) (serial ▸ Nat.lt_irrefl _)
    exact List.nodup_cons.mpr ⟨fresh, orderly.apart⟩
  numbered := by
    change ∀ n ∈ c.serial :: (held ++ f.idleSerials), n < e.opened
    rw [opened]
    refine List.forall_mem_cons.mpr ⟨serial ▸ Nat.lt_succ_self _, fun n hn => ?_⟩
    exact Nat.lt_succ_of_lt (orderly.numbered n hn)

theorem leaseBy_leased (reliable : site.Reliable) (orderly : f.Orderly site.identity held)
    (log : List LogRecord) :
    Leased site held f (leaseBy site.identity site.connect ⟨f, log⟩) := by
  cases h : f.pool.takeIdle? site.identity with
  | some taken => exact leaseBy_taken orderly h log
  | none =>
    have tried : leaseBy site.identity site.connect ⟨f, log⟩ = _ :=
      Pool.lease_of_none orderly.unpoisoned rfl h log
    rcases hc : site.connect ⟨f.engine, log⟩ with ⟨failure | c, env⟩
    · rw [tried, Action.bind_of_error (connect_within hc)]
      exact .failed failure env.state env.log (reliable.unconnected _ _ _ _ hc)
    · rw [tried, Action.bind_of_ok (connect_within hc)]
      obtain ⟨serial, identity, unpoisoned, closed, opened⟩ := reliable.connected _ _ _ _ hc
      have nobody : f.pool.idleUnder site.identity = [] := by
        unfold Pool.takeIdle? at h
        split at h
        · assumption
        · cases h
      refine .had c _ env.log ⟨identity, unpoisoned⟩ closed (orderly.opened serial opened) rfl
        fun positive => ?_
      change f.pool.hasRoom site.identity = true
      simp [Pool.hasRoom, orderly.unpoisoned, nobody, positive]

/-- A connection was given back: it is idle once more where there is room for it, and once only. -/
def GivenBack (identity : String) (serial : Nat) (before after : Pool String Connection) : Prop :=
  (after.allIdle.map (·.serial)).Perm
    (if before.hasRoom identity then serial :: before.allIdle.map (·.serial)
      else before.allIdle.map (·.serial))

theorem opened_disconnect (e : Engine) (location : String) (serial : Nat) :
    (e.disconnect location serial).opened = e.opened := by
  unfold Engine.disconnect
  dsimp only
  split <;> rfl

/-- Whether it is kept or closed, the pool takes the connection as it was reset. -/
theorem giveBackBy_eq (unpoisoned : f.pool.poisoned = false) (reset : Effect Link Unit)
    (c : Connection) (log : List LogRecord) :
    let c' := (reset ⟨(f.engine, c), log⟩).2.state.2
    (giveBackBy reset c ⟨f, log⟩).2.state.pool = f.pool.giveBack c'.identity c' ∧
      (giveBackBy reset c ⟨f, log⟩).2.state.engine.opened =
        (reset ⟨(f.engine, c), log⟩).2.state.1.opened ∧
      (f.pool.hasRoom c'.identity = true → (giveBackBy reset c ⟨f, log⟩).2.state.engine =
        (reset ⟨(f.engine, c), log⟩).2.state.1) := by
  intro c'
  let e := (reset ⟨(f.engine, c), log⟩).2.state.1
  let log' := (reset ⟨(f.engine, c), log⟩).2.log
  have back : Pool.release poolPlace c'.identity c' ⟨⟨f.pool, e⟩, log'⟩ =
    ((), ⟨⟨f.pool.giveBack c'.identity c', e⟩, log'⟩) := Pool.release_eq unpoisoned rfl ..
  have all : giveBackBy reset c ⟨f, log⟩ =
      (if !f.pool.hasRoom c'.identity then Effect.within enginePlace c'.disconnect else pure ())
        (Pool.release poolPlace c'.identity c' ⟨⟨f.pool, e⟩, log'⟩).2 := rfl
  rw [all, back]
  cases f.pool.hasRoom c'.identity with
  | true => exact ⟨rfl, rfl, fun _ => rfl⟩
  | false => exact ⟨rfl, opened_disconnect .., nofun⟩

theorem givenBack_giveBack {pool : Pool String Connection} (unpoisoned : pool.poisoned = false)
    (identity : String) (c : Connection) :
    GivenBack identity c.serial pool (pool.giveBack identity c) := by
  have serials := (Pool.allIdle_giveBack unpoisoned identity c).map (fun c : Connection => c.serial)
  unfold GivenBack
  cases h : pool.hasRoom identity <;> simpa [h] using serials

/-- One that is not kept is gone: then there are fewer numbers than before. -/
theorem GivenBack.fewer {serial : Nat} {pool : Pool String Connection}
    (back : GivenBack identity serial f.pool pool) (held : List Nat) :
    ∃ l, (held ++ pool.allIdle.map (·.serial)).Perm l ∧
      l.Sublist (serial :: (held ++ f.idleSerials)) := by
  unfold GivenBack at back
  split at back
  · exact ⟨_, (back.append_left held).trans List.perm_middle, .refl _⟩
  · exact ⟨_, back.append_left held, .cons _ (.refl _)⟩

/-- A pool that took back a connection which can be used is orderly without it being held. -/
theorem Orderly.giveBack (orderly : f.Orderly identity (c.serial :: held)) {after : Fleet}
    (back : after.pool = f.pool.giveBack identity c) (sound : c.Sound identity)
    (closed : c.before = none) (later : f.engine.opened ≤ after.engine.opened) :
    after.Orderly identity held := by
  have givenBack : GivenBack identity c.serial f.pool after.pool :=
    back ▸ givenBack_giveBack orderly.unpoisoned identity c
  obtain ⟨l, perm, sub⟩ := givenBack.fewer held
  refine ⟨?_, ?_, fun x hx => ?_, ?_, fun n hn => ?_⟩
  · rw [back]
    exact (Pool.giveBack_fixed ..).2.2.2.trans orderly.unpoisoned
  · rw [back, Pool.idleUnder_giveBack orderly.unpoisoned, (Pool.giveBack_fixed ..).2.2.1]
    split
    · rename_i room
      exact of_decide_eq_true (Bool.and_eq_true_iff.mp room.2).2
    · exact orderly.few
  · have idle := (Pool.allIdle_giveBack orderly.unpoisoned identity c).mem_iff.mp (back ▸ hx)
    split at idle
    · rcases List.mem_cons.mp idle with rfl | old
      · exact ⟨sound, closed⟩
      · exact orderly.idle x old
    · exact orderly.idle x idle
  · exact perm.nodup_iff.mpr (orderly.apart.sublist sub)
  · have old := orderly.numbered n (sub.subset (perm.mem_iff.mp hn))
    exact Nat.lt_of_lt_of_le old later

theorem giveBackBy_orderly (reliable : site.Reliable) (sound : c.Sound site.identity)
    (orderly : f.Orderly site.identity (c.serial :: held)) (log : List LogRecord) :
    (giveBackBy (Link.resetBy site.control) c ⟨f, log⟩).2.state.Orderly site.identity held ∧
      GivenBack site.identity c.serial f.pool
        (giveBackBy (Link.resetBy site.control) c ⟨f, log⟩).2.state.pool := by
  obtain ⟨pool, opened, -⟩ := giveBackBy_eq orderly.unpoisoned (Link.resetBy site.control) c log
  obtain ⟨onward, closed⟩ := Link.resetBy_onward (l := (f.engine, c)) reliable sound.unpoisoned log
  generalize (giveBackBy (Link.resetBy site.control) c ⟨f, log⟩).2.state = after at pool opened ⊢
  generalize (Link.resetBy site.control ⟨(f.engine, c), log⟩).2.state = link at *
  have identity : link.2.identity = site.identity := onward.identity.trans sound.identity
  rw [identity] at pool
  rw [← onward.serial] at orderly ⊢
  exact ⟨orderly.giveBack pool ⟨identity, onward.unpoisoned⟩ closed (opened ▸ onward.opened),
    pool ▸ givenBack_giveBack orderly.unpoisoned site.identity link.2⟩

theorem withLeased_of_leased {connect : Action Engine Connection} {reset : Effect Link Unit}
    {work : Effect Link α} {f' : Fleet} {log log' : List LogRecord}
    (leased : leaseBy identity connect ⟨f, log⟩ = (.ok c, ⟨f', log'⟩)) :
    let done := work ⟨(f'.engine, c), log'⟩
    withLeased identity connect reset work ⟨f, log⟩ = (.ok done.1,
      (giveBackBy reset done.2.state.2 ⟨⟨f'.pool, done.2.state.1⟩, done.2.log⟩).2) :=
  Action.bind_of_ok leased

/-- A connection that is outside of all transactions and for which there is room is the next to be
leased, as it went back. -/
theorem leaseBy_giveBackBy (control : (Failure → Failure) → Control → Action Link Unit)
    (unpoisoned : f.pool.poisoned = false) (closed : c.before = none)
    (room : f.pool.hasRoom c.identity = true) (connect : Action Engine Connection)
    (log log' : List LogRecord) : ∃ f', f'.engine = f.engine ∧
      leaseBy c.identity connect ⟨(giveBackBy (Link.resetBy control) c ⟨f, log⟩).2.state, log'⟩ =
        (.ok c, ⟨f', log'⟩) ∧
      (giveBackBy (Link.resetBy control) c ⟨f, log⟩).2.state.pool.maxIdle = f.pool.maxIdle := by
  obtain ⟨_, reset⟩ := Link.resetBy_eq (f.engine, c) log
  have untouched := reset control
  rw [if_pos (by simp [Connection.isAutocommit, closed])] at untouched
  obtain ⟨pool, -, engine⟩ := giveBackBy_eq unpoisoned (Link.resetBy control) c log
  rw [untouched] at pool engine
  have engine := engine room
  generalize (giveBackBy (Link.resetBy control) c ⟨f, log⟩).2.state = after at pool engine ⊢
  obtain ⟨p, e⟩ := after
  obtain rfl : p = f.pool.giveBack c.identity c := pool
  obtain rfl : e = f.engine := engine
  have sound : (f.pool.giveBack c.identity c).poisoned = false :=
    (Pool.giveBack_fixed ..).2.2.2.trans unpoisoned
  have under := Pool.idleUnder_giveBack unpoisoned c.identity c.identity c
  rw [if_pos ⟨rfl, room⟩] at under
  obtain ⟨p', taken⟩ : ∃ p', (f.pool.giveBack c.identity c).takeIdle? c.identity = some (c, p') :=
    ⟨_, Pool.takeIdle?_eq_some.mpr ⟨_, under, rfl⟩⟩
  exact ⟨⟨p', f.engine⟩, rfl, Pool.lease_of_taken sound rfl taken log',
    (Pool.giveBack_fixed ..).2.2.1⟩

/-- Working with a connection leaves things in order. -/
theorem withLeased_orderly {work : Effect Link α} (reliable : site.Reliable)
    (steady : Link.Steady work) (orderly : f.Orderly site.identity held) (log : List LogRecord) :
    (withLeased site.identity site.connect (Link.resetBy site.control) work
      ⟨f, log⟩).2.state.Orderly site.identity held := by
  have leased := leaseBy_leased reliable orderly log
  generalize hl : leaseBy site.identity site.connect ⟨f, log⟩ = x at leased
  cases leased with
  | failed failure e log' later =>
    have failed : withLeased site.identity site.connect (Link.resetBy site.control) work ⟨f, log⟩ =
      (.error failure, ⟨⟨f.pool, e⟩, log'⟩) := Action.bind_of_error hl
    rw [failed]
    exact orderly.later later
  | had c f' log' sound closed orderly' limit room =>
    rw [withLeased_of_leased hl]
    have onward := steady (f'.engine, c) log' sound.unpoisoned
    generalize work ⟨(f'.engine, c), log'⟩ = done at onward ⊢
    have after := orderly'.later onward.opened
    rw [← onward.serial] at after
    have sound' : done.2.state.2.Sound site.identity :=
      ⟨onward.identity.trans sound.identity, onward.unpoisoned⟩
    exact (giveBackBy_orderly reliable sound' after done.2.log).1

/-- Work that opens no transaction leaves its connection to be leased next, if any are kept. -/
theorem withLeased_again {work : Effect Link α} (reliable : site.Reliable)
    (steady : Link.Steady work) (orderly : f.Orderly site.identity held)
    (positive : 0 < f.pool.maxIdle) {f' : Fleet} {log log' : List LogRecord}
    (leased : leaseBy site.identity site.connect ⟨f, log⟩ = (.ok c, ⟨f', log'⟩))
    (closed : (work ⟨(f'.engine, c), log'⟩).2.state.2.before = c.before) :
    let done := work ⟨(f'.engine, c), log'⟩
    let after := (withLeased site.identity site.connect (Link.resetBy site.control) work
      ⟨f, log⟩).2.state
    (∃ next, next.engine = done.2.state.1 ∧
      leaseBy site.identity site.connect ⟨after, []⟩ = (.ok done.2.state.2, ⟨next, []⟩)) ∧
      after.pool.maxIdle = f.pool.maxIdle := by
  have had := leaseBy_leased reliable orderly log
  rw [leased] at had
  cases had with
  | had _ _ _ sound outside orderly' limit room =>
    have onward := steady (f'.engine, c) log' sound.unpoisoned
    rw [withLeased_of_leased leased]
    generalize work ⟨(f'.engine, c), log'⟩ = done at onward closed ⊢
    have identity : done.2.state.2.identity = site.identity :=
      onward.identity.trans sound.identity
    obtain ⟨next, engine, leased', limit'⟩ :=
      leaseBy_giveBackBy (f := ⟨f'.pool, done.2.state.1⟩) site.control orderly'.unpoisoned
        (closed.trans outside) (identity ▸ room positive) site.connect done.2.log []
    rw [identity] at leased'
    exact ⟨⟨next, engine, leased'⟩, limit'.trans limit⟩

theorem giveBackBy_congr {reset reset' : Effect Link Unit} {log : List LogRecord}
    (same : reset' ⟨(f.engine, c), log⟩ = reset ⟨(f.engine, c), log⟩) :
    giveBackBy reset' c ⟨f, log⟩ = giveBackBy reset c ⟨f, log⟩ := by
  have run (reset : Effect Link Unit) : use c reset ⟨f, log⟩ =
      (((reset ⟨(f.engine, c), log⟩).1, (reset ⟨(f.engine, c), log⟩).2.state.2),
        ⟨⟨f.pool, (reset ⟨(f.engine, c), log⟩).2.state.1⟩,
          (reset ⟨(f.engine, c), log⟩).2.log⟩) := rfl
  unfold giveBackBy
  rw [Effect.run_bind, Effect.run_bind, run, run, same]

/-- What an engine does on connections that are held makes no difference. -/
theorem withLeased_same {work work' : Effect Link α} (reliable : site.Reliable)
    (agrees : site.AgreesBeside held site') (steady : Link.Steady work)
    (same : ∀ (l : Link) log, l.2.serial ∉ held → work' ⟨l, log⟩ = work ⟨l, log⟩)
    (orderly : f.Orderly site.identity held) (log : List LogRecord) :
    withLeased site'.identity site'.connect (Link.resetBy site'.control) work' ⟨f, log⟩ =
      withLeased site.identity site.connect (Link.resetBy site.control) work ⟨f, log⟩ := by
  have identity : site'.identity = site.identity :=
    congrArg Descriptor.identity agrees.descriptor
  rw [identity, agrees.connect]
  have leased := leaseBy_leased reliable orderly log
  generalize hl : leaseBy site.identity site.connect ⟨f, log⟩ = x at leased
  cases leased with
  | failed failure e log' later =>
    exact (Action.bind_of_error hl).trans (Action.bind_of_error hl).symm
  | had c f' log' sound closed orderly' limit room =>
    have free : c.serial ∉ held := fun taken =>
      (List.nodup_cons.mp orderly'.apart).1 (List.mem_append_left _ taken)
    have onward := steady (f'.engine, c) log' sound.unpoisoned
    rw [withLeased_of_leased hl, withLeased_of_leased hl, same (f'.engine, c) log' free]
    generalize work ⟨(f'.engine, c), log'⟩ = done at onward ⊢
    have free' : done.2.state.2.serial ∉ held := onward.serial ▸ free
    exact congrArg (fun x : Unit × Env Fleet => (Except.ok done.1, x.2))
      (giveBackBy_congr (Link.resetBy_same agrees free' done.2.log))

end Fleet
end DataAccess.Sqlite
