import DataAccess.Proofs.Alike
import DataAccess.Proofs.Pool.Idle
import DataAccess.Query.Compiled

/-!
Pools whose objects all come back as they were made: what is leased does not tell what was done
before.
-/
namespace DataAccess

namespace Pool

variable {κ τ σ α : Type} [DecidableEq κ] {blank : κ → τ} {p : Pool κ τ} {key : κ}

/-- Whatever is idle is as it was made. -/
structure Fresh (blank : κ → τ) (p : Pool κ τ) : Prop where
  sound : p.poisoned = false
  idle : ∀ key, ∀ x ∈ p.idleUnder key, x = blank key

theorem fresh_new (blank : κ → τ) (name : String) (maxIdle : Nat) :
    (new name maxIdle : Pool κ τ).Fresh blank where
  sound := rfl
  idle := by simp [new, idleUnder, Keyed.find?]

/-- A pool after a lease. -/
def leased (key : κ) (p : Pool κ τ) : Pool κ τ := (p.takeIdle? key).elim p.noteCreated Prod.snd

theorem Fresh.leased (fresh : p.Fresh blank) (key : κ) : (p.leased key).Fresh blank := by
  unfold Pool.leased
  cases h : p.takeIdle? key with
  | none => exact ⟨fresh.sound, fresh.idle⟩
  | some taken =>
    have taken := taken_of_takeIdle? h
    exact ⟨taken.fixed.2.trans fresh.sound, fun k x hx => fresh.idle k x (taken.mem_of_mem hx)⟩

theorem Fresh.giveBack (fresh : p.Fresh blank) (key : κ) :
    (p.giveBack key (blank key)).Fresh blank where
  sound := (giveBack_fixed ..).2.2.2.trans fresh.sound
  idle k x hx := by
    rw [idleUnder_giveBack fresh.sound] at hx
    split at hx
    case isTrue hk =>
      obtain ⟨rfl, -⟩ := hk
      rcases List.mem_cons.mp hx with rfl | old
      · rfl
      · exact fresh.idle _ x old
    case isFalse => exact fresh.idle k x hx

variable {pool : Place σ (Pool κ τ)} {s : σ}

/-- A lease is of an object like a new one. -/
theorem Fresh.lease_eq (fresh : (pool.get s).Fresh blank) (same : pool.set (pool.get s) s = s)
    (key : κ) (log : List LogRecord) :
    lease pool key (pure (blank key)) ⟨s, log⟩ =
      (.ok (blank key), ⟨pool.set ((pool.get s).leased key) s, log⟩) := by
  unfold Pool.leased
  cases h : (pool.get s).takeIdle? key with
  | none => exact lease_of_none fresh.sound same h log
  | some taken =>
    rw [lease_of_taken fresh.sound same h log,
      fresh.idle key taken.1 (taken_of_takeIdle? h).mem]
    rfl

/-- Related states have such pools, and stay related when one thing is done with both. -/
structure Tidy (blank : κ → τ) (pool : Place σ (Pool κ τ)) (R : Env σ → Env σ → Prop) :
    Prop where
  same : ∀ s, pool.set (pool.get s) s = s
  fresh : ∀ env env', R env env' →
    (pool.get env.state).Fresh blank ∧ (pool.get env'.state).Fresh blank
  kept : ∀ (f : Pool κ τ → Pool κ τ), (∀ p, p.Fresh blank → (f p).Fresh blank) →
    ∀ env env', R env env' → R ⟨pool.set (f (pool.get env.state)) env.state, env.log⟩
      ⟨pool.set (f (pool.get env'.state)) env'.state, env'.log⟩

namespace Tidy

variable {R : Env σ → Env σ → Prop}

theorem lease_bind (tidy : Tidy blank pool R) {f f' : τ → Action σ α}
    (next : Action.Alike R (f (blank key)) (f' (blank key))) :
    Action.Alike R (lease pool key (pure (blank key)) >>= f)
      (lease pool key (pure (blank key)) >>= f') := by
  refine .bind_of_ok fun env env' h => ?_
  obtain ⟨fresh, fresh'⟩ := tidy.fresh env env' h
  have leased := fresh.lease_eq (tidy.same env.state) key env.log
  have leased' := fresh'.lease_eq (tidy.same env'.state) key env'.log
  have kept := tidy.kept (Pool.leased key) (fun p hp => hp.leased key) env env' h
  exact ⟨_, _, _, _, leased, leased', kept, next⟩

theorem release (tidy : Tidy blank pool R) (key : κ) :
    Effect.Alike R (release pool key (blank key)) (Pool.release pool key (blank key)) := by
  intro env env' h
  obtain ⟨fresh, fresh'⟩ := tidy.fresh env env' h
  have back := release_eq fresh.sound (tidy.same env.state) key (blank key) env.log
  have back' := release_eq fresh'.sound (tidy.same env'.state) key (blank key) env'.log
  have done := tidy.kept (Pool.giveBack · key (blank key)) (fun p hp => hp.giveBack key) env env' h
  change (Pool.release pool key (blank key) ⟨env.state, env.log⟩).1 =
      (Pool.release pool key (blank key) ⟨env'.state, env'.log⟩).1 ∧
    R (Pool.release pool key (blank key) ⟨env.state, env.log⟩).2
      (Pool.release pool key (blank key) ⟨env'.state, env'.log⟩).2
  rw [back, back']
  exact ⟨rfl, done⟩

end Tidy
end Pool

namespace QueryPool

variable {σ α : Type} {pool : Place σ QueryPool} {R : Env σ → Env σ → Prop} {d : Sql.Dialect}
  {shape : Shape} {statement : Statement}

theorem release_alike (tidy : Pool.Tidy Query.blank pool R) (q : Query) :
    Effect.Alike R (release pool q) (release pool q) := tidy.release q.shape

/-- A query is compiled in the same way, whatever was compiled before. -/
theorem compile_alike (tidy : Pool.Tidy Query.blank pool R) :
    Action.Alike R (compile pool d shape statement) (compile pool d shape statement) := by
  refine tidy.lease_bind ?_
  cases (Query.blank shape).compile d statement with
  | ok q => exact .pure q
  | error f =>
    exact (Action.Alike.effect (tidy.release shape)).bind fun _ => .of (.error f)

theorem during_alike (tidy : Pool.Tidy Query.blank pool R) {work work' : Query → Action σ α}
    (each : ∀ q, Action.Alike R (work q) (work' q)) :
    Action.Alike R (during pool d shape statement work) (during pool d shape statement work') :=
  (compile_alike tidy).bind fun q => (each q).ensuring (release_alike tidy q)

/-- Both sides have queries as new at hand, and need have nothing else in common. -/
def BothFresh (pool : Place σ QueryPool) (env env' : Env σ) : Prop :=
  (pool.get env.state).Fresh Query.blank ∧ (pool.get env'.state).Fresh Query.blank

theorem logs_bothFresh : Effect.Logs (BothFresh pool) := fun _ _ _ _ h => h

theorem tidy_bothFresh (same : ∀ s, pool.set (pool.get s) s = s)
    (got : ∀ p s, pool.get (pool.set p s) = p) :
    Pool.Tidy Query.blank pool (BothFresh pool) where
  same := same
  fresh _ _ h := h
  kept _ hf _ _ h := ⟨(got ..).symm ▸ hf _ h.1, (got ..).symm ▸ hf _ h.2⟩

end QueryPool
end DataAccess
