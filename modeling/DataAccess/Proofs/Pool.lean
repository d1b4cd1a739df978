import DataAccess.Proofs.Effect
import DataAccess.Proofs.Outcome
import DataAccess.Query.Compiled

/-!
What is outside a pool, and whether the pool is poisoned, is as it was after a lease and after its
end.
-/
namespace DataAccess

namespace Pool

variable {κ τ σ : Type} [DecidableEq κ]

theorem poisoned_takeIdle? {p p' : Pool κ τ} {key : κ} {object : τ}
    (h : p.takeIdle? key = some (object, p')) : p'.poisoned = p.poisoned := by
  unfold takeIdle? at h
  split at h
  · simp at h
  · obtain ⟨-, rfl⟩ : _ ∧ _ = p' := by simpa using h
    rfl

theorem poisoned_giveBack (p : Pool κ τ) (key : κ) (object : τ) :
    (p.giveBack key object).poisoned = p.poisoned := by
  unfold giveBack
  split <;> rfl

/-- Facts that hold with any pool that is not poisoned. -/
structure Apart (pool : Place σ (Pool κ τ)) (P : σ → Prop) : Prop where
  same : ∀ s, pool.set (pool.get s) s = s
  sound : ∀ s, P s → (pool.get s).poisoned = false
  kept : ∀ s p, P s → p.poisoned = false → P (pool.set p s)

variable {pool : Place σ (Pool κ τ)} {P : σ → Prop} {key : κ} {create : Action σ τ}

/-- A lease is had. -/
theorem lease_leads (apart : Apart pool P) {object : τ} :
    Action.Leads P (lease pool key (pure object)) fun r s => (∃ x, r = .ok x) ∧ P s := by
  refine (Action.Leads.effect (Effect.Leads.read apart.same)).bind (fun p => ?_) (by simp)
  intro s log hs
  obtain ⟨p', hp', rfl, hP⟩ := hs
  obtain rfl := Except.ok.inj hp'
  have hp := apart.sound s hP
  simp only [hp, Bool.false_eq_true, if_false]
  cases ht : (pool.get s).takeIdle? key with
  | some taken => exact ⟨⟨_, rfl⟩, apart.kept s _ hP ((poisoned_takeIdle? ht).trans hp)⟩
  | none => exact ⟨⟨_, rfl⟩, apart.kept s _ hP hp⟩

theorem release_leads (apart : Apart pool P) (object : τ) :
    Effect.Leads P (release pool key object) fun _ => P := by
  refine (Effect.Leads.read apart.same).bind fun p => ?_
  intro s log hs
  obtain ⟨rfl, hP⟩ := hs
  have hp := apart.sound s hP
  simp only [hp, Bool.false_eq_true, if_false]
  exact apart.kept s _ hP ((poisoned_giveBack ..).trans hp)

end Pool

namespace QueryPool

variable {σ α : Type} {pool : Place σ QueryPool} {P : σ → Prop} {d : Sql.Dialect} {shape : Shape}
  {statement : Statement}

theorem release_leads (apart : Pool.Apart pool P) (q : Query) :
    Effect.Leads P (release pool q) fun _ => P :=
  Pool.release_leads apart q.reset

/-- A query is compiled as its statement is written, or fails as that does. -/
theorem compile_verdict (apart : Pool.Apart pool P) :
    Action.Leads P (compile pool d shape statement) fun r s =>
      Outcome.verdict r = Outcome.verdict (statement.pieces d) ∧ P s := by
  refine (Pool.lease_leads apart).bind (fun blank => ?_) (by simp)
  cases hps : statement.pieces d with
  | ok ps =>
    obtain ⟨q, hc⟩ : ∃ q, blank.compile d statement = .ok q := by
      simp [Query.compile, hps]
    simp only [hc]
    exact fun s log hs => ⟨rfl, hs.2⟩
  | error f =>
    have hc : blank.compile d statement = .error f := by
      simp [Query.compile, hps]
    simp only [hc]
    have released := Action.Leads.effect (release_leads apart blank)
    refine (released.mono (fun _ hs => hs.2) fun _ _ h => h).bind (fun _ => ?_) (by simp)
    refine (Action.Leads.of (.error f)).mono (fun _ ⟨_, _, hs⟩ => hs) ?_
    intro r s h
    obtain ⟨rfl, hs⟩ := h
    exact ⟨rfl, hs⟩

/-- What can be written is compiled. -/
theorem compile_leads (apart : Pool.Apart pool P) :
    Action.Leads P (compile pool d shape statement) fun r s =>
      ((∃ q, r = .ok q) ↔ ∃ ps, statement.pieces d = .ok ps) ∧ P s := by
  refine (compile_verdict apart).mono (fun _ h => h) fun r s h => ?_
  rw [← Outcome.verdict_eq_ok, ← Outcome.verdict_eq_ok, h.1]
  exact ⟨Iff.rfl, h.2⟩

/-- The work is done with a query in hand where the statement can be written; otherwise the failure
is that of writing it. -/
theorem during_verdict {work : Query → Action σ α} {Q : Outcome α → σ → Prop}
    (apart : Pool.Apart pool P) (after : ∀ r, Pool.Apart pool (Q r))
    (written : (∃ ps, statement.pieces d = .ok ps) → ∀ q, Action.Leads P (work q) Q)
    (unwritten : ∀ f, statement.pieces d = .error f → ∀ s, P s → Q (.error f) s) :
    Action.Leads P (during pool d shape statement work) Q := by
  refine (compile_verdict apart).bind (fun q => ?_) fun f s hs => ?_
  · intro s log hs
    have can := Outcome.verdict_eq_ok.mp hs.1.symm
    exact (Action.Leads.ensuring (written can q) fun r => release_leads (after r) q) s log hs.2
  · exact unwritten f (Outcome.verdict_eq_error.mp hs.1.symm) s hs.2

theorem during_leads {work : Query → Action σ α} {Q : Outcome α → σ → Prop}
    (apart : Pool.Apart pool P) (after : ∀ r, Pool.Apart pool (Q r))
    (written : (∃ ps, statement.pieces d = .ok ps) → ∀ q, Action.Leads P (work q) Q)
    (unwritten : (¬∃ ps, statement.pieces d = .ok ps) → ∀ f s, P s → Q (.error f) s) :
    Action.Leads P (during pool d shape statement work) Q :=
  during_verdict apart after written fun f failed => unwritten (by simp [failed]) f

end QueryPool
end DataAccess
