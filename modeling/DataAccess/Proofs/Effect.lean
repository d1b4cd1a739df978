import DataAccess.Backend
import DataAccess.Proofs.Keyed
import Mathlib.Tactic.Choose

/-!
What operations lead to. The log is left out: no operation reads it. Of a result that is known from
before, a failure is known by its kind: its text shows the query, and a pool hands out one query or
another.
-/
namespace DataAccess

variable {σ τ υ κ α β : Type}

namespace Effect

theorem run_state (env : Env σ) : state env = (env.state, env) := rfl

/-- Reading a part writes it back, so the part has to put up with that. -/
theorem run_read {p : Place σ τ} {s : σ} (same : p.set (p.get s) s = s) (log : List LogRecord) :
    read p ⟨s, log⟩ = (p.get s, ⟨s, log⟩) := by
  change (p.get s, (⟨p.set (p.get s) s, log⟩ : Env σ)) = _
  rw [same]

/-- From a state as in `P`, to a result and a state as in `Q`. -/
def Leads (P : σ → Prop) (e : Effect σ α) (Q : α → σ → Prop) : Prop :=
  ∀ s log, P s → Q (e ⟨s, log⟩).1 (e ⟨s, log⟩).2.state

namespace Leads

variable {P P' : σ → Prop} {Q Q' : α → σ → Prop} {R : β → σ → Prop}

theorem mono {e : Effect σ α} (h : Leads P e Q) (pre : ∀ s, P' s → P s)
    (post : ∀ a s, Q a s → Q' a s) : Leads P' e Q' :=
  fun s log hs => post _ _ (h s log (pre s hs))

theorem bind {e : Effect σ α} {f : α → Effect σ β} (he : Leads P e Q)
    (hf : ∀ a, Leads (Q a) (f a) R) : Leads P (e >>= f) R :=
  fun s log hs => hf _ _ _ (he s log hs)

theorem pure (a : α) : Leads P (pure a) fun b s => b = a ∧ P s := fun _ _ hs => ⟨rfl, hs⟩

theorem log (level : Level) (message : String) : Leads P (log level message) fun _ => P :=
  fun _ _ hs => hs

theorem state : Leads P state fun s s' => s = s' ∧ P s' := fun _ _ hs => ⟨rfl, hs⟩

theorem read {p : Place σ τ} (same : ∀ s, p.set (p.get s) s = s) :
    Leads P (read p) fun t s => t = p.get s ∧ P s := by
  intro s log hs
  rw [run_read (same s)]
  exact ⟨rfl, hs⟩

theorem write (p : Place σ τ) (t : τ) : Leads P (write p t) fun _ s' => ∃ s, s' = p.set t s ∧ P s :=
  fun s _ hs => ⟨s, rfl, hs⟩

/-- An effect on a part leads there, the rest being as it was. -/
theorem within (p : Place σ τ) {e : Effect τ α} {P : τ → Prop} {Q : α → τ → Prop}
    (h : Leads P e Q) (w : σ) (hw : P (p.get w)) :
    Leads (· = w) (within p e) fun a w' => ∃ t, Q a t ∧ w' = p.set t w := by
  intro s log h
  obtain rfl := h
  exact ⟨_, h (p.get s) log hw, rfl⟩

end Leads
end Effect

namespace Action

/-- The same for operations that may fail. -/
def Leads (P : σ → Prop) (a : Action σ α) (Q : Outcome α → σ → Prop) : Prop :=
  Effect.Leads P a.run Q

namespace Leads

variable {P P' : σ → Prop} {Q Q' : Outcome α → σ → Prop} {R : Outcome β → σ → Prop}

theorem mono {a : Action σ α} (h : Leads P a Q) (pre : ∀ s, P' s → P s)
    (post : ∀ r s, Q r s → Q' r s) : Leads P' a Q' :=
  Effect.Leads.mono h pre post

/-- A fact that has nothing to do with the state. -/
theorem given {φ : Prop} {a : Action σ α} (h : φ → Leads P a Q) : Leads (fun s => φ ∧ P s) a Q :=
  fun s log hs => h hs.1 s log hs.2

/-- The next step is taken after success; a failure is the whole's. -/
theorem bind {a : Action σ α} {f : α → Action σ β} (ha : Leads P a Q)
    (hf : ∀ x, Leads (Q (.ok x)) (f x) R) (failed : ∀ e s, Q (.error e) s → R (.error e) s) :
    Leads P (a >>= f) R := by
  refine Effect.Leads.bind (f := ExceptT.bindCont f) ha fun r => ?_
  cases r with
  | ok x => exact hf x
  | error e => exact fun s log hs => failed e s hs

theorem pure (x : α) : Leads P (pure x) fun r s => r = .ok x ∧ P s := fun _ _ hs => ⟨rfl, hs⟩

theorem of (r : Outcome α) : Leads P (of r) fun r' s => r' = r ∧ P s := fun _ _ hs => ⟨rfl, hs⟩

theorem effect {e : Effect σ α} {Q : α → σ → Prop} (h : Effect.Leads P e Q) :
    Leads P (effect e) fun r s => ∃ x, r = .ok x ∧ Q x s :=
  fun s log hs => ⟨_, rfl, h s log hs⟩

theorem fail (f : Failure) : Leads P (fail f : Action σ α) fun r s => r = .error f ∧ P s :=
  fun _ _ hs => ⟨rfl, hs⟩

theorem ensuring {a : Action σ α} {cleanup : Effect σ Unit} {R : Outcome α → σ → Prop}
    (ha : Leads P a Q) (hc : ∀ r, Effect.Leads (Q r) cleanup fun _ => R r) :
    Leads P (ensuring a cleanup) R :=
  Effect.Leads.bind ha fun r => (hc r).bind fun _ => (Effect.Leads.pure r).mono (fun _ h => h)
    fun _ _ h => h.1 ▸ h.2

theorem within (p : Place σ τ) {a : Action τ α} {P : τ → Prop} {Q : Outcome α → τ → Prop}
    (h : Leads P a Q) (w : σ) (hw : P (p.get w)) :
    Leads (· = w) (within p a) fun r w' => ∃ t, Q r t ∧ w' = p.set t w :=
  Effect.Leads.within p h w hw

end Leads

theorem bind_of_ok {a : Action σ α} {f : α → Action σ β} {env env' : Env σ} {x : α}
    (h : a env = (.ok x, env')) : (a >>= f) env = f x env' := by
  change ExceptT.bindCont f (a env).1 (a env).2 = _
  rw [h]
  rfl

theorem bind_of_error {a : Action σ α} {f : α → Action σ β} {env env' : Env σ} {e : Failure}
    (h : a env = (.error e, env')) : (a >>= f) env = (.error e, env') := by
  change ExceptT.bindCont f (a env).1 (a env).2 = _
  rw [h]
  rfl

theorem bind_effect (e : Effect σ α) (f : α → Action σ β) (env : Env σ) :
    (effect e >>= f) env = f (e env).1 (e env).2 := rfl

theorem bind_of {r : Outcome α} {f : α → Action σ β} {env : Env σ} {x : α} (h : r = .ok x) :
    (of r >>= f) env = f x env := by
  rw [h]
  rfl

theorem run_map (g : α → β) (a : Action σ α) (env : Env σ) :
    (g <$> a) env = ((a env).1.map g, (a env).2) := by
  rw [map_eq_pure_bind]
  rcases h : a env with ⟨e | x, env'⟩
  · exact bind_of_error h
  · exact bind_of_ok h

/-- What is done with a result, without an effect of its own. -/
theorem run_bind_of (a : Action σ α) (f : α → Outcome β) (env : Env σ) :
    (a >>= fun x => of (f x)) env = ((a env).1 >>= f, (a env).2) := by
  rcases h : a env with ⟨e | x, env'⟩
  · exact bind_of_error h
  · exact bind_of_ok h

theorem run_ensuring (a : Action σ α) (cleanup : Effect σ Unit) (env : Env σ) :
    ensuring a cleanup env = ((a env).1, (cleanup (a env).2).2) := rfl

theorem ensuring_map (g : α → β) (a : Action σ α) (cleanup : Effect σ Unit) :
    ensuring (g <$> a) cleanup = g <$> ensuring a cleanup := by
  funext env
  rw [run_map, run_ensuring, run_ensuring, run_map]

end Action

namespace Place

/-- What is set is got, and only the last that was set counts. -/
structure Lawful (p : Place σ τ) : Prop where
  get_set : ∀ t s, p.get (p.set t s) = t
  set_set : ∀ t u s, p.set u (p.set t s) = p.set u s

theorem Lawful.comp {p : Place σ τ} {q : Place τ υ} (hp : p.Lawful) (hq : q.Lawful) :
    (p.comp q).Lawful where
  get_set t s := by simp [Place.comp, hp.get_set, hq.get_set]
  set_set t u s := by simp [Place.comp, hp.get_set, hp.set_set, hq.set_set]

theorem lawful_entry [DecidableEq κ] (key : κ) (absent : τ) : (entry key absent).Lawful where
  get_set t s := by simp [entry, Keyed.find?_put_self]
  set_set t u s := by simp [entry, Keyed.put_put]

end Place

section Within

variable {p : Place σ τ}

theorem Effect.run_bind (e : Effect σ α) (f : α → Effect σ β) (env : Env σ) :
    (e >>= f) env = f (e env).1 (e env).2 := rfl

theorem Effect.run_within (e : Effect τ α) (env : Env σ) : Effect.within p e env =
    ((e ⟨p.get env.state, env.log⟩).1, ⟨p.set (e ⟨p.get env.state, env.log⟩).2.state env.state,
      (e ⟨p.get env.state, env.log⟩).2.log⟩) := rfl

theorem Action.run_within (a : Action τ α) (env : Env σ) : Action.within p a env =
    ((a ⟨p.get env.state, env.log⟩).1, ⟨p.set (a ⟨p.get env.state, env.log⟩).2.state env.state,
      (a ⟨p.get env.state, env.log⟩).2.log⟩) := rfl

/-- Steps in a part are steps of the whole. -/
theorem Action.within_bind (lawful : p.Lawful) (a : Action τ α) (f : α → Action τ β) :
    Action.within p (a >>= f) = Action.within p a >>= fun x => Action.within p (f x) := by
  funext env
  have run {σ : Type} (a : Action σ α) (f : α → Action σ β) (env : Env σ) :
      (a >>= f) env = ExceptT.bindCont f (a env).1 (a env).2 := rfl
  rw [run, run_within, run_within, run]
  cases (a ⟨p.get env.state, env.log⟩).1 with
  | error e => rfl
  | ok x =>
    change _ = Action.within p (f x) _
    rw [run_within, lawful.get_set, lawful.set_set]
    rfl

theorem Action.within_map (g : α → β) (a : Action τ α) :
    Action.within p (g <$> a) = g <$> Action.within p a := by
  funext env
  rw [run_map, run_within, run_within, run_map]

namespace Backend

theorem collect_within (lawful : p.Lawful) (b : Backend τ) (q : Query)
    (read : LabeledRow → Outcome α) :
    (b.within p).collect q read = Action.within p (b.collect q read) := by
  funext env
  change (Effect.within p (b.execute q (collecting read) []) >>= fun x =>
      Effect.within p (b.dispose q) >>= fun _ => pure (x.2.map fun _ => x.1)) env =
    Effect.within p (b.execute q (collecting read) [] >>= fun x =>
      b.dispose q >>= fun _ => pure (x.2.map fun _ => x.1)) env
  simp only [Effect.run_bind, Effect.run_within, lawful.get_set, lawful.set_set]
  rfl

/-- Fetching from a part is fetching there. -/
theorem fetch_within (lawful : p.Lawful) (b : Backend τ) (m : Mapping) (c : Criteria) :
    (b.within p).fetch m c = Action.within p (b.fetch m c) := by
  unfold fetch
  rw [Action.within_bind lawful]
  simp only [← collect_within lawful]
  rfl

end Backend

end Within

namespace Action

variable {P : σ → Prop}

/-- A result known from before, of a failure its kind, in a state as it was. -/
def Settles (P : σ → Prop) (a : Action σ α) (x : Except (Option FailureKind) α) : Prop :=
  Leads P a fun r s => r.mapError Failure.kind? = x ∧ P s

/-- Some result is known from before. -/
def Settled (P : σ → Prop) (a : Action σ α) : Prop := ∃ x, Settles P a x

namespace Settles

theorem of (r : Outcome α) : Settles P (of r) (r.mapError Failure.kind?) :=
  fun _ _ hs => ⟨rfl, hs⟩

theorem pure (a : α) : Settles P (pure a) (.ok a) := fun _ _ hs => ⟨rfl, hs⟩

theorem log (level : Level) (message : String) :
    Settles P (effect (Effect.log level message)) (.ok ()) := fun _ _ hs => ⟨rfl, hs⟩

theorem bind {a : Action σ α} {f : α → Action σ β} {x : Except (Option FailureKind) α}
    {y : α → Except (Option FailureKind) β} (ha : Settles P a x) (hf : ∀ v, Settles P (f v) (y v)) :
    Settles P (a >>= f) (x >>= y) := by
  refine Leads.bind ha (fun v => Leads.given fun hv => ?_) fun e s ⟨he, hs⟩ => ?_
  · obtain rfl : .ok v = x := hv
    exact hf v
  · obtain rfl : .error e.kind? = x := he
    exact ⟨rfl, hs⟩

theorem ensuring {a : Action σ α} {cleanup : Effect σ Unit} {x : Except (Option FailureKind) α}
    (ha : Settles P a x) (hc : Effect.Leads P cleanup fun _ => P) :
    Settles P (ensuring a cleanup) x :=
  Leads.ensuring ha fun _ s log ⟨hr, hs⟩ => ⟨hr, hc s log hs⟩

end Settles

theorem Settled.bind {a : Action σ α} {f : α → Action σ β} (ha : Settled P a)
    (hf : ∀ v, Settled P (f v)) : Settled P (a >>= f) := by
  obtain ⟨x, hx⟩ := ha
  choose y hy using hf
  exact ⟨x >>= y, hx.bind hy⟩

end Action

end DataAccess
