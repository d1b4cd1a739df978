import DataAccess.Proofs.Effect

/-!
Two operations side by side. What they start from is related; they give the same and leave things
related. With equal things on both sides this is an invariant.
-/
namespace DataAccess

variable {σ τ α β : Type}

namespace Effect

def Alike (R : Env σ → Env σ → Prop) (e e' : Effect σ α) : Prop :=
  ∀ env env', R env env' → (e env).1 = (e' env').1 ∧ R (e env).2 (e' env').2

/-- Logging leaves things related. -/
def Logs (R : Env σ → Env σ → Prop) : Prop :=
  ∀ level message env env', R env env' → R (log level message env).2 (log level message env').2

namespace Alike

variable {R : Env σ → Env σ → Prop}

theorem pure (a : α) : Alike R (pure a) (pure a) := fun _ _ h => ⟨rfl, h⟩

theorem log (logs : Logs R) (level : Level) (message : String) :
    Alike R (log level message) (log level message) :=
  fun env env' h => ⟨rfl, logs level message env env' h⟩

theorem bind {e e' : Effect σ α} {f f' : α → Effect σ β} (he : Alike R e e')
    (hf : ∀ a, Alike R (f a) (f' a)) : Alike R (e >>= f) (e' >>= f') := by
  intro env env' h
  obtain ⟨same, h⟩ := he env env' h
  have next := hf (e env).1 (e env).2 (e' env').2 h
  rw [run_bind, run_bind, ← same]
  exact next

end Alike

/-- The same on both sides, and a fact of it. -/
def Kept (P : σ → Prop) (env env' : Env σ) : Prop := env = env' ∧ P env.state

/-- What holds of a state before holds after. -/
abbrev Keeps (P : σ → Prop) (e : Effect σ α) : Prop := Alike (Kept P) e e

theorem logs_kept (P : σ → Prop) : Logs (Kept P) :=
  fun _ _ _ _ ⟨same, hs⟩ => ⟨same ▸ rfl, hs⟩

theorem log_keeps {P : σ → Prop} (level : Level) (message : String) :
    Keeps P (log level message) := .log (logs_kept P) level message

theorem state_keeps {P : σ → Prop} : Keeps P state := fun _ _ ⟨same, hs⟩ => ⟨same ▸ rfl, same, hs⟩

namespace Alike

variable {P : σ → Prop} {e e' : Effect σ α}

theorem of_same (same : ∀ s log, P s → e' ⟨s, log⟩ = e ⟨s, log⟩) (h : Leads P e fun _ => P) :
    Alike (Kept P) e e' := by
  intro env env' ⟨he, hs⟩
  obtain rfl := he
  have run : e' env = e env := same env.state env.log hs
  rw [run]
  exact ⟨rfl, rfl, h env.state env.log hs⟩

theorem of_leads (h : Leads P e fun _ => P) : Keeps P e := of_same (fun _ _ _ => rfl) h

theorem leads (h : Keeps P e) : Leads P e fun _ => P :=
  fun s log hs => (h ⟨s, log⟩ ⟨s, log⟩ ⟨rfl, hs⟩).2.2

end Alike

end Effect

namespace Action

def Alike (R : Env σ → Env σ → Prop) (a a' : Action σ α) : Prop := Effect.Alike R a.run a'.run

abbrev Keeps (P : σ → Prop) (a : Action σ α) : Prop := Alike (Effect.Kept P) a a

namespace Alike

variable {R : Env σ → Env σ → Prop}

theorem pure (a : α) : Alike R (pure a) (pure a) := fun _ _ h => ⟨rfl, h⟩
theorem of (r : Outcome α) : Alike R (of r) (of r) := fun _ _ h => ⟨rfl, h⟩

theorem effect {e e' : Effect σ α} (h : Effect.Alike R e e') :
    Alike R (effect e) (effect e') := fun env env' hs =>
  ⟨congrArg Except.ok (h env env' hs).1, (h env env' hs).2⟩

theorem fail (logs : Effect.Logs R) (f : Failure) : Alike R (fail f : Action σ α) (fail f) :=
  fun env env' h => ⟨rfl, logs .error f.inline env env' h⟩

theorem bind {a a' : Action σ α} {f f' : α → Action σ β} (ha : Alike R a a')
    (hf : ∀ x, Alike R (f x) (f' x)) : Alike R (a >>= f) (a' >>= f') := by
  have next (r : Outcome α) : Effect.Alike R (ExceptT.bindCont f r) (ExceptT.bindCont f' r) := by
    cases r with
    | ok x => exact hf x
    | error e => exact .pure _
  exact Effect.Alike.bind ha next

/-- First steps that succeed may give different things. -/
theorem bind_of_ok {a a' : Action σ α} {f f' : α → Action σ β}
    (h : ∀ env env', R env env' → ∃ x x' next next', a env = (.ok x, next) ∧
      a' env' = (.ok x', next') ∧ R next next' ∧ Alike R (f x) (f' x')) :
    Alike R (a >>= f) (a' >>= f') := by
  intro env env' hs
  obtain ⟨x, x', next, next', ha, ha', hn, hf⟩ := h env env' hs
  have left : (a >>= f) env = f x next := Action.bind_of_ok ha
  have right : (a' >>= f') env' = f' x' next' := Action.bind_of_ok ha'
  have done := hf next next' hn
  change ((a >>= f) env).1 = ((a' >>= f') env').1 ∧ R ((a >>= f) env).2 ((a' >>= f') env').2
  rw [left, right]
  exact done

theorem ensuring {a a' : Action σ α} {cleanup cleanup' : Effect σ Unit} (ha : Alike R a a')
    (hc : Effect.Alike R cleanup cleanup') :
    Alike R (ensuring a cleanup) (ensuring a' cleanup') :=
  Effect.Alike.bind ha fun r => hc.bind fun _ => Effect.Alike.pure r

theorem oneByOne {change change' : α → Action σ Affected}
    (each : ∀ item, Alike R (change item) (change' item)) (items : List α) :
    Alike R (Backend.oneByOne change items) (Backend.oneByOne change' items) := by
  unfold Backend.oneByOne
  generalize Affected.ofRows 0 = sum
  induction items generalizing sum with
  | nil => exact .pure sum
  | cons item rest ih =>
    rw [List.foldlM_cons, List.foldlM_cons]
    exact ((each item).bind fun done => .pure (sum.append done)).bind ih

end Alike
end Action
end DataAccess
