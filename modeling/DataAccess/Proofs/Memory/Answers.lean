import DataAccess.Proofs.Memory.Fetch

/-!
What is answered to those who count, change or delete rows, of a failure its kind. Criteria are
checked, a statement is written, and then the tables decide.
-/
namespace DataAccess.Memory

open Outcome

variable {t : Tables} {m : Mapping} {c : Criteria} {α β : Type}

/-- What the storage refuses fails as a statement. -/
def Refusal.kind? : Refusal → Option FailureKind
  | .storage _ => some .execution
  | .caller f => f.kind?

theorem refused_settles {P : Memory → Prop} (q : Query) (x : Change α) :
    Action.Settles P (refused q x) (x.mapError Refusal.kind?) := by
  cases x with
  | ok a => exact Action.Settles.pure a
  | error refusal =>
    cases refusal with
    | caller f => exact Action.Settles.of (.error f)
    | storage reason =>
      exact (Action.Leads.fail _).mono (fun _ h => h) fun _ _ ⟨hr, hs⟩ => ⟨hr ▸ rfl, hs⟩

/-- A result that the tables tell, of a failure its kind; the pool stays fit for use. -/
def Answers (t : Tables) (a : Action Memory α) (x : Except (Option FailureKind) α) : Prop :=
  Action.Leads (Holds t) a fun r s => r.mapError Failure.kind? = x ∧ s.queries.poisoned = false

theorem apart_fit (φ : Prop) :
    Pool.Apart queriesPlace fun s => φ ∧ s.queries.poisoned = false where
  same _ := rfl
  sound _ h := h.2
  kept _ _ h hp := ⟨h.1, hp⟩

namespace Answers

variable {a : Action Memory α} {x : Except (Option FailureKind) α}

theorem bind {f : α → Action Memory β} {y : α → Except (Option FailureKind) β}
    (ha : Action.Settles (Holds t) a x) (hf : ∀ v, Answers t (f v) (y v)) :
    Answers t (a >>= f) (x >>= y) := by
  refine Action.Leads.bind ha (fun v => Action.Leads.given fun hv => ?_) fun e s ⟨he, hs⟩ => ?_
  · obtain rfl : .ok v = x := hv
    exact hf v
  · obtain rfl : .error e.kind? = x := he
    exact ⟨rfl, hs.2⟩

/-- The result in a state where the pool is fit for use. -/
theorem result (h : Answers t a x) {s : Memory} (holds : Holds t s) (log : List LogRecord) :
    (a ⟨s, log⟩).1.mapError Failure.kind? = x :=
  (h s log holds).1

end Answers

/-- Whether a statement can be written, of a failure its kind. -/
def writing (st : Statement) : Except (Option FailureKind) Unit :=
  (verdict (st.pieces .generic)).mapError Failure.kind?

/-- A statement is written, and then its work is done. -/
theorem statement_answers {st : Statement} {work : Query → Action Memory α}
    {x : Except (Option FailureKind) α} (works : ∀ q, Answers t (work q) x) :
    Answers t (statement st work) (writing st >>= fun _ => x) := by
  refine QueryPool.during_verdict (apart_holds_eq t) (fun r => apart_fit _) ?_ ?_
  · intro ⟨ps, hps⟩ q
    have written : (writing st >>= fun _ => x) = x := by
      rw [writing, hps]
      rfl
    rw [written]
    exact Answers.bind (Action.Settles.log .debug q.display) fun _ => works q
  · intro f hf s hs
    refine ⟨?_, hs.2⟩
    rw [writing, hf]
    rfl

theorem currentTables_settles : Action.Settles (Holds t) currentTables (.ok t) :=
  currentTables_leads.mono (fun _ h => h) fun _ _ ⟨hr, hs⟩ => ⟨hr ▸ rfl, hs⟩

namespace Tables

def counted (t : Tables) (m : Mapping) (c : Criteria) : Except (Option FailureKind) Nat := do
  (c.validate m).mapError Failure.kind?
  writing (.count m c)
  let stored ← (t.rows m).mapError fun _ => some .execution
  let total ← (c.count m stored).mapError Failure.kind?
  pure (c.window.count total)

def grouped (t : Tables) (m : Mapping) (c : Criteria) (groupBy : List String) :
    Except (Option FailureKind) (List GroupCount) := do
  (c.validate m).mapError Failure.kind?
  writing (.countGrouped m c groupBy)
  let stored ← (t.rows m).mapError fun _ => some .execution
  (c.countGrouped m groupBy stored).mapError Failure.kind?

def changed (t : Tables) (st : Statement) (change : Tables → Change (Nat × Tables)) :
    Except (Option FailureKind) Affected := do
  writing st
  let (n, _) ← (change t).mapError Refusal.kind?
  pure (.ofRows n)

end Tables

theorem change_answers (st : Statement) (change : Tables → Change (Nat × Tables)) :
    Answers t (Memory.change st change) (t.changed st change) := by
  have stored (p : Nat × Tables) : Answers t
      (match p with | (n, t') => do setTables t'; pure (Affected.ofRows n) : Action Memory Affected)
      (match p with | (n, _) => pure (Affected.ofRows n)) :=
    fun s log h => ⟨rfl, (setTables_leads p.2 s log h).2.2⟩
  refine statement_answers fun q => ?_
  have work := Answers.bind currentTables_settles fun t₀ =>
    Answers.bind (refused_settles q (change t₀)) stored
  exact work

end DataAccess.Memory
