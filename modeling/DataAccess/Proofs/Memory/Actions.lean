import DataAccess.Memory
import DataAccess.Proofs.Memory.Rows
import DataAccess.Proofs.Pool

/-!
What each request to a storage in process leads to: a change that is done, or a failure that leaves
the tables as they were.
-/
namespace DataAccess.Memory

/-- The tables, the pool being fit for use. -/
def Holds (t : Tables) (s : Memory) : Prop := s.tables = t ∧ s.queries.poisoned = false

theorem apart_holds (P : Tables → Prop) :
    Pool.Apart queriesPlace fun s => ∃ t, Holds t s ∧ P t where
  same _ := rfl
  sound _ h := h.choose_spec.1.2
  kept _ _ := fun ⟨t, h, ht⟩ hp => ⟨t, ⟨h.1, hp⟩, ht⟩

theorem apart_holds_eq (t : Tables) : Pool.Apart queriesPlace (Holds t) where
  same _ := rfl
  sound _ h := h.2
  kept _ _ h hp := ⟨h.1, hp⟩

variable {t : Tables} {P : Memory → Prop} {α : Type}

theorem currentTables_leads :
    Action.Leads (Holds t) currentTables fun r s => r = .ok t ∧ Holds t s := by
  refine (Action.Leads.effect (Effect.Leads.read fun _ => rfl)).mono (fun _ h => h) ?_
  intro _ s h
  obtain ⟨t', rfl, rfl, h⟩ := h
  exact ⟨congrArg Except.ok h.1, h⟩

theorem setTables_leads (t' : Tables) :
    Action.Leads (Holds t) (setTables t') fun r s => r = .ok () ∧ Holds t' s := by
  refine (Action.Leads.effect (Effect.Leads.write tablesPlace t')).mono (fun _ h => h) ?_
  intro _ _ h
  obtain ⟨_, rfl, s, rfl, h⟩ := h
  exact ⟨rfl, rfl, h.2⟩

/-- A refusal is a failure and nothing else. -/
theorem refused_leads (q : Query) (x : Change α) :
    Action.Leads P (refused q x) fun r s => (∀ a, r = .ok a ↔ x = .ok a) ∧ P s := by
  cases x with
  | ok a =>
    refine (Action.Leads.pure a).mono (fun _ h => h) ?_
    intro _ s h
    obtain ⟨rfl, h⟩ := h
    exact ⟨fun a' => by simp, h⟩
  | error refusal =>
    cases refusal with
    | caller f =>
      refine (Action.Leads.of (.error f)).mono (fun _ h => h) ?_
      intro _ s h
      obtain ⟨rfl, h⟩ := h
      exact ⟨fun a' => by simp, h⟩
    | storage reason =>
      refine (Action.Leads.fail _).mono (fun _ h => h) ?_
      intro _ s h
      obtain ⟨rfl, h⟩ := h
      exact ⟨fun a' => by simp, h⟩

/-- Statements that have a text. -/
def Writable (st : Statement) : Prop := ∃ ps, st.pieces .generic = .ok ps

/-- A change is done, or a failure leaves the tables as they were. -/
def Tried (t : Tables) (did : Outcome α → Tables → Prop) (r : Outcome α) (s : Memory) : Prop :=
  ∃ t', Holds t' s ∧ (did r t' ∨ ∃ f, r = .error f ∧ t' = t)

theorem statement_leads {st : Statement} {work : Query → Action Memory α}
    {did : Outcome α → Tables → Prop}
    (works : Writable st → ∀ q, Action.Leads (Holds t) (work q) (Tried t did)) :
    Action.Leads (Holds t) (statement st work) (Tried t did) := by
  refine QueryPool.during_leads (apart_holds_eq t) (fun r => apart_holds _) ?_ ?_
  · intro writable q
    refine (Action.Leads.effect (Effect.Leads.log .debug q.display)).bind (fun _ => ?_) (by simp)
    exact (works writable q).mono (fun _ h => h.choose_spec.2) fun _ _ h => h
  · exact fun _ f s h => ⟨t, h, Or.inr ⟨f, rfl, rfl⟩⟩

theorem define_leads (st : Statement) (change : Tables → Change Tables) :
    Action.Leads (Holds t) (define st change) (Tried t fun r t' =>
      r = .ok () ∧ Writable st ∧ change t = .ok t') := by
  refine statement_leads fun writable q => ?_
  refine currentTables_leads.bind (fun t₀ => ?_) (by simp)
  refine (refused_leads q (change t₀)).bind (fun t' => ?_) ?_
  · intro s log ⟨hc, ht, h⟩
    obtain rfl : t₀ = t := by simpa using ht
    obtain ⟨hr, h'⟩ := setTables_leads t' s log h
    exact ⟨t', h', Or.inl ⟨hr, writable, (hc t').mp rfl⟩⟩
  · exact fun f s h => ⟨t, h.2.2, Or.inr ⟨f, rfl, rfl⟩⟩

theorem change_leads (st : Statement) (change : Tables → Change (Nat × Tables)) :
    Action.Leads (Holds t) (Memory.change st change) (Tried t fun r t' =>
      ∃ n, r = .ok (.ofRows n) ∧ Writable st ∧ change t = .ok (n, t')) := by
  refine statement_leads fun writable q => ?_
  refine currentTables_leads.bind (fun t₀ => ?_) (by simp)
  refine (refused_leads q (change t₀)).bind (fun changed => ?_) ?_
  · obtain ⟨n, t'⟩ := changed
    intro s log ⟨hc, ht, h⟩
    obtain rfl : t₀ = t := by simpa using ht
    obtain ⟨-, h'⟩ := setTables_leads t' s log h
    exact ⟨t', h', Or.inl ⟨n, rfl, writable, (hc (n, t')).mp rfl⟩⟩
  · exact fun f s h => ⟨t, h.2.2, Or.inr ⟨f, rfl, rfl⟩⟩

theorem rows_leads (q : Query) (m : Mapping) : Action.Leads (Holds t) (rows q m) fun r s =>
    (∀ stored, r = .ok stored ↔ t.rows m = .ok stored) ∧ Holds t s := by
  refine currentTables_leads.bind (fun t₀ => ?_) (by simp)
  intro s log ⟨ht, h⟩
  obtain rfl : t₀ = t := by simpa using ht
  exact refused_leads q (t₀.rows m) s log h

theorem selected_keeps (q : Query) : Action.Leads (Holds t) (selected q) fun _ => Holds t := by
  unfold selected
  split
  · refine (rows_leads q _).bind (fun stored => ?_) fun _ _ h => h.2
    refine Action.Leads.bind ((Action.Leads.of _).mono (fun _ h => h.2) fun _ _ h => h.2)
      (fun found => ?_) fun _ _ h => h
    exact (Action.Leads.pure _).mono (fun _ h => h) fun _ _ h => h.2
  · exact (Action.Leads.of _).mono (fun _ h => h) fun _ _ h => h.2

theorem execute_leads {β : Type} (q : Query) (receive : Receiver β) (start : β) :
    Effect.Leads (Holds t) (execute q receive start) fun _ => Holds t := by
  refine Effect.Leads.bind (selected_keeps q) fun r => ?_
  cases r <;> exact fun _ _ h => h

/-- A query is compiled for criteria that can be evaluated. -/
theorem compileQuery_leads (m : Mapping) (c : Criteria) :
    Action.Leads (Holds t) (compileQuery m c) fun r s =>
      (((∃ q, r = .ok q) ↔ c.validate m = .ok () ∧ Writable (.select m c)) ∧
        ∀ q, r = .ok q → q.mapping = some m ∧ q.criteria = some c) ∧ Holds t s := by
  refine (Action.Leads.of (c.validate m)).bind (fun u => ?_) ?_
  · refine Action.Leads.given fun hv => ?_
    refine (QueryPool.compile_leads (apart_holds_eq t)).bind (fun q => ?_) ?_
    · refine Action.Leads.given fun hq => ?_
      have writable : Writable (.select m c) := hq.mp ⟨q, rfl⟩
      refine (Action.Leads.effect (Effect.Leads.log .debug q.display)).bind (fun _ => ?_) (by simp)
      refine (Action.Leads.pure _).mono (fun _ h => h.choose_spec.2) ?_
      intro r s h
      obtain ⟨rfl, h⟩ := h
      refine ⟨⟨⟨fun _ => ⟨hv.symm, writable⟩, fun _ => ⟨_, rfl⟩⟩, fun q' hq' => ?_⟩, h⟩
      obtain rfl := Except.ok.inj hq'
      exact ⟨rfl, rfl⟩
    · intro f s ⟨hq, h⟩
      have unwritable : ¬Writable (.select m c) := fun hw => by simpa using hq.mpr hw
      simp [unwritable, h]
  · intro f s ⟨hf, h⟩
    simp [← hf, h]

theorem reading_leads {st : Statement} {work : Query → Action Memory α}
    (reads : ∀ q, Action.Leads (Holds t) (work q) fun _ => Holds t) :
    Action.Leads (Holds t) (statement st work) fun _ => Holds t := by
  refine QueryPool.during_leads (apart_holds_eq t) (fun _ => apart_holds_eq t) ?_ fun _ _ _ h => h
  intro _ q
  refine (Action.Leads.effect (Effect.Leads.log .debug q.display)).bind (fun _ => ?_) (by simp)
  exact (reads q).mono (fun _ h => h.choose_spec.2) fun _ _ h => h

theorem count_leads (m : Mapping) (c : Criteria) :
    Action.Leads (Holds t) (count m c) fun _ => Holds t := by
  refine (Action.Leads.of (c.validate m)).bind (fun _ => ?_) fun _ _ h => h.2
  refine (reading_leads fun q => ?_).mono (fun _ h => h.2) fun _ _ h => h
  refine (rows_leads q m).bind (fun stored => ?_) fun _ _ h => h.2
  refine ((Action.Leads.of (c.count m stored)).mono (fun _ h => h.2) fun _ _ h => h.2).bind
    (fun total => ?_) fun _ _ h => h
  exact (Action.Leads.pure _).mono (fun _ h => h) fun _ _ h => h.2

theorem countGrouped_leads (m : Mapping) (c : Criteria) (groupBy : List String) :
    Action.Leads (Holds t) (countGrouped m c groupBy) fun _ => Holds t := by
  refine (Action.Leads.of (c.validate m)).bind (fun _ => ?_) fun _ _ h => h.2
  refine (reading_leads fun q => ?_).mono (fun _ h => h.2) fun _ _ h => h
  refine (rows_leads q m).bind (fun stored => ?_) fun _ _ h => h.2
  exact (Action.Leads.of _).mono (fun _ h => h.2) fun _ _ h => h.2

end DataAccess.Memory
