import DataAccess.Proofs.Join.Counted
import DataAccess.Proofs.Memory.Mistakes

/-!
When a caller's mistake in a join is told. A join over storages in process looks at its expressions,
its sort keys and the filter of one side before it reads anything; the filter of the other side is
looked at after the first rows have come.
-/
namespace DataAccess

open Outcome

/-- Mistakes in criteria are told whatever is stored, and rows are fetched where they can be. -/
structure Source.Tells {σ : Type} (P : σ → Prop) (s : Source σ) (fetches : Criteria → Prop) :
    Prop where
  told : ∀ k, Action.Tells P (s.backend.fetch s.mapping k) (k.validate s.mapping = .error ·)
    (fetches k)
  valid : ∀ k, fetches k → k.validate s.mapping = .ok ()

namespace Join

/-- What a join looks at when its first side is at hand. -/
def checkedBefore (first second : Mapping) (c : JoinCriteria) : Outcome Unit := do
  let _ ← JoinPlan.ofCriteria first second c
  (sideCriteria c .left).validate first

/-- What is looked at before any row is fetched. -/
def checkedAhead (m n : Mapping) (c : JoinCriteria) : Outcome Unit := do
  c.validate
  if c.kind = .rightOuter then checkedBefore n m (← c.flip) else checkedBefore m n c

/-- What is looked at once one side has its rows. -/
def checkedBetween (m n : Mapping) (c : JoinCriteria) : Outcome Unit := do
  if c.kind = .rightOuter then (sideCriteria (← c.flip) .right).validate m
  else (sideCriteria c .right).validate n

section

variable {σ : Type} {P : σ → Prop} {l r first second : Source σ} {c turned : JoinCriteria}
  {good good' : Criteria → Prop}

/-- The side that is fetched first, the other one, and the criteria for this order. -/
inductive InOrder (l r : Source σ) (c : JoinCriteria) : Source σ → Source σ → JoinCriteria → Prop
  | straight (kind : c.kind ≠ .rightOuter) : InOrder l r c l r c
  | turned {turned : JoinCriteria} (kind : c.kind = .rightOuter) (flips : c.flip = .ok turned) :
    InOrder l r c r l turned

namespace InOrder

theorem fromKeptSide_eq {α : Type} (order : InOrder l r c first second turned)
    (run : Bool → Source σ → Source σ → JoinCriteria → Action σ α) :
    fromKeptSide l r c run = Action.of c.validate >>= fun _ =>
      run (decide (c.kind = .rightOuter)) first second turned := by
  refine bind_congr fun _ => ?_
  cases order with
  | straight kind => rw [if_neg kind, decide_eq_false kind]
  | turned kind flips =>
    rw [if_pos kind, flips, decide_eq_true kind]
    rfl

theorem either_eq {β : Type} (order : InOrder l r c first second turned)
    (check : Mapping → Mapping → JoinCriteria → Outcome β) :
    (if c.kind = .rightOuter then c.flip >>= check r.mapping l.mapping
      else check l.mapping r.mapping c) = check first.mapping second.mapping turned := by
  cases order with
  | straight kind => rw [if_neg kind]
  | turned kind flips =>
    rw [if_pos kind, flips]
    rfl

theorem checkedAhead_eq (order : InOrder l r c first second turned) :
    checkedAhead l.mapping r.mapping c =
      c.validate >>= fun _ => checkedBefore first.mapping second.mapping turned :=
  bind_congr fun _ => order.either_eq checkedBefore

theorem checkedBetween_eq (order : InOrder l r c first second turned) :
    checkedBetween l.mapping r.mapping c =
      (sideCriteria turned .right).validate second.mapping :=
  order.either_eq fun _ second c => (sideCriteria c .right).validate second

end InOrder

theorem planned_tells (m n : Mapping) (c : JoinCriteria) :
    Action.Tells P (planned m n c : Action σ JoinPlan) (JoinPlan.ofCriteria m n c = .error ·)
      (∃ p, JoinPlan.ofCriteria m n c = .ok p) :=
  (Action.Tells.of _).onward fun p => (Action.Tells.log _ _).onward fun _ => .pure p

/-- A mistake is told where the first look finds it, or where the first rows come and the second
look finds it. -/
theorem loaded_tells (ahead : l.Tells P good) (behind : r.Tells P good') (c : JoinCriteria) :
    Action.Tells P (loaded l r c)
      (fun f => JoinPlan.ofCriteria l.mapping r.mapping c = .error f ∨
        (∃ p, JoinPlan.ofCriteria l.mapping r.mapping c = .ok p) ∧
          ((sideCriteria c .left).validate l.mapping = .error f ∨
            good (sideCriteria c .left) ∧ (sideCriteria c .right).validate r.mapping = .error f))
      ((∃ p, JoinPlan.ofCriteria l.mapping r.mapping c = .ok p) ∧
        good (sideCriteria c .left) ∧ good' (sideCriteria c .right)) :=
  (planned_tells l.mapping r.mapping c).bind fun _ => (ahead.told _).bind fun _ =>
    (behind.told _).onward fun _ => .pure _

theorem checkedBefore_eq_error {first second : Mapping} {f : Failure} :
    checkedBefore first second c = .error f ↔ JoinPlan.ofCriteria first second c = .error f ∨
      (∃ p, JoinPlan.ofCriteria first second c = .ok p) ∧
        (sideCriteria c .left).validate first = .error f := by
  unfold checkedBefore
  cases JoinPlan.ofCriteria first second c <;> simp

theorem checkedBefore_eq_ok {first second : Mapping} :
    checkedBefore first second c = .ok () ↔ (∃ p, JoinPlan.ofCriteria first second c = .ok p) ∧
      (sideCriteria c .left).validate first = .ok () := by
  unfold checkedBefore
  cases JoinPlan.ofCriteria first second c <;> simp

theorem here_told (order : InOrder l r c first second turned) (ahead : first.Tells P good)
    (behind : second.Tells P good') :
    Action.Leads P (here l r c) fun res w => (∀ f, Misconfigured f →
      (res = .error f ↔ checkedAhead l.mapping r.mapping c = .error f ∨
        checkedAhead l.mapping r.mapping c = .ok () ∧ good (sideCriteria turned .left) ∧
          checkedBetween l.mapping r.mapping c = .error f)) ∧ P w := by
  have run {α : Type} (finish : JoinPlan × List Row × List Row → α) :=
    (Action.Tells.of c.validate).bind fun _ =>
      (loaded_tells ahead behind turned).onward fun loaded => .pure (finish loaded)
  unfold here
  rw [order.fromKeptSide_eq]
  refine (run _).mono (fun _ h => h) fun res w ⟨told, _, hs⟩ => ⟨fun f hf => ?_, hs⟩
  rw [told f hf, order.checkedAhead_eq, order.checkedBetween_eq]
  have valid := ahead.valid (sideCriteria turned .left)
  cases c.validate with
  | error e => simp
  | ok u =>
    change _ ↔ checkedBefore _ _ turned = .error f ∨ checkedBefore _ _ turned = .ok () ∧ _
    rw [checkedBefore_eq_error, checkedBefore_eq_ok]
    constructor
    · rintro (⟨⟨⟩⟩ | ⟨-, plan | ⟨planned, first | ⟨fetched, second⟩⟩⟩)
      · exact .inl (.inl plan)
      · exact .inl (.inr ⟨planned, first⟩)
      · exact .inr ⟨⟨planned, valid fetched⟩, fetched, second⟩
    · rintro ((plan | ⟨planned, first⟩) | ⟨⟨planned, -⟩, fetched, second⟩)
      · exact .inr ⟨⟨u, rfl⟩, .inl plan⟩
      · exact .inr ⟨⟨u, rfl⟩, .inr ⟨planned, .inl first⟩⟩
      · exact .inr ⟨⟨u, rfl⟩, .inr ⟨planned, .inr ⟨fetched, second⟩⟩⟩

end
end Join

namespace Storages

variable {w : Storages}

/-- A storage in process that is fit for use, with any tables. -/
structure Ready (w : Storages) where
  name : String
  memory : Memory
  found : w.memories.find? name = some memory
  fit : memory.queries.poisoned = false

/-- A table of the storage, as it is reached by the storage's name. -/
def Ready.source (s : w.Ready) (m : Mapping) : Source Storages :=
  ⟨(Memory.backend s.memory.descriptor).within (memoryPlace s.name s.memory), m⟩

/-- Criteria by which rows come from the table. -/
def Ready.Fetches (s : w.Ready) (m : Mapping) (k : Criteria) : Prop :=
  ∃ rows, s.memory.tables.fetched m k = .ok rows

theorem Ready.tells (s : w.Ready) (m : Mapping) : (s.source m).Tells w.Alike (s.Fetches m) where
  told k := by
    rw [source, Backend.fetch_within (lawful_memoryPlace s.name s.memory)]
    have told := Memory.fetch_tells (t := s.memory.tables) s.memory.descriptor m k
    have regrouped := told.mono (fun _ h => h) fun _ _ ⟨mistakes, done, hs⟩ =>
      And.intro (And.intro mistakes done) hs
    exact (within_leads s.found s.fit regrouped).mono (fun _ h => h)
      fun _ _ ⟨⟨mistakes, done⟩, hs⟩ => ⟨mistakes, done, hs⟩
  valid k := fun ⟨_, h⟩ => Memory.Tables.valid_of_fetched h

end Storages

namespace Join

open Storages

variable {w : Storages} {m n : Mapping} {c : JoinCriteria}

/-- A mistake that is told of a join, or of counting it, in one state of the storages is told in
every state. -/
def MistakesSettled (m n : Mapping) (c : JoinCriteria) : Prop :=
  ∀ (w w' : Storages) (l r : w.Ready) (l' r' : w'.Ready) (log log' : List LogRecord) (f : Failure),
    Misconfigured f →
      ((here (l.source m) (r.source n) c ⟨w, log⟩).1 = .error f →
        (here (l'.source m) (r'.source n) c ⟨w', log'⟩).1 = .error f) ∧
      ((countHere (l.source m) (r.source n) c ⟨w, log⟩).1 = .error f →
        (countHere (l'.source m) (r'.source n) c ⟨w', log'⟩).1 = .error f)

theorem countHere_eq_error {σ : Type} {l r : Source σ} {env : Env σ} {f : Failure} :
    (countHere l r c env).1 = .error f ↔ (here l r c env).1 = .error f := by
  have mapped : (countHere l r c env).1 = (here l r c env).1.map List.length := by
    rw [countHere_eq]
    exact congrArg Prod.fst (congrFun (ExceptT.run_map _ (here l r c)) env)
  rw [mapped]
  cases (here l r c env).1 <;> simp [Except.map]

/-- The rows of the side that is fetched first can be had. -/
def Begins (l r : w.Ready) (m n : Mapping) (c : JoinCriteria) : Prop :=
  if c.kind = .rightOuter then
    ∃ turned, c.flip = .ok turned ∧ r.Fetches n (sideCriteria turned .left)
  else l.Fetches m (sideCriteria c .left)

/-- What a join tells in some state: a mistake that is seen ahead of all fetching, or one that is
seen in between, if it gets there. -/
theorem here_eq_error_iff (l r : w.Ready) (log : List LogRecord) {f : Failure}
    (mistake : Misconfigured f) : (here (l.source m) (r.source n) c ⟨w, log⟩).1 = .error f ↔
      checkedAhead m n c = .error f ∨
        checkedAhead m n c = .ok () ∧ Begins l r m n c ∧ checkedBetween m n c = .error f := by
  by_cases kind : c.kind = .rightOuter
  · obtain ⟨turned, flips⟩ := exists_flip kind
    have told := here_told (.turned kind flips) (r.tells n) (l.tells m) w log fun _ => rfl
    simp only [Begins, if_pos kind, flips, Except.ok.injEq, exists_eq_left']
    exact told.1 f mistake
  · have told := here_told (.straight kind) (l.tells m) (r.tells n) w log fun _ => rfl
    simp only [Begins, if_neg kind]
    exact told.1 f mistake

theorem checkedBetween_failsAs (m n : Mapping) (c : JoinCriteria) :
    FailsAs Misconfigured (checkedBetween m n c) := by
  unfold checkedBetween
  split_ifs with kind
  · obtain ⟨turned, flips⟩ := exists_flip kind
    rw [flips]
    exact Criteria.validate_failsAs m _
  · exact Criteria.validate_failsAs n _

/-- A storage in process with certain tables. -/
def holding (tables : Memory.Tables) : Storages :=
  { Storages.empty with
    memories := [("only", { Memory.ofDescriptor ⟨"memory", "only", [], 4, 5000⟩ with tables })] }

def held (tables : Memory.Tables) : (holding tables).Ready := ⟨"only", _, rfl, rfl⟩

/-- From tables without rows a join gets as far as both filters. -/
theorem begins_empty (ahead : checkedAhead m n c = .ok ()) :
    Begins (held [(m.table.fullName, []), (n.table.fullName, [])]) (held _) m n c := by
  obtain ⟨_, -, ahead⟩ := bind_eq_ok.mp ahead
  have stored (name : String) (h : name = m.table.fullName ∨ name = n.table.fullName) :
      Keyed.find? name [(m.table.fullName, ([] : List Row)), (n.table.fullName, [])] = some [] := by
    by_cases same : m.table.fullName = name
    · simp [Keyed.find?, same]
    · simp [Keyed.find?, h.resolve_left (Ne.symm same)]
  unfold Begins
  split_ifs with kind
  · obtain ⟨turned, flips⟩ := exists_flip kind
    rw [if_pos kind, flips] at ahead
    exact ⟨turned, flips, Memory.Tables.fetched_empty (checkedBefore_eq_ok.mp ahead).2
      (stored _ (.inr rfl))⟩
  · rw [if_neg kind] at ahead
    exact Memory.Tables.fetched_empty (checkedBefore_eq_ok.mp ahead).2 (stored _ (.inl rfl))

/-- Without tables it does not. -/
theorem not_begins_bare : ¬Begins (held []) (held []) m n c := by
  unfold Begins
  split
  · exact fun ⟨_, _, rows, fetched⟩ => Memory.Tables.fetched_ne_ok rfl rows fetched
  · exact fun ⟨rows, fetched⟩ => Memory.Tables.fetched_ne_ok rfl rows fetched

/-- Mistakes are told or not whatever is stored, unless the filter of the side that is fetched last
is all that is wrong. -/
theorem mistakes_settled_iff (m n : Mapping) (c : JoinCriteria) :
    MistakesSettled m n c ↔ checkedAhead m n c ≠ .ok () ∨ checkedBetween m n c = .ok () := by
  constructor
  · intro settled
    by_contra unsettled
    obtain ⟨ahead, between⟩ := not_or.mp unsettled
    have ahead := not_not.mp ahead
    obtain ⟨f, failed⟩ := verdict_ne_ok.mp (by rwa [verdict_unit])
    have mistake := checkedBetween_failsAs m n c f failed
    have told := (here_eq_error_iff (held [(m.table.fullName, []), (n.table.fullName, [])])
      (held _) [] mistake).mpr (.inr ⟨ahead, begins_empty ahead, failed⟩)
    have everywhere := (settled _ _ _ _ (held []) (held []) [] [] f mistake).1 told
    rcases (here_eq_error_iff _ _ [] mistake).mp everywhere with early | ⟨-, begins, -⟩
    · cases ahead.symm.trans early
    · exact not_begins_bare begins
  · intro settled w w' l r l' r' log log' f mistake
    have same : (here (l.source m) (r.source n) c ⟨w, log⟩).1 = .error f →
        (here (l'.source m) (r'.source n) c ⟨w', log'⟩).1 = .error f := by
      rw [here_eq_error_iff l r log mistake, here_eq_error_iff l' r' log' mistake]
      rintro (early | ⟨ahead, -, failed⟩)
      · exact .inl early
      · rcases settled with never | never
        · exact absurd ahead never
        · cases never.symm.trans failed
    exact ⟨same, by rw [countHere_eq_error, countHere_eq_error]; exact same⟩

def orders : Mapping := ⟨⟨"", "orders"⟩, [.key "id" "id" .int64]⟩

def refunds : Mapping := ⟨⟨"", "refunds"⟩, [.key "id" "id" .int64]⟩

/-- Orders with their refunds of an amount, which refunds do not tell. -/
def byAmount : JoinCriteria :=
  ((JoinCriteria.ofKind .inner).on ⟨.equal, "id", "id", true⟩).withFilter .right
    (.allOf [.test "amount" (.equal (.of (.int64 1))) true])

/-- Two storages, the first with certain tables. -/
def offices (tables : Memory.Tables) : Storages :=
  { Storages.empty with
    memories := [("sales", { Memory.ofDescriptor ⟨"memory", "sales", [], 4, 5000⟩ with tables }),
      ("claims", Memory.ofDescriptor ⟨"memory", "claims", [], 4, 5000⟩)] }

def sales (tables : Memory.Tables) : (offices tables).Ready := ⟨"sales", _, rfl, rfl⟩

def claims (tables : Memory.Tables) : (offices tables).Ready := ⟨"claims", _, rfl, rfl⟩

def refunded (tables : Memory.Tables) : Outcome (List JoinedRow) :=
  (here ((sales tables).source orders) ((claims tables).source refunds) byAmount
    ⟨offices tables, []⟩).1

/-- Who asks for an amount is told that it is unknown where there are orders, and that there is no
table of orders where there are none. -/
theorem not_mistakes_settled_byAmount :
    refunded [("orders", [])] = .error (refunds.unknown "amount") ∧
    (refunded []).mapError Failure.kind? = .error (some .execution) ∧
    ¬MistakesSettled orders refunds byAmount := by
  have told : refunded [("orders", [])] = .error (refunds.unknown "amount") := rfl
  have hidden : (refunded []).mapError Failure.kind? = .error (some .execution) := rfl
  refine ⟨told, hidden, fun settled => ?_⟩
  have mistake : Misconfigured (refunds.unknown "amount") := rfl
  have everywhere : refunded [] = .error (refunds.unknown "amount") :=
    (settled _ _ (sales [("orders", [])]) (claims _) (sales []) (claims _) [] [] _ mistake).1 told
  rw [everywhere] at hidden
  cases hidden

end Join
end DataAccess
