import DataAccess.Proofs.Memory.Delivered
import DataAccess.Proofs.Undecodable
import DataAccess.Scripted

/-!
Storages hand the rows of a query out one by one, the same ones to every receiver. So a row that a
receiver cannot read makes the whole reading fail, wherever it stands.
-/
namespace DataAccess

open Outcome

variable {σ α β : Type}

/-- Rows are delivered, and after the last of them the reading comes to its ending. -/
def delivering (rows : List LabeledRow) (ending : Outcome Unit) (receive : Receiver β) (start : β) :
    β × Outcome Unit :=
  let (b, taken) := deliver receive start rows
  (b, taken.bind fun _ => ending)

theorem delivering_ok (rows : List LabeledRow) (receive : Receiver β) (start : β) :
    delivering rows (.ok ()) receive start = deliver receive start rows := by
  unfold delivering
  cases deliver receive start rows with
  | mk b taken => cases taken <;> rfl

theorem delivering_keeping (rows : List LabeledRow) (ending : Outcome Unit) :
    delivering rows ending (keeping none) [] = (rows, ending) := by
  rw [delivering, deliver_keeping]
  rfl

theorem delivering_collecting (rows : List LabeledRow) (ending : Outcome Unit)
    (read : LabeledRow → Outcome α) :
    (delivering rows ending (collecting read) []).2.map
        (fun _ => (delivering rows ending (collecting read) []).1) =
      (do let found ← rows.mapM read; ending; pure found) := by
  rw [← deliver_collecting_nil]
  unfold delivering
  cases deliver (collecting read) [] rows with
  | mk found taken => cases taken <;> cases ending <;> rfl

/-- What comes of rows that were found or not. -/
def received (receive : Receiver β) (start : β) : Outcome (List LabeledRow) → β × Outcome Unit
  | .ok found => deliver receive start found
  | .error f => (start, .error f)

theorem exists_received_eq (r : Outcome (List LabeledRow)) : ∃ rows ending,
    ∀ {β : Type} (receive : Receiver β) (start : β),
      received receive start r = delivering rows ending receive start := by
  cases r with
  | ok found => exact ⟨found, .ok (), fun _ _ => (delivering_ok found _ _).symm⟩
  | error f => exact ⟨[], .error f, fun _ _ => rfl⟩

namespace Backend

variable {b : Backend σ} {q : Query} {env : Env σ} {read : LabeledRow → Outcome α}
  {p : Failure → Prop}

/-- What a query hands out does not depend on who receives it. -/
def Streams (b : Backend σ) : Prop :=
  ∀ q env, ∃ rows ending, ∀ {β : Type} (receive : Receiver β) (start : β),
    (b.execute q receive start env).1 = delivering rows ending receive start

/-- The rows of a query, all of them. -/
def delivered (b : Backend σ) (q : Query) : Effect σ (List LabeledRow) :=
  Prod.fst <$> b.execute q (keeping none) []

/-- What is read of a query is read of the rows it delivers. -/
theorem Streams.exists_read (streams : b.Streams) (q : Query) (env : Env σ) :
    ∃ ending, ∀ {α : Type} (read : LabeledRow → Outcome α),
      (b.execute q (collecting read) [] env).1.2.map
          (fun _ => (b.execute q (collecting read) [] env).1.1) =
        (do let found ← (b.delivered q env).1.mapM read; ending; pure found) := by
  obtain ⟨rows, ending, hands⟩ := streams q env
  have all : (b.delivered q env).1 = rows := by
    change (b.execute q (keeping none) [] env).1.1 = rows
    rw [hands, delivering_keeping]
  refine ⟨ending, fun read => ?_⟩
  rw [hands, all, delivering_collecting]

/-- A row that cannot be read is what the reading fails for, or another such row is. -/
theorem Streams.exists_read_error (streams : b.Streams)
    (each : ∀ row, FailsAs p (read row)) {row : LabeledRow} (mem : row ∈ (b.delivered q env).1)
    (failed : ∀ a, read row ≠ .ok a) :
    ∃ f, (b.execute q (collecting read) [] env).1.2.map
      (fun _ => (b.execute q (collecting read) [] env).1.1) = .error f ∧ p f := by
  obtain ⟨ending, reads⟩ := streams.exists_read q env
  obtain ⟨f, unread, told⟩ := FailsAs.exists_mapM (fun row _ => each row) mem failed
  refine ⟨f, ?_, told⟩
  rw [reads, unread]
  rfl

theorem Streams.exists_collect_error (streams : b.Streams)
    (each : ∀ row, FailsAs p (read row)) {row : LabeledRow} (mem : row ∈ (b.delivered q env).1)
    (failed : ∀ a, read row ≠ .ok a) : ∃ f, (b.collect q read env).1 = .error f ∧ p f :=
  streams.exists_read_error each mem failed

end Backend

theorem Memory.streams (d : Descriptor) : (Memory.backend d).Streams := by
  intro q env
  obtain ⟨rows, ending, same⟩ := exists_received_eq (selected q env).1
  refine ⟨rows, ending, fun receive start => ?_⟩
  rw [← same]
  change (execute q receive start env).1 = _
  rw [run_execute]
  rfl

theorem Scripted.streams (d : Descriptor) (script : Script) : (Scripted.backend d script).Streams :=
  fun q _ => ⟨_, verdict script q, fun _ _ => rfl⟩

/-- A row with a cell that its column cannot take is what came back, not what was asked. -/
theorem Backend.exists_fetch_error {b : Backend σ} (streams : b.Streams) {m : Mapping}
    {c : Criteria} {q : Query} {env env₁ : Env σ}
    (compiled : b.compileQuery m c env = (.ok q, env₁))
    {row : LabeledRow} (mem : row ∈ (b.delivered q env₁).1) (spoiled : m.Spoiled b.coerce row) :
    ∃ f, (b.fetch m c env).1 = .error f ∧ Undecoded f := by
  have fetched : b.fetch m c env = b.collect q (m.project b.coerce) env₁ :=
    Action.bind_of_ok compiled
  rw [fetched]
  exact streams.exists_collect_error Mapping.project_failsAs mem spoiled.project_ne_ok

namespace Join

variable {l r : Source σ} {c : JoinCriteria} {p : Sql.Pair} {q : Query} {env env₁ : Env σ}

/-- What the log is told before the sides are exchanged. -/
def exchanging (b : Backend σ) (c : JoinCriteria) : Effect σ Unit :=
  Effect.log .debug (b.name ++ " cannot run a " ++ c.kind.display ++
    " join, running the flipped join")

/-- The left storage runs the join: the sides as they are asked for, and the query. -/
inductive Natively (l r : Source σ) (c : JoinCriteria) (env : Env σ) :
    Sql.Pair → Query → Env σ → Prop
  | straight {joins : Joins σ} {q : Query} {env₁ : Env σ} (valid : c.validate = .ok ())
    (reached : resolve l.backend r.backend c = some (joins, false))
    (compiled : joins.compile ⟨l.mapping, r.mapping⟩ c env = (.ok q, env₁)) :
    Natively l r c env ⟨l.mapping, r.mapping⟩ q env₁
  | flipped {joins : Joins σ} {q : Query} {env₁ : Env σ} {c' : JoinCriteria}
    (valid : c.validate = .ok ()) (reached : resolve l.backend r.backend c = some (joins, true))
    (turned : c.flip = .ok c')
    (compiled : joins.compile ⟨r.mapping, l.mapping⟩ c' (exchanging l.backend c env).2 =
      (.ok q, env₁)) :
    Natively l r c env ⟨r.mapping, l.mapping⟩ q env₁

theorem native_of_compiled {b : Backend σ} {joins : Joins σ}
    (compiled : joins.compile p c env = (.ok q, env₁)) :
    native b joins p c env = b.collect q (decode b.coerce p) env₁ := Action.bind_of_ok compiled

/-- What goes wrong with the rows of the query goes wrong with the join. -/
theorem Natively.fetch_error (natively : Natively l r c env p q env₁) {f : Failure}
    (failed : (l.backend.collect q (decode l.backend.coerce p) env₁).1 = .error f) :
    (fetch l r c env).1 = .error f := by
  cases natively with
  | @straight joins _ _ valid reached compiled =>
    rw [fetch, Action.bind_of valid, reached]
    dsimp only
    rw [native_of_compiled compiled, failed]
  | @flipped joins _ _ c' valid reached turned compiled =>
    have stopped : native l.backend joins ⟨r.mapping, l.mapping⟩ c' (exchanging l.backend c env).2 =
      (.error f, (l.backend.collect q (decode l.backend.coerce ⟨r.mapping, l.mapping⟩) env₁).2) :=
      (native_of_compiled compiled).trans (Prod.ext failed rfl)
    rw [fetch, Action.bind_of valid, reached]
    dsimp only
    rw [← exchanging, Action.bind_effect, Action.bind_of turned,
      Action.bind_of_error stopped]

/-- A side that is there with a cell that its column cannot take is what came back. -/
theorem Natively.exists_fetch_error (natively : Natively l r c env p q env₁)
    (streams : l.backend.Streams) {row : LabeledRow} (mem : row ∈ (l.backend.delivered q env₁).1)
    (spoiled : Spoiled l.backend.coerce p row) :
    ∃ f, (fetch l r c env).1 = .error f ∧ Undecoded f := by
  obtain ⟨f, failed, told⟩ :=
    streams.exists_collect_error (decode_failsAs (p := p)) mem spoiled.decode_ne_ok
  exact ⟨f, natively.fetch_error failed, told⟩

end Join
end DataAccess
