import DataAccess.Proofs.Sqlite.Activity
import DataAccess.Proofs.Streams

/-!
Cells that cannot be read, by operation. Fetching and joining tell them as a row that came back;
counting by groups lets through what the cell itself says, which is told as a mistake of the caller.
-/
namespace DataAccess

open Outcome Sqlite

namespace Sqlite

theorem Link.query_eq {β : Type} (command : Command) (receive : Receiver β) (start : β) :
    query command receive start = received receive start <$> (rows command).run := by
  funext env
  unfold query
  rw [Effect.run_bind]
  change _ = (received receive start ((rows command).run env).1, ((rows command).run env).2)
  cases ((rows command).run env).1 <;> rfl

theorem Fleet.withLeased_map {α β : Type} (identity : String) (connect : Action Engine Connection)
    (reset : Effect Link Unit) (g : α → β) (work : Effect Link α) :
    withLeased identity connect reset (g <$> work) =
      g <$> withLeased identity connect reset work := by
  unfold withLeased
  rw [map_bind]
  rfl

namespace Session

variable {site : Site} {α β : Type}

theorem withConnection_map (g : α → β) (work : Effect Link α) :
    withConnection site (g <$> work) = g <$> withConnection site work := by
  unfold withConnection
  rw [map_bind]
  congr 1
  funext s
  cases s.transaction with
  | some t => rfl
  | none =>
    simp only [Fleet.withLeased_map]
    exact Action.within_map g _

theorem withCommand_map (g : α → β) (q : Query) (work : Command → Action Session α) :
    withCommand site q (fun c => g <$> work c) = g <$> withCommand site q work := by
  unfold withCommand
  rw [map_bind]
  simp only [Action.ensuring_map]

/-- The rows that a query finds, if a connection is got at. -/
def found (site : Site) (q : Query) : Action Session (Outcome (List LabeledRow)) :=
  withCommand site q fun command => withConnection site (Link.rows command).run

theorem execute_eq (d : Descriptor) (q : Query) (receive : Receiver β) (start : β)
    (env : Env Session) : (execute (.of d) q receive start env).1 =
      received receive start ((found (.of d) q env).1.bind id) := by
  have mapped : (withCommand (.of d) q fun command =>
      withConnection (.of d) ((Site.of d).query command receive start)) =
        received receive start <$> found (.of d) q := by
    change (withCommand (.of d) q fun command =>
      withConnection (.of d) (Link.query command receive start)) = _
    simp only [Link.query_eq, withConnection_map, withCommand_map]
    rfl
  unfold execute
  rw [Effect.run_bind, ExceptT.run, mapped, Action.run_map]
  cases (found (.of d) q env).1 <;> rfl

/-- The engine in memory hands rows out once it has found them all. -/
theorem streams (d : Descriptor) : (backend (.of d)).Streams := by
  intro q env
  obtain ⟨rows, ending, same⟩ := exists_received_eq ((found (.of d) q env).1.bind id)
  exact ⟨rows, ending, fun receive start => (execute_eq d q receive start env).trans (same ..)⟩

/-- A group of which a cell is not of its column's kind and cannot become one. -/
def GroupSpoiled (columns : List Column) (row : LabeledRow) : Prop :=
  ∃ cell ∈ columns.zipIdx, ∀ w,
    ((row.find? (Sql.groupLabel cell.2)).getD (.null none)).coerce cell.1.kind ≠ .ok w

theorem readGroup_failsAs (columns : List Column) (row : LabeledRow) :
    FailsAs Misconfigured (readGroup columns row) :=
  (FailsAs.mapM fun _ _ => Value.coerce_failsAs _ _).bind fun _ _ =>
    ((Native.ofValue_failsAs _).map _).bind fun _ _ => .ok _

theorem GroupSpoiled.readGroup_ne_ok {columns : List Column} {row : LabeledRow}
    (spoiled : GroupSpoiled columns row) (group : GroupCount) :
    readGroup columns row ≠ .ok group := by
  obtain ⟨cell, mem, refused⟩ := spoiled
  intro read
  obtain ⟨values, coerced, -⟩ := bind_eq_ok.mp read
  obtain ⟨w, coerced⟩ := exists_mapM_eq_ok.mp ⟨values, coerced⟩ cell mem
  exact refused w coerced

/-- What is collected is read of the query that is compiled for it. -/
theorem collected_eq {shape : Shape} {statement : Statement} {read : LabeledRow → Outcome α}
    {q : Query} {env env₁ : Env Session}
    (compiled : QueryPool.compile queriesPlace .sqlite shape statement env = (.ok q, env₁)) :
    (collected site shape statement read env).1 =
      (execute site q (collecting read) [] (told q env₁).2).1.2.map fun _ =>
        (execute site q (collecting read) [] (told q env₁).2).1.1 := by
  have logged : told q env₁ = (.ok (), (told q env₁).2) := rfl
  unfold collected QueryPool.during
  rw [Action.bind_of_ok compiled, Action.run_ensuring]
  dsimp only
  rw [Action.bind_of_ok logged, Action.bind_effect]
  rcases (execute site q (collecting read) [] (told q env₁).2).1 with ⟨found, _ | _⟩ <;> rfl

/-- A cell of a group that is not of its column's kind is told as a mistake of the caller. -/
theorem exists_countGrouped_error (streams : (backend site).Streams) {m : Mapping} {c : Criteria}
    {groupBy : List String} {columns : List Column} {q : Query} {env env₁ : Env Session}
    (known : groupBy.mapM m.column = .ok columns)
    (compiled : QueryPool.compile queriesPlace .sqlite .countGrouped (.countGrouped m c groupBy)
      env = (.ok q, env₁)) {row : LabeledRow}
    (mem : row ∈ ((backend site).delivered q (told q env₁).2).1)
    (spoiled : GroupSpoiled columns row) :
    ∃ f, (countGrouped site m c groupBy env).1 = .error f ∧ Misconfigured f := by
  rw [countGrouped, Action.bind_of known, collected_eq compiled]
  exact streams.exists_read_error (readGroup_failsAs columns) mem spoiled.readGroup_ne_ok

end Session
end Sqlite

/-- How rows are read back into cells of their columns. -/
inductive Reading where
  | fetching | joining | grouping
deriving DecidableEq

/-- An operation comes upon a row that has a cell that its column cannot take. -/
inductive Reading.Stumbles :
    Reading → {σ : Type} → Backend σ → {α : Type} → Action σ α → Env σ → Prop
  | fetching {σ : Type} {b : Backend σ} {m : Mapping} {c : Criteria} {q : Query} {env env₁ : Env σ}
    (compiled : b.compileQuery m c env = (.ok q, env₁)) {row : LabeledRow}
    (mem : row ∈ (b.delivered q env₁).1) (spoiled : m.Spoiled b.coerce row) :
    Stumbles .fetching b (b.fetch m c) env
  | joining {σ : Type} {l r : Source σ} {c : JoinCriteria} {p : Sql.Pair} {q : Query}
    {env env₁ : Env σ} (natively : Join.Natively l r c env p q env₁) {row : LabeledRow}
    (mem : row ∈ (l.backend.delivered q env₁).1) (spoiled : Join.Spoiled l.backend.coerce p row) :
    Stumbles .joining l.backend (Join.fetch l r c) env
  | grouping {site : Site} {m : Mapping} {c : Criteria} {groupBy : List String}
    {columns : List Column} {q : Query} {env env₁ : Env Session}
    (known : groupBy.mapM m.column = .ok columns)
    (compiled : QueryPool.compile Session.queriesPlace .sqlite .countGrouped
      (.countGrouped m c groupBy) env = (.ok q, env₁)) {row : LabeledRow}
    (mem : row ∈ ((Session.backend site).delivered q (Session.told q env₁).2).1)
    (spoiled : Session.GroupSpoiled columns row) :
    Stumbles .grouping (Session.backend site) (Session.countGrouped site m c groupBy) env

/-- Who comes upon such a row fails. Fetching and joining tell that what came back could not be
decoded; counting by groups, and it alone, tells it as if the caller had made a mistake. -/
theorem stumbling_told {reading : Reading} {σ α : Type} {b : Backend σ} {a : Action σ α}
    {env : Env σ} (stumbles : reading.Stumbles b a env) (streams : b.Streams) :
    ∃ f, (a env).1 = .error f ∧ (Undecoded f ↔ reading ≠ .grouping) ∧
      (Misconfigured f ↔ reading = .grouping) := by
  cases stumbles with
  | fetching compiled mem spoiled =>
    obtain ⟨f, failed, decoded⟩ := Backend.exists_fetch_error streams compiled mem spoiled
    exact ⟨f, failed, by simpa using decoded, by simpa using decoded.not_misconfigured⟩
  | joining natively mem spoiled =>
    obtain ⟨f, failed, decoded⟩ := natively.exists_fetch_error streams mem spoiled
    exact ⟨f, failed, by simpa using decoded, by simpa using decoded.not_misconfigured⟩
  | grouping known compiled mem spoiled =>
    obtain ⟨f, failed, mistake⟩ :=
      Session.exists_countGrouped_error streams known compiled mem spoiled
    exact ⟨f, failed, by simpa using fun decoded : Undecoded f => decoded.not_misconfigured mistake,
      by simpa using mistake⟩

section Planner

def planner : Site := .of ⟨"sqlite", "days", [("mode", "memory"), ("cache", "shared")], 2, 5000⟩

def notes : Mapping := ⟨⟨"", "days"⟩, [.key "id" "id" .int64, .optional "day" "day" .varchar]⟩

/-- The same table, taken to hold dates. -/
def days : Mapping := ⟨⟨"", "days"⟩, [.key "id" "id" .int64, .optional "day" "day" .date]⟩

def soon : Value := .of (.varchar "soon")

def planned : Env Session :=
  let a := Activity.opened planner .idle []
  let a := a.after planner (.ask (.operation (.createTable notes false)))
  let a := a.after planner (.ask (.operation (.insert notes [.of (.int64 1), soon])))
  ⟨a.session none, []⟩

def sameDay : JoinCriteria := (JoinCriteria.ofKind .inner).on ⟨.equal, "id", "id", true⟩

theorem soon_refused (w : Value) : soon.coerce (some .date) ≠ .ok w := by
  intro read
  have failed : (soon.coerce (some .date)).isOk = false := by decide +kernel
  rw [read] at failed
  cases failed

/-- A query that is compiled delivers a row of some kind. -/
theorem exists_delivered {σ : Type} (compiled : Outcome Query × Env σ)
    (delivered : Query → Env σ → List LabeledRow) (test : LabeledRow → Bool)
    (found : (match compiled with
      | (.ok q, env) => (delivered q env).any test
      | (.error _, _) => false) = true) :
    ∃ q env, compiled = (.ok q, env) ∧ ∃ row ∈ delivered q env, test row = true := by
  rcases compiled with ⟨f | q, env⟩
  · cases found
  · exact ⟨q, env, rfl, List.any_eq_true.mp found⟩

theorem exists_grouped_planned : ∃ q env,
    QueryPool.compile Session.queriesPlace .sqlite .countGrouped (.countGrouped days .all ["day"])
      planned = (.ok q, env) ∧
    ∃ row ∈ ((Session.backend planner).delivered q (Session.told q env).2).1,
      Session.GroupSpoiled [.optional "day" "day" .date] row := by
  obtain ⟨q, env, compiled, row, mem, cell⟩ := exists_delivered
    (QueryPool.compile Session.queriesPlace .sqlite .countGrouped
      (.countGrouped days .all ["day"]) planned)
    (fun q env => ((Session.backend planner).delivered q (Session.told q env).2).1)
    (fun row => row.find? (Sql.groupLabel 0) = some soon) (by decide +kernel)
  refine ⟨q, env, compiled, row, mem, _, List.mem_singleton_self _, fun w => ?_⟩
  rw [of_decide_eq_true cell]
  exact soon_refused w

theorem resolve_planner :
    Join.resolve (Session.backend planner) (Session.backend planner) sameDay =
      some (Session.joins planner, false) := by
  have reaches : (Session.joins planner).reaches sameDay Sqlite.scheme planner.descriptor = true :=
    by decide +kernel
  change (guard ((Session.joins planner).reaches sameDay Sqlite.scheme planner.descriptor) >>=
    fun _ => some (Session.joins planner, false)) = _
  rw [reaches]
  rfl

theorem stumbling_told_planned :
    (∃ f, ((Session.backend planner).fetch days .all planned).1 = .error f ∧ Undecoded f) ∧
    (∃ f, (Join.fetch ⟨Session.backend planner, days⟩ ⟨Session.backend planner, days⟩ sameDay
      planned).1 = .error f ∧ Undecoded f) ∧
    ∃ f, (Session.countGrouped planner days .all ["day"] planned).1 = .error f ∧
      Misconfigured f := by
  have streams : (Session.backend planner).Streams := Session.streams _
  refine ⟨?_, ?_, ?_⟩
  · obtain ⟨q, env, compiled, row, mem, cell⟩ := exists_delivered
      ((Session.backend planner).compileQuery days .all planned)
      (fun q env => ((Session.backend planner).delivered q env).1)
      (fun row => row.find? "day" = some soon) (by decide +kernel)
    have spoiled : days.Spoiled (Session.backend planner).coerce row :=
      ⟨.optional "day" "day" .date, soon, rfl, of_decide_eq_true cell, soon_refused⟩
    obtain ⟨f, failed, told, -⟩ := stumbling_told (.fetching compiled mem spoiled) streams
    exact ⟨f, failed, told.mpr nofun⟩
  · obtain ⟨q, env, compiled, row, mem, cells⟩ := exists_delivered
      ((Session.joins planner).compile ⟨days, days⟩ sameDay planned)
      (fun q env => ((Session.backend planner).delivered q env).1)
      (fun row => row.cells = [.of (.int64 1), soon, .of (.int64 1), soon]) (by decide +kernel)
    have natively : Join.Natively ⟨Session.backend planner, days⟩ ⟨Session.backend planner, days⟩
      sameDay planned ⟨days, days⟩ q env := .straight rfl resolve_planner compiled
    have spoiled : Join.Spoiled (Session.backend planner).coerce ⟨days, days⟩ row := by
      rw [Join.Spoiled, of_decide_eq_true cells]
      exact .inl ⟨⟨0, by decide, rfl⟩, (soon, .optional "day" "day" .date), .tail _ (.head _),
        soon_refused⟩
    obtain ⟨f, failed, told, -⟩ := stumbling_told (.joining natively mem spoiled) streams
    exact ⟨f, failed, told.mpr nofun⟩
  · obtain ⟨q, env, compiled, row, mem, spoiled⟩ := exists_grouped_planned
    obtain ⟨f, failed, -, told⟩ :=
      stumbling_told (.grouping rfl compiled mem spoiled) streams
    exact ⟨f, failed, told.mpr rfl⟩

/-- The engine gives a text where a date is expected. Who counts by it is told of a mistake. -/
theorem grouped_misconfigured_planned : ∃ q env,
    QueryPool.compile Session.queriesPlace .sqlite .countGrouped (.countGrouped days .all ["day"])
      planned = (.ok q, env) ∧
    (∃ row ∈ ((Session.backend planner).delivered q (Session.told q env).2).1,
      Session.GroupSpoiled [.optional "day" "day" .date] row) ∧
    ∃ f, (Session.countGrouped planner days .all ["day"] planned).1 = .error f ∧
      Misconfigured f ∧ ¬Undecoded f := by
  obtain ⟨q, env, compiled, row, mem, spoiled⟩ := exists_grouped_planned
  obtain ⟨f, failed, told⟩ :=
    Session.exists_countGrouped_error (Session.streams _) rfl compiled mem spoiled
  exact ⟨q, env, compiled, ⟨row, mem, spoiled⟩, f, failed, told,
    fun decoded => decoded.not_misconfigured told⟩

end Planner
end DataAccess
