import DataAccess.Proofs.Memory.Reachable
import DataAccess.Proofs.Sorting
import DataAccess.Proofs.Sql.Written

/-!
What is fetched from a storage in process depends on the tables and on nothing else. From rows of
their mapping it is what the criteria select.
-/
namespace DataAccess

/-- Rows that are all read are collected in their order, others fail the reading. -/
theorem deliver_collecting {α : Type} (read : LabeledRow → Outcome α) (rows : List LabeledRow)
    (found : List α) :
    (deliver (collecting read) found rows).2.map
        (fun _ => (deliver (collecting read) found rows).1) =
      (rows.mapM read).map (found ++ ·) := by
  induction rows generalizing found with
  | nil => simp [deliver, Except.map]
  | cons row rest ih =>
    rw [List.mapM_cons]
    cases hr : read row with
    | error f => simp [deliver, collecting, hr, Except.map]
    | ok a =>
      simp only [deliver, collecting, hr, Outcome.ok_bind]
      rw [ih]
      cases rest.mapM read <;> simp [Except.map]

theorem deliver_collecting_nil {α : Type} (read : LabeledRow → Outcome α) (rows : List LabeledRow) :
    (deliver (collecting read) [] rows).2.map
        (fun _ => (deliver (collecting read) [] rows).1) = rows.mapM read := by
  rw [deliver_collecting]
  cases rows.mapM read <;> rfl

namespace Window

theorem mem_take {α : Type} {w : Window} {a : α} {rows : List α} (h : a ∈ w.take rows) :
    a ∈ rows := by
  unfold take at h
  split at h
  · exact List.mem_of_mem_drop (List.mem_of_mem_take h)
  · exact List.mem_of_mem_drop h

theorem length_take {α : Type} (w : Window) (rows : List α) :
    (w.take rows).length = w.count rows.length := by
  unfold take count
  cases w.limit with
  | none => exact List.length_drop
  | some limit => rw [List.length_take, List.length_drop, Nat.min_comm]

/-- The first row of a window that may hold one is the row of the window that holds one. -/
theorem take_one {α : Type} {w : Window} (wide : w.limit ≠ some 0) (rows : List α) :
    take ⟨w.start, some 1⟩ rows = (w.take rows).take 1 := by
  obtain ⟨start, limit⟩ := w
  cases limit with
  | none => rfl
  | some limit =>
    have positive : limit ≠ 0 := fun h => wide (congrArg some h)
    rw [take, take, List.take_take, Nat.min_eq_left (by omega)]

/-- What is made of the rows of a window starts with what is made of its first row, unless no row
was wanted though there is one. -/
theorem exists_head_iff {α β : Type} {R : α → β → Prop} {w : Window} {rows : List α} {made : List β}
    (h : List.Forall₂ R (w.take rows) made) :
    (∃ firsts, List.Forall₂ R (take ⟨w.start, some 1⟩ rows) firsts ∧ firsts.head? = made.head?) ↔
      w.limit ≠ some 0 ∨ rows.length ≤ w.start.getD 0 := by
  by_cases narrow : w.limit = some 0
  · have none : made = [] := by
      rw [take, narrow] at h
      exact List.forall₂_nil_left_iff.mp h
    subst none
    constructor
    · intro h
      obtain ⟨firsts, each, empty⟩ := h
      obtain rfl := List.head?_eq_none_iff.mp empty
      have short := congrArg List.length (List.forall₂_nil_right_iff.mp each)
      simp only [length_take, count, List.length_nil] at short
      exact Or.inr (by omega)
    · intro h
      have past := h.resolve_left (not_not_intro narrow)
      refine ⟨[], ?_, rfl⟩
      rw [take, List.drop_eq_nil_of_le past]
      exact .nil
  · refine ⟨fun _ => Or.inl narrow, fun _ => ⟨made.take 1, ?_, List.head?_take⟩⟩
    rw [take_one narrow]
    exact List.forall₂_take 1 h

end Window

namespace Criteria

theorem mem_of_select {m : Mapping} {c : Criteria} {rows kept : List Row}
    (valid : c.validate m = .ok ()) (h : c.select m rows = .ok kept) {row : Row}
    (hrow : row ∈ kept) : row ∈ rows := by
  obtain ⟨checked, places, placed⟩ := validate_eq_ok.mp valid
  rw [select_eq checked placed, Except.ok.injEq] at h
  rw [← h] at hrow
  exact (List.mem_filter.mp (StableSort.mem_sort.mp (Window.mem_take hrow))).1

/-- Rows that fit are read as they were selected. -/
theorem project_selected {m : Mapping} {c : Criteria} {rows kept : List Row}
    (distinct : m.labels.Nodup) (fits : ∀ row ∈ rows, m.Fits row) (valid : c.validate m = .ok ())
    (h : c.select m rows = .ok kept) :
    (kept.map (⟨m.labels, ·⟩)).mapM (m.project Value.coerce) = .ok kept := by
  rw [Outcome.mapM_eq_ok, List.forall₂_map_left_iff, List.forall₂_same]
  exact fun row hrow => Mapping.project_of_fits distinct (fits row (mem_of_select valid h hrow))

end Criteria

namespace Memory

variable {t : Tables} {m : Mapping} {c : Criteria} {q : Query} {schema : String → Mapping}

namespace Tables

/-- What a query finds, of a failure its kind. -/
def found (t : Tables) (m : Mapping) (c : Criteria) :
    Except (Option FailureKind) (List LabeledRow) := do
  let stored ← (t.rows m).mapError fun _ => some .execution
  let kept ← (c.select m stored).mapError Failure.kind?
  pure (kept.map (⟨m.labels, ·⟩))

/-- What a fetch comes to. -/
def fetched (t : Tables) (m : Mapping) (c : Criteria) :
    Except (Option FailureKind) (List Row) := do
  (c.validate m).mapError Failure.kind?
  let found ← t.found m c
  (found.mapM (m.project Value.coerce)).mapError Failure.kind?

end Tables

/-- Without a table the query fails. -/
theorem rows_settles (q : Query) (m : Mapping) : Action.Settles (Holds t) (rows q m)
    ((t.rows m).mapError fun _ => some .execution) := by
  refine currentTables_leads.bind (fun t₀ => Action.Leads.given fun ht => ?_) (by simp)
  obtain rfl := Except.ok.inj ht
  unfold Tables.rows
  split
  · exact Action.Settles.pure _
  · exact (Action.Leads.fail _).mono (fun _ h => h) fun _ _ ⟨hr, hs⟩ => ⟨hr ▸ rfl, hs⟩

theorem selected_settles (hm : q.mapping = some m) (hc : q.criteria = some c) :
    Action.Settles (Holds t) (selected q) (t.found m c) := by
  simp only [selected, hm, hc]
  exact (rows_settles q m).bind fun stored => (Action.Settles.of _).bind fun kept => .pure _

/-- The rows found are received, a failure to find them is kept. -/
theorem run_execute {β : Type} (q : Query) (receive : Receiver β) (start : β) (env : Env Memory) :
    execute q receive start env = (match (selected q env).1 with
      | .ok found => deliver receive start found
      | .error f => (start, .error f), (selected q env).2) := by
  unfold execute
  rw [Effect.run_bind, ExceptT.run]
  cases (selected q env).1 <;> rfl

/-- The rows found are read one by one, and then the query is given back. -/
theorem collect_eq {α : Type} (d : Descriptor) (q : Query) (read : LabeledRow → Outcome α) :
    (backend d).collect q read = Action.ensuring
      (selected q >>= fun found => Action.of (found.mapM read)) ((backend d).dispose q) := by
  funext env
  have collected : (backend d).collect q read env =
      ((execute q (collecting read) [] env).1.2.map fun _ =>
        (execute q (collecting read) [] env).1.1,
        ((backend d).dispose q (execute q (collecting read) [] env).2).2) := rfl
  rw [collected, Action.run_ensuring, run_execute]
  rcases h : selected q env with ⟨f | found, env'⟩
  · rw [Action.bind_of_error h]
    rfl
  · rw [Action.bind_of_ok h]
    exact Prod.ext (deliver_collecting_nil read found) rfl

/-- Criteria that are valid are compiled, and then the work is done on their query. -/
theorem compileQuery_settles {α : Type} {work : Query → Action Memory α}
    {x : Except (Option FailureKind) α}
    (works : ∀ q, q.mapping = some m → q.criteria = some c → Action.Settles (Holds t) (work q) x) :
    Action.Settles (Holds t) (compileQuery m c >>= work)
      (do (c.validate m).mapError Failure.kind?; x) := by
  cases valid : c.validate m with
  | error f =>
    intro s log h
    have refused : compileQuery m c ⟨s, log⟩ = (.error f, ⟨s, log⟩) :=
      Action.bind_of_error (by rw [valid]; rfl)
    have failed : (compileQuery m c >>= work) ⟨s, log⟩ = (.error f, ⟨s, log⟩) :=
      Action.bind_of_error refused
    rw [ExceptT.run, failed]
    exact ⟨rfl, h⟩
  | ok u =>
    refine (compileQuery_leads m c).bind (fun q => Action.Leads.given fun ⟨_, kept⟩ => ?_) ?_
    · obtain ⟨hm, hc⟩ := kept q rfl
      exact works q hm hc
    · intro f s ⟨⟨compiled, _⟩, _⟩
      simpa using compiled.mpr ⟨valid, Sql.select_written valid⟩

theorem fetch_settles (d : Descriptor) (m : Mapping) (c : Criteria) :
    Action.Settles (Holds t) ((backend d).fetch m c) (t.fetched m c) := by
  refine compileQuery_settles fun q hm hc => ?_
  rw [collect_eq]
  refine ((selected_settles hm hc).bind fun found => Action.Settles.of _).ensuring ?_
  exact QueryPool.release_leads (apart_holds_eq t) q

/-- Rows come back as they are stored, those the criteria select. -/
theorem fetch_leads (d : Descriptor) (sound : t.Sound schema)
    (used : schema m.table.fullName = m) (distinct : m.labels.Nodup) (c : Criteria) :
    Action.Leads (Holds t) ((backend d).fetch m c) fun r s =>
      (∀ found, r = .ok found ↔ c.validate m = .ok () ∧ ∃ stored,
        t.find? m.table.fullName = some stored ∧ c.select m stored = .ok found) ∧ Holds t s := by
  have read {stored kept : List Row} (valid : c.validate m = .ok ()) (hs : t.rows m = .ok stored)
      (hk : c.select m stored = .ok kept) :
      (kept.map (⟨m.labels, ·⟩)).mapM (m.project Value.coerce) = .ok kept :=
    Criteria.project_selected distinct (sound.rows used hs) valid hk
  have all (found : List Row) : t.fetched m c = .ok found ↔ c.validate m = .ok () ∧ ∃ stored,
      t.find? m.table.fullName = some stored ∧ c.select m stored = .ok found := by
    simp only [Tables.fetched, Tables.found, Outcome.bind_eq_ok, Outcome.mapError_eq_ok,
      Outcome.pure_eq_ok]
    constructor
    · intro h
      obtain ⟨_, valid, _, ⟨stored, hs, kept, hk, rfl⟩, hall⟩ := h
      obtain rfl := Except.ok.inj ((read valid hs hk).symm.trans hall)
      exact ⟨valid, stored, Tables.rows_eq_ok.mp hs, hk⟩
    · intro h
      obtain ⟨valid, stored, hs, hk⟩ := h
      have hs := Tables.rows_eq_ok.mpr hs
      exact ⟨(), valid, _, ⟨stored, hs, found, hk, rfl⟩, read valid hs hk⟩
  refine (fetch_settles d m c).mono (fun _ h => h) fun r s h => ?_
  obtain ⟨hr, h⟩ := h
  exact ⟨fun found => by rw [← all, ← hr, Outcome.mapError_eq_ok], h⟩

end Memory
end DataAccess
