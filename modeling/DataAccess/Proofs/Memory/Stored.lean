import DataAccess.Proofs.Memory.Evaluated
import DataAccess.Proofs.Memory.Failing
import DataAccess.Proofs.Memory.Fetch
import DataAccess.Proofs.Memory.Keys

/-!
Rows that fit their table are stored as they are, each after the others, and are fetched as they are
stored.
-/
namespace DataAccess.Memory

open Outcome

variable {t : Tables} {m : Mapping} {rows new : List Row} {row : Row}

namespace Tables

theorem cellFor_of_fits {c : Column} {v : Value} (fits : c.Fits v) : cellFor m c v = .ok v :=
  cellFor_eq_ok.mpr ⟨fits.coerce, fits.nullable⟩

theorem cellsFor_of_fits {columns : List Column} (fits : List.Forall₂ Column.Fits columns row) :
    (columns.zip row).mapM (fun (c, v) => cellFor m c v) = .ok row := by
  induction fits with
  | nil => rfl
  | @cons c v columns row first _ ih =>
    exact mapM_cons.mpr ⟨v, row, cellFor_of_fits first, ih, rfl⟩

/-- A row of another key than those that are stored comes after them. -/
theorem insert_of_fits (stored : t.find? m.table.fullName = some rows) (fits : m.Fits row)
    (apart : m.KeysApart (rows ++ [row])) :
    t.insert m row = .ok (t.put m.table.fullName (rows ++ [row])) := by
  have fresh : (!m.primaryKeys.isEmpty && rows.any (sameKeys m.primaryKeys · row)) = false := by
    cases keyed : m.primaryKeys.isEmpty with
    | true => rfl
    | false =>
      have pairs := apart (by simpa using keyed)
      rw [List.map_append, List.pairwise_append] at pairs
      refine List.any_eq_false.mpr fun r hr => ?_
      rw [sameKeys_eq, Bool.not_eq_true]
      exact pairs.2.2 _ (List.mem_map_of_mem hr) _ List.mem_cons_self
  simp only [Tables.insert, bind_eq_ok, guarded_eq_ok, pure_eq_ok]
  exact ⟨row, cellsFor_of_fits fits, rows, rows_eq_ok.mpr stored, Bool.eq_false_iff.mp fresh, rfl⟩

end Tables

/-- The pool is fit for use, and the table holds these rows. -/
def Stores (m : Mapping) (rows : List Row) (s : Memory) : Prop :=
  s.queries.poisoned = false ∧ s.tables.find? m.table.fullName = some rows

theorem Stores.holds {s : Memory} (h : Stores m rows s) : Holds s.tables s := ⟨rfl, h.1⟩

theorem writable_insert (width : row.length = m.columns.length) : Writable (.insert m row) := by
  simp [Writable, Statement.pieces, Sql.insert, width]

theorem insert_stores (fits : m.Fits row) (apart : m.KeysApart (rows ++ [row])) :
    Action.Leads (Stores m rows) (insert m row) fun r s =>
      r = .ok (.ofRows 1) ∧ Stores m (rows ++ [row]) s := by
  intro s log stored
  have inserted := Tables.insert_of_fits stored.2 fits apart
  have changed : s.tables.changed (.insert m row) (fun t => do pure (1, ← t.insert m row)) =
      .ok (.ofRows 1) := by
    refine Tables.changed_eq_ok.mpr ⟨writing_eq_ok.mpr (writable_insert fits.length_eq.symm), ?_⟩
    exact ⟨_, bind_eq_ok.mpr ⟨_, inserted, rfl⟩, rfl⟩
  have answered : (insert m row ⟨s, log⟩).1 = .ok (.ofRows 1) :=
    (changed ▸ change_answers _ _).eq_ok stored.holds
  obtain ⟨t', after, ⟨-, made⟩ | ⟨f, failed, -⟩⟩ := insert_leads m row s log stored.holds
  · cases made with
    | insert _ done =>
      obtain rfl := Except.ok.inj (inserted.symm.trans done)
      refine ⟨answered, after.2, ?_⟩
      rw [after.1, Keyed.find?_put_self]
  · exact nomatch answered.symm.trans failed

/-- Rows of different keys are stored in turn. -/
theorem onward_stores {n : Nat} (small : n < Nat.pow 2 64) (fits : ∀ row ∈ new, m.Fits row)
    (apart : m.KeysApart (rows ++ new)) :
    Action.Leads (Stores m rows) (Backend.onward (insert m) (.ofRows n) new) fun r s =>
      r = .ok (.ofRows ((n + new.length) % Nat.pow 2 64)) ∧ Stores m (rows ++ new) s := by
  induction new generalizing rows n with
  | nil =>
    intro s log stored
    rw [List.length_nil, Nat.add_zero, Nat.mod_eq_of_lt small, List.append_nil]
    exact ⟨rfl, stored⟩
  | cons row rest ih =>
    obtain ⟨first, others⟩ := List.forall_mem_cons.mp fits
    rw [List.append_cons] at apart
    have next : m.KeysApart (rows ++ [row]) :=
      apart.of_sublist ((List.sublist_append_left _ rest).map m.keyOf)
    intro s log stored
    obtain ⟨reported, after⟩ := insert_stores first next s log stored
    have done : insert m row ⟨s, log⟩ = (.ok (.ofRows 1), (insert m row ⟨s, log⟩).2) :=
      Prod.ext reported rfl
    have onward := ih (Nat.mod_lt (n + 1) (by decide)) others apart _
      (insert m row ⟨s, log⟩).2.log after
    rw [Nat.mod_add_mod, Nat.add_assoc, Nat.add_comm 1, ← List.append_cons] at onward
    rw [ExceptT.run, Backend.onward_of_ok done]
    exact onward

/-- A batch of rows that fit, of different keys, is stored as it is. -/
theorem insertBatch_stores (d : Descriptor) (fits : ∀ row ∈ new, m.Fits row)
    (apart : m.KeysApart (rows ++ new)) :
    Action.Leads (Stores m rows) ((backend d).insertBatch m new) fun r s =>
      r = .ok (.ofRows (new.length % Nat.pow 2 64)) ∧ Stores m (rows ++ new) s := by
  have all := onward_stores (n := 0) (by decide) fits apart
  rwa [Nat.zero_add] at all

/-- Rows that fit are fetched as the criteria select them. -/
theorem fetch_stores (d : Descriptor) {c : Criteria} {kept : List Row} (distinct : m.labels.Nodup)
    (fits : ∀ row ∈ rows, m.Fits row) (valid : c.validate m = .ok ())
    (selects : c.select m rows = .ok kept) :
    Action.Leads (Stores m rows) ((backend d).fetch m c) fun r s =>
      r = .ok kept ∧ Stores m rows s := by
  intro s log stored
  have fetched : s.tables.fetched m c = .ok kept := by
    rw [Tables.fetched, valid, Tables.found, Tables.rows_eq_ok.mpr stored.2]
    simp only [Except.mapError, ok_bind, selects, pure_eq,
      Criteria.project_selected distinct fits valid selects]
  obtain ⟨hr, after⟩ := fetch_settles d m c s log stored.holds
  refine ⟨mapError_eq_ok.mp (hr.trans fetched), after.2, ?_⟩
  rw [after.1, stored.2]

end DataAccess.Memory
