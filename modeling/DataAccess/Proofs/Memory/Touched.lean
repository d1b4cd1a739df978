import DataAccess.Proofs.Memory.Evaluated

/-!
What deleting and updating do to a table. The rows that the filter admits are taken away, or given
the assigned cells; they are told by the rows as they were. The others stay as they are, in their
places.
-/
namespace DataAccess

open Outcome

namespace Mapping

variable {m : Mapping} {values : Assignments} {row row' : Row} {i : Nat}

/-- The last value assigned to the column in a place. -/
def lastFor (m : Mapping) (values : Assignments) (i : Nat) : Option Value :=
  (values.reverse.find? fun a => (m.position a.1).toOption = some i).map (·.2)

theorem lastFor_cons (m : Mapping) (a : String × Value) (values : Assignments) (i : Nat) :
    m.lastFor (a :: values) i = (m.lastFor values i).or
      (if (m.position a.1).toOption = some i then some a.2 else none) := by
  rw [lastFor, List.reverse_cons, List.find?_append, Option.map_or, List.find?_singleton]
  split <;> simp_all [lastFor]

/-- The last value for each column is in its cell, as the column's kind; other cells are kept. -/
structure Assigned (m : Mapping) (values : Assignments) (row row' : Row) : Prop where
  width : row'.length = row.length
  given : ∀ i c v, m.columns[i]? = some c → m.lastFor values i = some v →
    v.coerce c.kind = .ok (row'.cell i)
  kept : ∀ i, m.lastFor values i = none → row'.cell i = row.cell i

end Mapping

namespace Row

theorem cell_set_self {row : Row} {i : Nat} (inside : i < row.length) (v : Value) :
    cell (row.set i v) i = v := by
  simp [cell, inside]

theorem cell_set_of_ne {i j : Nat} (ne : i ≠ j) (row : Row) (v : Value) :
    cell (row.set i v) j = row.cell j := by
  simp [cell, List.getD_eq_getElem?_getD, List.getElem?_set_ne ne]

end Row

namespace Memory

variable {t t' : Tables} {m : Mapping} {c : Criteria} {values : Assignments} {rows : List Row}

namespace Tables

/-- A cell found for an assignment, with its place. -/
def Found (m : Mapping) (a : String × Value) (e : Nat × Value) : Prop :=
  ∃ column, m.find a.1 = .ok (e.1, column) ∧ cellFor m column a.2 = .ok e.2

theorem Found.position {a : String × Value} {e : Nat × Value} (found : Found m a e) :
    (m.position a.1).toOption = some e.1 := by
  obtain ⟨column, place, -⟩ := found
  rw [Mapping.position, place]
  rfl

/-- Of several cells for one place the last one stays. -/
theorem assigned_assign {cells : List (Nat × Value)} (found : List.Forall₂ (Found m) values cells)
    {row : Row} (wide : m.columns.length ≤ row.length) :
    m.Assigned values row (assign row cells) := by
  induction found generalizing row with
  | nil => exact ⟨rfl, fun i c v _ last => by simp [Mapping.lastFor] at last, fun _ _ => rfl⟩
  | @cons a e values cells first _ ih =>
    have rest : m.Assigned values (row.set e.1 e.2) (assign (row.set e.1 e.2) cells) :=
      ih (by rwa [List.length_set])
    have place := first.position
    refine ⟨rest.width.trans List.length_set, fun i column v hc last => ?_, fun i last => ?_⟩
    · rw [Mapping.lastFor_cons, place] at last
      -- The first cell stays only where none of the others is for its place.
      cases later : m.lastFor values i with
      | some w =>
        obtain rfl : w = v := by simpa [later] using last
        exact rest.given i column w hc later
      | none =>
        rw [later, Option.none_or] at last
        split at last
        · next here =>
          obtain rfl := Option.some.inj here
          obtain rfl := Option.some.inj last
          obtain ⟨column', found, fits⟩ := first
          obtain rfl : column' = column :=
            Option.some.inj ((Mapping.getElem?_of_find found).symm.trans hc)
          have inside := Nat.lt_of_lt_of_le (Mapping.place_lt found) wide
          change _ = Except.ok (Row.cell (assign (row.set e.1 e.2) cells) e.1)
          rw [rest.kept e.1 later, Row.cell_set_self inside]
          exact (cellFor_eq_ok.mp fits).1
        · cases last
    · rw [Mapping.lastFor_cons, place, Option.or_eq_none_iff] at last
      have elsewhere : e.1 ≠ i := fun here => by simp [here] at last
      exact (rest.kept i last.1).trans (Row.cell_set_of_ne elsewhere row e.2)

theorem count_hits (c : Criteria) (m : Mapping) (rows : List Row) :
    (rows.map (c.passes m)).count true = rows.countP (c.passes m) := by
  rw [List.count_eq_countP, List.countP_map]
  exact List.countP_congr fun row _ => by simp

/-- The filter is held against each row as it was. -/
theorem update_eq_ok {n : Nat} (h : t.update m c values = .ok (n, t')) : ∃ cells rows,
    c.validate m = .ok () ∧ List.Forall₂ (Found m) values cells ∧
      t.find? m.table.fullName = some rows ∧ n = rows.countP (c.passes m) ∧
      t' = t.put m.table.fullName
        (rows.map fun row => if c.passes m row then assign row cells else row) := by
  simp only [Tables.update, bind_eq_ok, pure_eq_ok, mapError_eq_ok, Prod.mk.injEq] at h
  obtain ⟨_, valid, cells, found, rows, stored, hits, hit, rfl, rfl⟩ := h
  rw [matched_eq (Criteria.check_of_validate valid)] at hit
  obtain rfl := Except.ok.inj hit
  refine ⟨cells, rows, valid, (mapM_eq_ok.mp found).imp fun a e he => ?_, rows_eq_ok.mp stored,
    count_hits c m rows, ?_⟩
  · simp only [bind_eq_ok, mapError_eq_ok, pure_eq_ok] at he
    obtain ⟨⟨i, column⟩, place, w, fits, rfl⟩ := he
    exact ⟨column, place, fits⟩
  · rw [List.zipWith_map_right, List.zipWith_self]

theorem unhit_eq_filter (p : Row → Bool) (rows : List Row) :
    (rows.zip (rows.map p)).filterMap (fun (row, hit) => if hit then none else some row) =
      rows.filter fun row => !p row := by
  induction rows with
  | nil => rfl
  | cons row rest ih =>
    rw [List.map_cons, List.zip_cons_cons, List.filterMap_cons, List.filter_cons, ih]
    cases p row <;> rfl

theorem delete_eq_ok {n : Nat} (h : t.delete m c = .ok (n, t')) : ∃ rows,
    c.validate m = .ok () ∧ t.find? m.table.fullName = some rows ∧
      n = rows.countP (c.passes m) ∧
      t' = t.put m.table.fullName (rows.filter fun row => !c.passes m row) := by
  obtain ⟨rows, hits, valid, stored, hit, rfl, rfl⟩ := exists_of_delete h
  rw [matched_eq (Criteria.check_of_validate valid)] at hit
  obtain rfl := Except.ok.inj hit
  exact ⟨rows, valid, rows_eq_ok.mp stored, count_hits c m rows, by rw [unhit_eq_filter]⟩

end Tables

/-- One table before and after a change; the others are as they were. -/
structure Turned (name : String) (s s' : Memory) (rows rows' : List Row) : Prop where
  before : s.tables.find? name = some rows
  after : s'.tables.find? name = some rows'
  others : ∀ other, other ≠ name → s'.tables.find? other = s.tables.find? other

theorem turned_of_put {name : String} {s s' : Memory} {rows' : List Row}
    (before : s.tables.find? name = some rows) (after : Holds (s.tables.put name rows') s') :
    Turned name s s' rows rows' where
  before := before
  after := after.1 ▸ Keyed.find?_put_self ..
  others _ ne := after.1 ▸ Keyed.find?_put_of_ne ne ..

/-- A change that succeeds is the one that the tables make. -/
theorem changed_of_ok {s : Memory} {st : Statement} {change : Tables → Change (Nat × Tables)}
    {log : List LogRecord} {affected : Affected} (holds : Holds t s)
    (done : (Memory.change st change ⟨s, log⟩).1 = .ok affected) : ∃ n t',
      change t = .ok (n, t') ∧ affected = .ofRows n ∧
        Holds t' (Memory.change st change ⟨s, log⟩).2.state := by
  obtain ⟨t', after, ⟨n, made, -, hc⟩ | ⟨f, failed, -⟩⟩ := change_leads st change s log holds
  · exact ⟨n, t', hc, Except.ok.inj (done.symm.trans made), after⟩
  · exact nomatch done.symm.trans failed

variable {schema : String → Mapping} {s : Memory}

theorem Reachable.delete_turns (h : s.Reachable schema) {log : List LogRecord} {affected : Affected}
    (done : (delete m c ⟨s, log⟩).1 = .ok affected) : ∃ rows,
      Turned m.table.fullName s (delete m c ⟨s, log⟩).2.state rows
          (rows.filter fun row => !c.passes m row) ∧
        affected = .ofRows (rows.countP (c.passes m)) ∧
        ∀ row ∈ rows, c.admits m row = .ok (c.passes m row) := by
  obtain ⟨_, ⟨rfl, fit⟩, -⟩ := h.sound
  have holds : Holds s.tables s := ⟨rfl, fit⟩
  obtain ⟨n, t', made, rfl, after⟩ := changed_of_ok holds done
  obtain ⟨rows, valid, stored, rfl, rfl⟩ := Tables.delete_eq_ok made
  exact ⟨rows, turned_of_put stored after, rfl,
    fun row _ => Criteria.admits_eq_passes (Criteria.check_of_validate valid) row⟩

theorem Reachable.update_turns (h : s.Reachable schema) (used : schema m.table.fullName = m)
    {log : List LogRecord} {affected : Affected}
    (done : (update m c values ⟨s, log⟩).1 = .ok affected) : ∃ rows rows',
      Turned m.table.fullName s (update m c values ⟨s, log⟩).2.state rows rows' ∧
        List.Forall₂ (fun row row' =>
          if c.passes m row then m.Assigned values row row' else row' = row) rows rows' ∧
        affected = .ofRows (rows.countP (c.passes m)) ∧
        ∀ row ∈ rows, c.admits m row = .ok (c.passes m row) := by
  obtain ⟨_, ⟨rfl, fit⟩, sound⟩ := h.sound
  have holds : Holds s.tables s := ⟨rfl, fit⟩
  obtain ⟨n, t', made, rfl, after⟩ := changed_of_ok holds done
  obtain ⟨cells, rows, valid, found, stored, rfl, rfl⟩ := Tables.update_eq_ok made
  refine ⟨rows, _, turned_of_put stored after, ?_, rfl,
    fun row _ => Criteria.admits_eq_passes (Criteria.check_of_validate valid) row⟩
  rw [List.forall₂_map_right_iff, List.forall₂_same]
  intro row hrow
  split
  · have fits := sound.rows used (Tables.rows_eq_ok.mpr stored) row hrow
    exact Tables.assigned_assign found (Nat.le_of_eq fits.length_eq)
  · rfl

/-- In any state that operations lead to, a deletion that succeeds leaves the rows that the filter
does not admit, in their order. An update that succeeds leaves every row in its place, with the last
values assigned where the filter admits the row, and otherwise as it was. Both report how many rows
were admitted as they stood before, and leave the other tables alone. -/
theorem Reachable.touches_admitted (h : s.Reachable schema) (used : schema m.table.fullName = m)
    (c : Criteria) (log : List LogRecord) :
    (∀ affected, (delete m c ⟨s, log⟩).1 = .ok affected → ∃ rows,
      Turned m.table.fullName s (delete m c ⟨s, log⟩).2.state rows
          (rows.filter fun row => !c.passes m row) ∧
        affected = .ofRows (rows.countP (c.passes m)) ∧
        ∀ row ∈ rows, c.admits m row = .ok (c.passes m row)) ∧
    ∀ values affected, (update m c values ⟨s, log⟩).1 = .ok affected → ∃ rows rows',
      Turned m.table.fullName s (update m c values ⟨s, log⟩).2.state rows rows' ∧
        List.Forall₂ (fun row row' =>
          if c.passes m row then m.Assigned values row row' else row' = row) rows rows' ∧
        affected = .ofRows (rows.countP (c.passes m)) ∧
        ∀ row ∈ rows, c.admits m row = .ok (c.passes m row) :=
  ⟨fun _ done => h.delete_turns done, fun _ _ done => h.update_turns used done⟩

/-- The accounts of one owner, who is renamed twice and has a new balance. -/
def annsOnly : Criteria := .allOf [.test "owner" (.equal (.of (.varchar "ann"))) true]

def renamings : Assignments :=
  [("owner", .of (.varchar "eve")), ("balance", .of (.int64 3)), ("owner", .of (.varchar "bob"))]

theorem touches_admitted_bank :
    (delete accounts annsOnly ⟨bank, []⟩).1 = .ok (.ofRows 1) ∧
    Turned "accounts" bank (delete accounts annsOnly ⟨bank, []⟩).2.state
      [annsAccount, renamedAccount] [renamedAccount] ∧
    (update accounts annsOnly renamings ⟨bank, []⟩).1 = .ok (.ofRows 1) ∧
    ∃ renamed, Turned "accounts" bank (update accounts annsOnly renamings ⟨bank, []⟩).2.state
        [annsAccount, renamedAccount] [renamed, renamedAccount] ∧
      accounts.Assigned renamings annsAccount renamed := by
  obtain ⟨deletes, updates⟩ := reachable_bank.touches_admitted (m := accounts) rfl annsOnly []
  have deleted : (delete accounts annsOnly ⟨bank, []⟩).1 = .ok (.ofRows 1) :=
    eq_ok_of_toOption (by decide +kernel)
  have updated : (update accounts annsOnly renamings ⟨bank, []⟩).1 = .ok (.ofRows 1) :=
    eq_ok_of_toOption (by decide +kernel)
  have admitted : annsOnly.passes accounts annsAccount = true := by decide +kernel
  have left : annsOnly.passes accounts renamedAccount = false := by decide +kernel
  obtain ⟨rows, gone, -, -⟩ := deletes _ deleted
  obtain rfl := Option.some.inj (stored_bank.symm.trans gone.before)
  obtain ⟨rows, rows', turned, each, -, -⟩ := updates renamings _ updated
  obtain rfl := Option.some.inj (stored_bank.symm.trans turned.before)
  rw [List.forall₂_cons_left_iff] at each
  obtain ⟨renamed, rest, first, each, rfl⟩ := each
  rw [List.forall₂_cons_left_iff] at each
  obtain ⟨other, rest, second, each, rfl⟩ := each
  obtain rfl := List.forall₂_nil_left_iff.mp each
  rw [admitted, if_pos rfl] at first
  rw [left, if_neg Bool.false_ne_true] at second
  subst second
  simp only [List.filter_cons, admitted, left, List.filter_nil] at gone
  exact ⟨deleted, gone, updated, renamed, turned, first⟩

end Memory
end DataAccess
