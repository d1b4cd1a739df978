import DataAccess.Memory.Store
import DataAccess.Proofs.Columns
import DataAccess.Proofs.Keyed
import DataAccess.Proofs.Value.Coerced
import DataAccess.Result.Labeled

/-!
Rows as a table keeps them: a cell for each column, of the column's kind, and NULL only where that
is allowed. What changes a table leaves its rows so.
-/
namespace DataAccess

namespace Column

/-- A cell that a column may hold. -/
structure Fits (c : Column) (v : Value) : Prop where
  kind : ∀ k, c.kind = some k → v.kind = some k
  nullable : v.isNull = true → c.nullable = true

theorem fits_iff {c : Column} {v : Value} : c.Fits v ↔
    (∀ k ∈ c.kind, v.kind = some k) ∧ (v.isNull = true → c.nullable = true) :=
  ⟨fun h => ⟨h.kind, h.nullable⟩, fun h => ⟨h.1, h.2⟩⟩

instance (c : Column) (v : Value) : Decidable (c.Fits v) := decidable_of_iff _ fits_iff.symm

theorem Fits.coerce {c : Column} {v : Value} (h : c.Fits v) : v.coerce c.kind = .ok v := by
  cases hk : c.kind with
  | none => rfl
  | some k =>
    have hv := h.kind k hk
    exact Value.coerce_of_kind hv

end Column

namespace Mapping

/-- A row that a table may hold. -/
def Fits (m : Mapping) (row : Row) : Prop := List.Forall₂ Column.Fits m.columns row

instance (m : Mapping) (row : Row) : Decidable (m.Fits row) :=
  inferInstanceAs (Decidable (List.Forall₂ Column.Fits m.columns row))

theorem fits_cell {m : Mapping} {row : Row} (fits : m.Fits row) {i : Nat} {c : Column}
    (hc : m.columns[i]? = some c) : c.Fits (row.cell i) := by
  obtain ⟨hi, rfl⟩ := List.getElem?_eq_some_iff.mp hc
  have hlt : i < row.length := fits.length_eq ▸ hi
  have := fits.get hi hlt
  simpa [Row.cell, hlt] using this

/-- Columns of different names are found in a row one after the other. -/
theorem projectColumns_eq (m : Mapping) {rest : List Column} {tail : Row}
    (fits : List.Forall₂ Column.Fits rest tail) : ∀ (done : List Column) (cells : Row),
    ((done ++ rest).map (·.name)).Nodup → cells.length = done.length →
    m.projectColumns Value.coerce rest ⟨(done ++ rest).map (·.name), cells ++ tail⟩ = .ok tail := by
  induction fits with
  | nil => exact fun _ _ _ _ => rfl
  | @cons c v rest tail hv _ ih =>
    intro done cells distinct hlen
    have fresh : c.name ∉ done.map (·.name) := by
      rw [List.map_append, List.map_cons] at distinct
      exact fun h => (List.nodup_append.mp distinct).2.2 _ h _ List.mem_cons_self rfl
    have place : ((done ++ c :: rest).map (·.name)).findIdx? (· = c.name) = some done.length := by
      have absent : (done.map (·.name)).findIdx? (· = c.name) = none := by
        rw [List.findIdx?_eq_none_iff]
        exact fun x hx => decide_eq_false fun h => fresh (h ▸ hx)
      rw [List.map_append, List.map_cons, List.findIdx?_append, absent, List.findIdx?_cons]
      simp
    have taken : LabeledRow.take? ⟨(done ++ c :: rest).map (·.name), cells ++ v :: tail⟩ c.name =
        some (v, ⟨(done ++ c :: rest).map (·.name), cells ++ .null none :: tail⟩) := by
      rw [LabeledRow.take?, LabeledRow.position?, place, ← hlen]
      simp [Row.cell]
    have next := ih (done ++ [c]) (cells ++ [.null none]) (by simpa using distinct)
      (by simp [hlen])
    rw [List.append_assoc, List.append_assoc, List.singleton_append, List.singleton_append] at next
    rw [projectColumns, taken]
    simp only [Option.elim, undecodable, Except.mapError, hv.coerce, next, Outcome.ok_bind,
      Outcome.pure_eq]

/-- A row of the table comes back as it was stored. -/
theorem project_of_fits {m : Mapping} (distinct : m.labels.Nodup) {row : Row} (fits : m.Fits row) :
    m.project Value.coerce ⟨m.labels, row⟩ = .ok row :=
  m.projectColumns_eq fits [] [] distinct rfl

end Mapping

namespace Memory.Tables

variable {t t' : Tables} {m : Mapping} {schema : String → Mapping}

/-- Each table holds rows of the mapping it is used through. -/
def Sound (schema : String → Mapping) (t : Tables) : Prop :=
  ∀ name rows, t.find? name = some rows → ∀ row ∈ rows, (schema name).Fits row

theorem cellFor_eq_ok {c : Column} {v w : Value} : cellFor m c v = .ok w ↔
    v.coerce c.kind = .ok w ∧ (w.isNull = true → c.nullable = true) := by
  simp only [cellFor, Outcome.bind_eq_ok, Outcome.mapError_eq_ok, Outcome.guarded_eq_ok,
    Outcome.pure_eq_ok]
  constructor
  · intro h
    obtain ⟨_, coerced, allowed, rfl⟩ := h
    exact ⟨coerced, by simpa using allowed⟩
  · intro ⟨coerced, allowed⟩
    exact ⟨w, coerced, by simpa using allowed, rfl⟩

theorem cellFor_fits {c : Column} {v w : Value} (h : cellFor m c v = .ok w) : c.Fits w := by
  obtain ⟨coerced, allowed⟩ := cellFor_eq_ok.mp h
  exact ⟨fun k hk => Value.kind_of_coerce (hk ▸ coerced), allowed⟩

theorem cellsFor_fits {columns : List Column} {row stored : Row}
    (width : row.length = columns.length)
    (h : (columns.zip row).mapM (fun (c, v) => cellFor m c v) = .ok stored) :
    List.Forall₂ Column.Fits columns stored := by
  induction columns generalizing row stored with
  | nil =>
    obtain rfl : stored = [] := by simpa [eq_comm] using h
    exact List.Forall₂.nil
  | cons c rest ih =>
    cases row with
    | nil => simp at width
    | cons v row =>
      obtain ⟨w, ws, hw, hws, rfl⟩ := Outcome.mapM_cons.mp h
      exact List.Forall₂.cons (cellFor_fits hw) (ih (by simpa using width) hws)

theorem rows_eq_ok {rows : List Row} : t.rows m = .ok rows ↔
    t.find? m.table.fullName = some rows := by
  unfold Tables.rows
  split <;> simp_all

theorem eq_of_create {ifNotExists : Bool} (h : t.create m ifNotExists = .ok t') :
    t' = t.put m.table.fullName [] ∨ t' = t := by
  unfold Tables.create at h
  split at h
  · exact Or.inl (Except.ok.inj h).symm
  · split at h
    · exact Or.inr (Except.ok.inj h).symm
    · simp at h

theorem eq_of_drop {ifExists : Bool} (h : t.drop m ifExists = .ok t') :
    t' = t.erase m.table.fullName ∨ t' = t := by
  unfold Tables.drop at h
  split at h
  · exact Or.inl (Except.ok.inj h).symm
  · split at h
    · exact Or.inr (Except.ok.inj h).symm
    · simp at h

/-- The cells are made to fit, and the row is put last where no row has its key. -/
theorem exists_of_insert {row : Row} (h : t.insert m row = .ok t') : ∃ stored rows,
    (m.columns.zip row).mapM (fun (c, v) => cellFor m c v) = .ok stored ∧
      t.rows m = .ok rows ∧
      (m.primaryKeys ≠ [] → ∀ r ∈ rows, sameKeys m.primaryKeys r stored = false) ∧
      t' = t.put m.table.fullName (rows ++ [stored]) := by
  simp only [Tables.insert, Outcome.bind_eq_ok, Outcome.guarded_eq_ok, Outcome.pure_eq_ok] at h
  obtain ⟨stored, hs, rows, hr, fresh, rfl⟩ := h
  refine ⟨stored, rows, hs, hr, fun keyed r hr => ?_, rfl⟩
  have apart : rows.any (sameKeys m.primaryKeys · stored) = false := by simpa [keyed] using fresh
  exact Bool.eq_false_iff.mpr (List.any_eq_false.mp apart r hr)

/-- The values are made to fit their columns and set in the rows that the filter admits. -/
theorem exists_of_update {c : Criteria} {values : Assignments} {n : Nat}
    (h : t.update m c values = .ok (n, t')) : ∃ cells rows hits, c.validate m = .ok () ∧
      (∀ e ∈ cells, ∃ a ∈ values, ∃ column, m.find a.1 = .ok (e.1, column) ∧
        cellFor m column a.2 = .ok e.2) ∧
      t.rows m = .ok rows ∧ matched m c rows = .ok hits ∧ n = hits.count true ∧
      t' = t.put m.table.fullName
        (List.zipWith (fun row hit => if hit then assign row cells else row) rows hits) := by
  simp only [Tables.update, Outcome.bind_eq_ok, Outcome.pure_eq_ok, Outcome.mapError_eq_ok,
    Prod.mk.injEq] at h
  obtain ⟨_, valid, cells, hcells, rows, hr, hits, hh, rfl, rfl⟩ := h
  refine ⟨cells, rows, hits, valid, fun e he => ?_, hr, hh, rfl, rfl⟩
  obtain ⟨a, ha, hae⟩ := Outcome.mem_of_mapM_eq_ok hcells he
  simp only [Outcome.bind_eq_ok, Outcome.mapError_eq_ok, Outcome.pure_eq_ok] at hae
  obtain ⟨⟨i, column⟩, hfind, w, hw, rfl⟩ := hae
  exact ⟨a, ha, column, hfind, hw⟩

/-- The rows that the filter does not admit stay. -/
theorem exists_of_delete {c : Criteria} {n : Nat} (h : t.delete m c = .ok (n, t')) :
    ∃ rows hits, c.validate m = .ok () ∧ t.rows m = .ok rows ∧ matched m c rows = .ok hits ∧
      n = hits.count true ∧ t' = t.put m.table.fullName
        ((rows.zip hits).filterMap fun (row, hit) => if hit then none else some row) := by
  simp only [Tables.delete, Outcome.bind_eq_ok, Outcome.pure_eq_ok, Outcome.mapError_eq_ok,
    Prod.mk.injEq] at h
  obtain ⟨_, valid, rows, hr, hits, hh, rfl, rfl⟩ := h
  exact ⟨rows, hits, valid, hr, hh, rfl, rfl⟩

theorem unhit_sublist (rows : List Row) (hits : List Bool) :
    ((rows.zip hits).filterMap fun (row, hit) => if hit then none else some row).Sublist rows := by
  induction rows generalizing hits with
  | nil => exact List.Sublist.refl _
  | cons row rest ih =>
    cases hits with
    | nil => exact List.nil_sublist _
    | cons hit hits => cases hit with
      | true => exact (ih hits).cons row
      | false => exact (ih hits).cons_cons row

theorem exists_of_deleteAll {n : Nat} (h : t.deleteAll m = .ok (n, t')) :
    ∃ rows, t.rows m = .ok rows ∧ n = rows.length ∧ t' = t.put m.table.fullName [] := by
  simp only [Tables.deleteAll, Outcome.bind_eq_ok, Outcome.pure_eq_ok, Prod.mk.injEq] at h
  obtain ⟨rows, hr, rfl, rfl⟩ := h
  exact ⟨rows, hr, rfl, rfl⟩

/-- What holds of each table's rows with its mapping. -/
def Each (P : Mapping → List Row → Prop) (schema : String → Mapping) (t : Tables) : Prop :=
  ∀ name rows, t.find? name = some rows → P (schema name) rows

namespace Each

variable {P : Mapping → List Row → Prop}

theorem nil : Each P schema [] := fun _ _ h => by simp [Keyed.find?] at h

/-- A table is put in place of another of its name. -/
theorem put (each : t.Each P schema) (used : schema m.table.fullName = m) {rows : List Row}
    (h : P m rows) : Each P schema (t.put m.table.fullName rows) := by
  intro name rows' hf
  rw [Keyed.find?_put] at hf
  split at hf
  · rename_i hn
    obtain rfl : rows = rows' := by simpa using hf
    rwa [hn, used]
  · exact each name rows' hf

theorem rows (each : t.Each P schema) (used : schema m.table.fullName = m) {rows : List Row}
    (h : t.rows m = .ok rows) : P m rows := by
  have := each _ _ (rows_eq_ok.mp h)
  rwa [used] at this

theorem create (each : t.Each P schema) (used : schema m.table.fullName = m) (empty : P m [])
    {ifNotExists : Bool} (h : t.create m ifNotExists = .ok t') : t'.Each P schema := by
  rcases eq_of_create h with rfl | rfl
  · exact each.put used empty
  · exact each

theorem drop (each : t.Each P schema) {ifExists : Bool} (h : t.drop m ifExists = .ok t') :
    t'.Each P schema := by
  rcases eq_of_drop h with rfl | rfl
  · intro name rows hf
    rw [Keyed.find?_erase] at hf
    split at hf
    · simp at hf
    · exact each name rows hf
  · exact each

theorem delete (each : t.Each P schema) (used : schema m.table.fullName = m)
    (fewer : ∀ rows kept, P m rows → kept.Sublist rows → P m kept) {c : Criteria} {n : Nat}
    (h : t.delete m c = .ok (n, t')) : t'.Each P schema := by
  obtain ⟨rows, hits, -, hr, -, -, rfl⟩ := exists_of_delete h
  exact each.put used (fewer rows _ (each.rows used hr) (unhit_sublist rows hits))

theorem deleteAll (each : t.Each P schema) (used : schema m.table.fullName = m) (empty : P m [])
    {n : Nat} (h : t.deleteAll m = .ok (n, t')) : t'.Each P schema := by
  obtain ⟨-, -, -, rfl⟩ := exists_of_deleteAll h
  exact each.put used empty

end Each

theorem sound_iff : t.Sound schema ↔ t.Each (fun m rows => ∀ row ∈ rows, m.Fits row) schema :=
  Iff.rfl

theorem Sound.rows (sound : t.Sound schema) (used : schema m.table.fullName = m)
    {rows : List Row} (h : t.rows m = .ok rows) : ∀ row ∈ rows, m.Fits row :=
  (sound_iff.mp sound).rows used h

theorem Sound.insert (sound : t.Sound schema) (used : schema m.table.fullName = m) {row : Row}
    (width : row.length = m.columns.length) (h : t.insert m row = .ok t') : t'.Sound schema := by
  obtain ⟨stored, rows, hs, hr, -, rfl⟩ := exists_of_insert h
  have fits : m.Fits stored := cellsFor_fits width hs
  refine sound_iff.mpr ((sound_iff.mp sound).put used fun row hrow => ?_)
  rcases List.mem_append.mp hrow with hrow | hrow
  · exact sound.rows used hr row hrow
  · exact List.mem_singleton.mp hrow ▸ fits

/-- Cells fit the columns they are assigned to. -/
theorem fits_assign {cells : List (Nat × Value)} {row : Row} (fits : m.Fits row)
    (each : ∀ e ∈ cells, ∃ c, m.columns[e.1]? = some c ∧ c.Fits e.2) :
    m.Fits (assign row cells) := by
  have one {columns : List Column} {row : Row} (fits : List.Forall₂ Column.Fits columns row)
      {c : Column} {v : Value} (hv : c.Fits v) : ∀ i, columns[i]? = some c →
      List.Forall₂ Column.Fits columns (row.set i v) := by
    induction fits with
    | nil => simp
    | cons hd tl ih =>
      intro i hc
      cases i with
      | zero =>
        obtain rfl := Option.some.inj hc
        exact List.Forall₂.cons hv tl
      | succ i => exact List.Forall₂.cons hd (ih i hc)
  induction cells generalizing row with
  | nil => exact fits
  | cons e rest ih =>
    obtain ⟨⟨c, hc, hv⟩, hrest⟩ := List.forall_mem_cons.mp each
    exact ih (one fits hv e.1 hc) hrest

theorem Sound.update (sound : t.Sound schema) (used : schema m.table.fullName = m) {c : Criteria}
    {values : Assignments} {n : Nat} (h : t.update m c values = .ok (n, t')) :
    t'.Sound schema := by
  obtain ⟨cells, rows, hits, -, hcells, hr, -, -, rfl⟩ := exists_of_update h
  have each : ∀ e ∈ cells, ∃ c, m.columns[e.1]? = some c ∧ c.Fits e.2 := by
    intro e he
    obtain ⟨a, -, column, hfind, hw⟩ := hcells e he
    exact ⟨column, Mapping.getElem?_of_find hfind, cellFor_fits hw⟩
  refine sound_iff.mpr ((sound_iff.mp sound).put used fun row hrow => ?_)
  rw [← List.map_uncurry_zip_eq_zipWith] at hrow
  obtain ⟨⟨stored, hit⟩, hmem, rfl⟩ := List.mem_map.mp hrow
  have fits := sound.rows used hr stored (List.of_mem_zip hmem).1
  cases hit with
  | true => exact fits_assign fits each
  | false => exact fits

end Memory.Tables
end DataAccess
