import DataAccess.Proofs.Undecodable
import DataAccess.Proofs.Value.Coerced
import Mathlib.Data.List.Perm.Basic

/-!
Cells brought into column order. Each is moved out of the row as it is read, so of columns with one
name the first has the cell and the others have NULL; where names differ, each column has the cell
of its own label. The order of the labels does not matter as long as they differ.
-/
namespace DataAccess

open Outcome

namespace LabeledRow

variable {row row' rest : LabeledRow} {label : String} {v : Value}

/-- As many labels as cells. -/
def Even (row : LabeledRow) : Prop := row.labels.length = row.cells.length

theorem exists_find?_of_position? (even : row.Even) {i : Nat}
    (place : row.position? label = some i) : ∃ v, row.find? label = some v := by
  obtain ⟨inside, -, -⟩ := List.findIdx?_eq_some_iff_getElem.mp place
  exact ⟨_, by rw [find?, place, Option.bind_some, List.getElem?_eq_getElem (even ▸ inside)]⟩

theorem take?_eq_none_iff (even : row.Even) : row.take? label = none ↔ row.find? label = none := by
  rw [take?, Option.map_eq_none_iff]
  constructor
  · intro absent
    rw [find?, absent, Option.bind_none]
  · intro absent
    by_contra there
    obtain ⟨i, place⟩ := Option.ne_none_iff_exists'.mp there
    obtain ⟨v, found⟩ := exists_find?_of_position? even place
    exact Option.some_ne_none v (found.symm.trans absent)

theorem find?_of_taken (even : row.Even) (taken : row.take? label = some (v, rest)) :
    row.find? label = some v := by
  cases found : row.find? label with
  | none => exact nomatch taken.symm.trans ((take?_eq_none_iff even).mpr found)
  | some w =>
    obtain ⟨rest', taken'⟩ := take?_of_find? found
    rw [(Prod.mk.inj (Option.some.inj (taken.symm.trans taken'))).1]

theorem Even.of_take? (even : row.Even) (taken : row.take? label = some (v, rest)) : rest.Even := by
  obtain ⟨i, -, moved⟩ := Option.map_eq_some_iff.mp taken
  obtain ⟨-, rfl⟩ := Prod.mk.inj moved
  exact even.trans List.length_set.symm

/-- The label of a cell that was moved out gives NULL. -/
theorem find?_self_of_take? (even : row.Even) (taken : row.take? label = some (v, rest)) :
    rest.find? label = some (.null none) := by
  obtain ⟨i, place, moved⟩ := Option.map_eq_some_iff.mp taken
  obtain ⟨-, rfl⟩ := Prod.mk.inj moved
  obtain ⟨inside, -, -⟩ := List.findIdx?_eq_some_iff_getElem.mp place
  change (row.position? label).bind _ = _
  rw [place, Option.bind_some, List.getElem?_set_self (even ▸ inside)]

/-- What a column of this name is given when others were served before: NULL if one of them had its
name, and otherwise the first cell of the label. -/
def offered (row : LabeledRow) (earlier : List Column) (name : String) : Option Value :=
  if name ∈ earlier.map (·.name) then (row.find? name).map fun _ => .null none else row.find? name

theorem offered_nil (row : LabeledRow) (name : String) : row.offered [] name = row.find? name :=
  if_neg List.not_mem_nil

theorem offered_of_notMem {earlier : List Column} {name : String}
    (fresh : name ∉ earlier.map (·.name)) : row.offered earlier name = row.find? name :=
  if_neg fresh

/-- What is left of a row when columns were served from it. -/
structure Left (row : LabeledRow) (earlier : List Column) (rest : LabeledRow) : Prop where
  even : rest.Even
  offers : ∀ name, rest.find? name = row.offered earlier name

theorem Left.start (even : row.Even) : row.Left [] row :=
  ⟨even, fun name => (row.offered_nil name).symm⟩

theorem Left.next {earlier : List Column} {c : Column} (left : row.Left earlier rest)
    (taken : rest.take? c.name = some (v, row')) : row.Left (earlier ++ [c]) row' := by
  refine ⟨left.even.of_take? taken, fun name => ?_⟩
  have served : name ∈ (earlier ++ [c]).map (·.name) ↔
      name ∈ earlier.map (·.name) ∨ name = c.name := by
    rw [List.map_append, List.mem_append, List.map_singleton, List.mem_singleton]
  by_cases same : name = c.name
  · subst same
    -- Whatever the label offered, it has a cell in the row as it was.
    have there : ∃ w, row.find? c.name = some w := by
      have found := (left.offers c.name).symm.trans (find?_of_taken left.even taken)
      unfold offered at found
      split at found
      · obtain ⟨w, there, -⟩ := Option.map_eq_some_iff.mp found
        exact ⟨w, there⟩
      · exact ⟨v, found⟩
    obtain ⟨w, there⟩ := there
    rw [find?_self_of_take? left.even taken, offered, if_pos (served.mpr (.inr rfl)), there,
      Option.map_some]
  · rw [find?_of_take? taken (Ne.symm same), left.offers, offered, offered]
    simp only [served, same, or_false]

/-- Rows in which each label finds the same are taken from alike. -/
theorem find?_congr_of_take? {rest' : LabeledRow} {w : Value} (even : row.Even) (even' : row'.Even)
    (alike : ∀ name, row.find? name = row'.find? name) (taken : row.take? label = some (v, rest))
    (taken' : row'.take? label = some (w, rest')) :
    v = w ∧ ∀ name, rest.find? name = rest'.find? name := by
  refine ⟨?_, fun name => ?_⟩
  · have found := (find?_of_taken even taken).symm.trans (alike label)
    exact Option.some.inj (found.trans (find?_of_taken even' taken'))
  · by_cases same : name = label
    · rw [same, find?_self_of_take? even taken, find?_self_of_take? even' taken']
    · rw [find?_of_take? taken (Ne.symm same), find?_of_take? taken' (Ne.symm same), alike]

/-- Where labels differ, each finds the cell beside it. -/
theorem find?_eq_some_iff (distinct : row.labels.Nodup) :
    row.find? label = some v ↔ (label, v) ∈ row.labels.zip row.cells := by
  rw [List.mem_iff_getElem?]
  constructor
  · intro found
    obtain ⟨i, place, cell⟩ := Option.bind_eq_some_iff.mp found
    obtain ⟨inside, here, -⟩ := List.findIdx?_eq_some_iff_getElem.mp place
    refine ⟨i, List.getElem?_zip_eq_some.mpr ⟨?_, cell⟩⟩
    rw [List.getElem?_eq_getElem inside, of_decide_eq_true here]
  · rintro ⟨i, pair⟩
    obtain ⟨here, cell⟩ := List.getElem?_zip_eq_some.mp pair
    obtain ⟨inside, named⟩ := List.getElem?_eq_some_iff.mp here
    have place : row.position? label = some i := by
      refine List.findIdx?_eq_some_iff_getElem.mpr ⟨inside, decide_eq_true named, fun j hj => ?_⟩
      intro earlier
      have clash : row.labels[j] = row.labels[i] := by rw [of_decide_eq_true earlier, named]
      exact absurd (distinct.getElem_inj_iff.mp clash) (Nat.ne_of_lt hj)
    rw [find?, place, Option.bind_some, cell]

/-- The same cells under the same labels. -/
def Rearranged (row row' : LabeledRow) : Prop :=
  (row.labels.zip row.cells).Perm (row'.labels.zip row'.cells)

theorem Rearranged.find?_eq (h : row.Rearranged row') (even : row.Even) (even' : row'.Even)
    (distinct : row.labels.Nodup) (name : String) : row.find? name = row'.find? name := by
  have distinct' : row'.labels.Nodup := by
    have labels := h.map Prod.fst
    rw [List.map_fst_zip (Nat.le_of_eq even), List.map_fst_zip (Nat.le_of_eq even')] at labels
    exact labels.nodup_iff.mp distinct
  refine Option.ext fun v => ?_
  rw [find?_eq_some_iff distinct, find?_eq_some_iff distinct', h.mem_iff]

end LabeledRow

namespace Mapping

variable {m : Mapping} {coerce : Value → Option Kind → Outcome Value} {row row' : LabeledRow}
  {cells : Row}

theorem projectColumns_cons_eq_ok {c : Column} {rest : List Column} :
    m.projectColumns coerce (c :: rest) row = .ok cells ↔ ∃ v row' w ws,
      row.take? c.name = some (v, row') ∧ coerce v c.kind = .ok w ∧
        m.projectColumns coerce rest row' = .ok ws ∧ cells = w :: ws := by
  simp only [projectColumns, bind_eq_ok, undecodable, mapError_eq_ok, pure_eq_ok, Prod.exists]
  cases taken : row.take? c.name with
  | none => simp
  | some p => simp [eq_comm]

/-- Each column is given what those before it have left. -/
theorem projectColumns_eq_ok_iff {rest : List Column} (earlier : List Column)
    (left : row.Left earlier row') : m.projectColumns coerce rest row' = .ok cells ↔
      List.Forall₂ (fun p w => ∃ v, row.offered ((earlier ++ rest).take p.2) p.1.name = some v ∧
        coerce v p.1.kind = .ok w) (rest.zipIdx earlier.length) cells := by
  induction rest generalizing earlier row' cells with
  | nil => simp [projectColumns, eq_comm]
  | cons c rest ih =>
    have own : (earlier ++ c :: rest).take earlier.length = earlier := List.take_left
    rw [projectColumns_cons_eq_ok, List.zipIdx_cons, List.forall₂_cons_left_iff]
    dsimp only
    rw [own]
    constructor
    · rintro ⟨v, row₂, w, ws, taken, coerced, others, rfl⟩
      have found := (left.offers c.name).symm.trans (LabeledRow.find?_of_taken left.even taken)
      have tail := (ih (earlier ++ [c]) (left.next taken)).mp others
      rw [List.length_append, List.append_assoc] at tail
      exact ⟨w, ws, ⟨v, found, coerced⟩, tail, rfl⟩
    · rintro ⟨w, ws, ⟨v, found, coerced⟩, tail, rfl⟩
      obtain ⟨row₂, taken⟩ := LabeledRow.take?_of_find? ((left.offers c.name).trans found)
      refine ⟨v, row₂, w, ws, taken, coerced, (ih (earlier ++ [c]) (left.next taken)).mpr ?_, rfl⟩
      rw [List.length_append, List.append_assoc]
      exact tail

theorem projectColumns_congr {columns : List Column} (even : row.Even) (even' : row'.Even)
    (alike : ∀ name, row.find? name = row'.find? name) :
    m.projectColumns coerce columns row = m.projectColumns coerce columns row' := by
  induction columns generalizing row row' with
  | nil => rfl
  | cons c columns ih =>
    rw [projectColumns, projectColumns]
    cases taken : row.take? c.name with
    | none =>
      have absent := (alike c.name).symm.trans ((LabeledRow.take?_eq_none_iff even).mp taken)
      rw [(LabeledRow.take?_eq_none_iff even').mpr absent]
    | some p =>
      have found := (alike c.name).symm.trans (LabeledRow.find?_of_taken even taken)
      obtain ⟨rest', taken'⟩ := LabeledRow.take?_of_find? found
      obtain ⟨-, onward⟩ := LabeledRow.find?_congr_of_take? even even' alike taken taken'
      rw [taken']
      dsimp only [Option.elim]
      change (m.undecodable (coerce p.1 c.kind) >>= fun cell => _) =
        (m.undecodable (coerce p.1 c.kind) >>= fun cell => _)
      rw [ih (even.of_take? taken) (even'.of_take? taken') onward]

/-- The cells that the columns are given, each as its column's kind. -/
theorem project_eq_ok_iff (even : row.Even) : m.project coerce row = .ok cells ↔
    List.Forall₂ (fun p w => ∃ v, row.offered (m.columns.take p.2) p.1.name = some v ∧
      coerce v p.1.kind = .ok w) m.columns.zipIdx cells :=
  projectColumns_eq_ok_iff [] (.start even)

/-- Each column has the first cell under its own name. -/
def OwnCells (m : Mapping) (coerce : Value → Option Kind → Outcome Value) (row : LabeledRow)
    (cells : Row) : Prop :=
  List.Forall₂ (fun c w => ∃ v, row.find? c.name = some v ∧ coerce v c.kind = .ok w) m.columns cells

/-- A projection succeeds just where each column has a cell of its own, and gives these. -/
def ReadsOwn (m : Mapping) (coerce : Value → Option Kind → Outcome Value) : Prop :=
  ∀ row : LabeledRow, row.Even → ∀ cells, m.project coerce row = .ok cells ↔
    m.OwnCells coerce row cells

theorem readsOwn_of_nodup (distinct : m.labels.Nodup) : m.ReadsOwn coerce := by
  intro row even cells
  have fresh (p : Column × Nat) (hp : p ∈ m.columns.zipIdx) :
      p.1.name ∉ (m.columns.take p.2).map (·.name) := by
    have here : m.labels[p.2]? = some p.1.name := by
      rw [labels, List.getElem?_map, List.mem_zipIdx_iff_getElem?.mp hp, Option.map_some]
    obtain ⟨inside, named⟩ := List.getElem?_eq_some_iff.mp here
    rw [List.map_take, List.mem_take_iff_getElem]
    rintro ⟨j, hj, clash⟩
    have same := distinct.getElem_inj_iff.mp (clash.trans named.symm)
    omega
  have columns : m.OwnCells coerce row cells ↔ List.Forall₂ (fun p w => ∃ v,
      row.find? p.1.name = some v ∧ coerce v p.1.kind = .ok w) m.columns.zipIdx cells := by
    rw [OwnCells, ← List.zipIdx_map_fst 0 m.columns, List.forall₂_map_left_iff,
      List.zipIdx_map_fst]
  rw [project_eq_ok_iff even, columns, List.forall₂_iff_zip, List.forall₂_iff_zip]
  refine and_congr_right fun _ => forall₂_congr fun p w => forall_congr' fun mem => ?_
  rw [LabeledRow.offered_of_notMem (fresh p (List.of_mem_zip mem).1)]

theorem exists_scalar (kind : Kind) : ∃ s : Scalar, s.kind = kind := by
  let day : Date := ⟨0, 1, 1, by decide, by decide, by decide⟩
  let midnight : Time := ⟨0, 0, 0, 0, by decide, by decide, by decide, by decide⟩
  cases kind with
  | boolean => exact ⟨.boolean true, rfl⟩
  | int32 => exact ⟨.int32 0, rfl⟩
  | int64 => exact ⟨.int64 0, rfl⟩
  | float64 => exact ⟨.float64 .nan, rfl⟩
  | decimal => exact ⟨.decimal .zero, rfl⟩
  | varchar => exact ⟨.varchar "", rfl⟩
  | blob => exact ⟨.blob [], rfl⟩
  | date => exact ⟨.date day, rfl⟩
  | time => exact ⟨.time midnight, rfl⟩
  | timestamp => exact ⟨.timestamp ⟨day, midnight⟩, rfl⟩
  | uuid => exact ⟨.uuid ⟨0⟩, rfl⟩

theorem exists_forall₂ {α β : Type} {R : α → β → Prop} {as : List α}
    (each : ∀ a ∈ as, ∃ b, R a b) : ∃ bs, List.Forall₂ R as bs := by
  induction as with
  | nil => exact ⟨[], .nil⟩
  | cons a rest ih =>
    obtain ⟨first, others⟩ := List.forall_mem_cons.mp each
    obtain ⟨b, hb⟩ := first
    obtain ⟨bs, hbs⟩ := ih others
    exact ⟨b :: bs, .cons hb hbs⟩

/-- A cell under one name, and NULL under the others. -/
def marked (m : Mapping) (name : String) (s : Scalar) : LabeledRow :=
  ⟨m.labels, m.columns.map fun c => if c.name = name then .of s else .null none⟩

theorem even_marked (name : String) (s : Scalar) : (m.marked name s).Even := by
  simp [LabeledRow.Even, marked, labels]

theorem find?_marked (name : String) (s : Scalar) {c : Column} (mem : c ∈ m.columns) :
    (m.marked name s).find? c.name = some (if c.name = name then .of s else .null none) := by
  have listed : c.name ∈ m.labels := List.mem_map_of_mem mem
  obtain ⟨i, place⟩ : ∃ i, (m.marked name s).position? c.name = some i := by
    rw [← Option.isSome_iff_exists, LabeledRow.position?, List.findIdx?_isSome]
    exact List.any_eq_true.mpr ⟨_, listed, decide_eq_true rfl⟩
  obtain ⟨inside, here, -⟩ := List.findIdx?_eq_some_iff_getElem.mp place
  have named : m.labels[i]? = some c.name :=
    (List.getElem?_eq_getElem inside).trans (congrArg some (of_decide_eq_true here))
  rw [labels, List.getElem?_map, Option.map_eq_some_iff] at named
  obtain ⟨d, hd, same⟩ := named
  rw [LabeledRow.find?, place, Option.bind_some]
  simp only [marked, List.getElem?_map, hd, Option.map_some, same]

theorem exists_coerce_self (kind : Option Kind) :
    ∃ s : Scalar, (Value.of s).coerce kind = .ok (.of s) := by
  cases kind with
  | none => exact ⟨.boolean true, rfl⟩
  | some kind =>
    obtain ⟨s, rfl⟩ := exists_scalar kind
    exact ⟨s, Value.coerce_of_kind rfl⟩

/-- The cell goes to the first column of the name, and the others take NULL. -/
theorem exists_project_marked {name : String} {s : Scalar} {c : Column}
    (first : m.columns.find? (·.name = name) = some c)
    (fits : (Value.of s).coerce c.kind = .ok (.of s)) :
    ∃ cells, m.project Value.coerce (m.marked name s) = .ok cells := by
  simp only [project_eq_ok_iff (even_marked name s)]
  refine exists_forall₂ fun p hp => ?_
  have here := List.mem_zipIdx_iff_getElem?.mp hp
  have found := find?_marked name s (List.mem_of_getElem? here)
  by_cases served : p.1.name ∈ (m.columns.take p.2).map (·.name)
  · exact ⟨_, _, by rw [LabeledRow.offered, if_pos served, found, Option.map_some],
      Value.coerce_untyped _⟩
  · rw [LabeledRow.offered_of_notMem served, found]
    by_cases named : p.1.name = name
    · obtain ⟨inside, placed⟩ := List.getElem?_eq_some_iff.mp here
      have split : m.columns = m.columns.take p.2 ++ p.1 :: m.columns.drop (p.2 + 1) := by
        rw [← placed, ← List.drop_eq_getElem_cons inside, List.take_append_drop]
      have own : m.columns.find? (·.name = name) = some p.1 := by
        refine List.find?_eq_some_iff_append.mpr
          ⟨decide_eq_true named, _, _, split, fun d hd => ?_⟩
        have other : d.name ≠ name := fun same =>
          served (List.mem_map.mpr ⟨d, hd, same.trans named.symm⟩)
        simp [other]
      obtain rfl : c = p.1 := Option.some.inj (first.symm.trans own)
      exact ⟨_, _, by rw [if_pos named], fits⟩
    · exact ⟨_, _, by rw [if_neg named], Value.coerce_untyped _⟩

/-- Where two columns have one name, a cell of the first one's kind is not given to the second. -/
theorem nodup_of_readsOwn (own : m.ReadsOwn Value.coerce) : m.labels.Nodup := by
  refine List.nodup_iff_getElem?_ne_getElem?.mpr fun i j before inside clash => ?_
  rw [labels, List.length_map] at inside
  have shared : m.columns[j].name ∈ (m.columns.take j).map (·.name) := by
    have outside : i < m.columns.length := Nat.lt_trans before inside
    have same : m.columns[i].name = m.columns[j].name := by
      simpa [labels, inside, outside] using clash
    exact List.mem_map.mpr ⟨_, List.mem_take_iff_getElem.mpr ⟨i, by omega, rfl⟩, same⟩
  obtain ⟨c, first⟩ : ∃ c, m.columns.find? (·.name = m.columns[j].name) = some c := by
    rw [← Option.isSome_iff_exists, List.find?_isSome]
    exact ⟨_, List.getElem_mem inside, by simp⟩
  -- The row has a cell under that name alone, of which the second column gets a NULL.
  obtain ⟨s, fits⟩ := exists_coerce_self c.kind
  obtain ⟨cells, projected⟩ := exists_project_marked first fits
  have even := even_marked (m := m) m.columns[j].name s
  have found := find?_marked m.columns[j].name s (List.getElem_mem inside)
  rw [if_pos rfl] at found
  have given := (project_eq_ok_iff even).mp projected
  have owned := (own _ even cells).mp projected
  have wide : j < cells.length := owned.length_eq ▸ inside
  obtain ⟨v, there, coerced⟩ := owned.get inside wide
  obtain ⟨v', offered, coerced'⟩ := given.get (by simpa using inside) wide
  simp only [List.get_eq_getElem, List.getElem_zipIdx, Nat.zero_add]
    at there coerced offered coerced'
  obtain rfl := Option.some.inj (found.symm.trans there)
  rw [LabeledRow.offered, if_pos shared, found, Option.map_some] at offered
  obtain rfl := Option.some.inj offered
  rw [Value.coerce_untyped] at coerced'
  have kept := Value.isNull_of_coerce coerced
  rw [← Except.ok.inj coerced'] at kept
  cases kept

/-- Where the names of the columns differ, and only there, a projection succeeds just where each
column has a cell of its own that it can take, and gives these cells. Otherwise a column is given
NULL when one before it had its name. A row of different labels may be rearranged. -/
theorem project_own_cells (m : Mapping) (coerce : Value → Option Kind → Outcome Value) :
    (m.labels.Nodup → m.ReadsOwn coerce) ∧ (m.ReadsOwn Value.coerce → m.labels.Nodup) ∧
    (∀ row : LabeledRow, row.Even → ∀ cells, m.project coerce row = .ok cells ↔
      List.Forall₂ (fun p w => ∃ v, row.offered (m.columns.take p.2) p.1.name = some v ∧
        coerce v p.1.kind = .ok w) m.columns.zipIdx cells) ∧
    ∀ row row' : LabeledRow, row.Even → row'.Even → row.labels.Nodup → row.Rearranged row' →
      m.project coerce row = m.project coerce row' := by
  refine ⟨readsOwn_of_nodup, nodup_of_readsOwn, fun row even cells => project_eq_ok_iff even, ?_⟩
  intro row row' even even' distinct rearranged
  exact projectColumns_congr even even' (rearranged.find?_eq even even' distinct)

/-- Tags with a text and a weight. -/
def tags : Mapping := ⟨⟨"", "tags"⟩,
  [.key "id" "id" .int32, .required "text" "text" .varchar, .optional "weight" "weight" .float64]⟩

/-- A tag as it might come back, with a label that no column has. -/
def looseTag : LabeledRow := ⟨["text", "rank", "weight", "id"],
  [.of (.varchar "red"), .of (.int64 4), .null none, .of (.int64 7)]⟩

def looseTag' : LabeledRow := ⟨["id", "text", "weight", "rank"],
  [.of (.int64 7), .of (.varchar "red"), .null none, .of (.int64 4)]⟩

theorem project_own_cells_tags : tags.labels.Nodup ∧ looseTag.Even ∧
    tags.project Value.coerce looseTag =
      .ok [.of (.int32 7), .of (.varchar "red"), .null (some .float64)] ∧
    tags.project Value.coerce looseTag = tags.project Value.coerce looseTag' := by
  obtain ⟨reads, -, -, free⟩ := project_own_cells tags Value.coerce
  have distinct : tags.labels.Nodup := by decide
  have even : looseTag.Even := rfl
  have swapped : looseTag.Rearranged looseTag' := by
    unfold LabeledRow.Rearranged
    decide
  refine ⟨distinct, even, (reads distinct looseTag even _).mpr ?_,
    free looseTag looseTag' even rfl (by decide) swapped⟩
  exact .cons ⟨_, rfl, rfl⟩ (.cons ⟨_, rfl, rfl⟩ (.cons ⟨_, rfl, rfl⟩ .nil))

/-- Two properties of one column. -/
def mirrored : Mapping := ⟨⟨"", "twice"⟩,
  [.required "first" "x" .int64, .required "second" "x" .int64]⟩

/-- The second of two columns with one name is given NULL, though NULL is not allowed in it and the
label has a cell. -/
theorem project_emptied : ¬mirrored.ReadsOwn Value.coerce ∧
    mirrored.OwnCells Value.coerce ⟨["x", "x"], [.of (.int64 7), .of (.int64 7)]⟩
      [.of (.int64 7), .of (.int64 7)] ∧
    mirrored.project Value.coerce ⟨["x", "x"], [.of (.int64 7), .of (.int64 7)]⟩ =
      .ok [.of (.int64 7), .null (some .int64)] := by
  refine ⟨fun own => absurd (nodup_of_readsOwn own) (by decide), ?_, rfl⟩
  exact .cons ⟨_, rfl, rfl⟩ (.cons ⟨_, rfl, rfl⟩ .nil)

end Mapping
end DataAccess
