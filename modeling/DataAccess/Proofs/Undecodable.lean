import DataAccess.Join.Execution
import DataAccess.Proofs.Memory.Refused
import DataAccess.Value.Native

/-!
Cells that cannot be read. By itself a cell tells of a mistake of the caller, who wants it to be of
another kind. Where rows are brought into the order of their columns, or cut into the sides of a
join, any failure is told as one of the rows that came back.
-/
namespace DataAccess

open Outcome

/-- Told as a failure of what came back. -/
def Undecoded (f : Failure) : Prop := f.kind? = some .resultProcessing

theorem Undecoded.not_misconfigured {f : Failure} (h : Undecoded f) : ¬Misconfigured f := by
  intro mistake
  cases h.symm.trans mistake

namespace Outcome

variable {ε α β : Type} {p : ε → Prop}

/-- Where a step fails, some step is the first to. -/
theorem FailsAs.exists_mapM {f : α → Except ε β} {as : List α} (each : ∀ a ∈ as, FailsAs p (f a))
    {a : α} (mem : a ∈ as) (failed : ∀ b, f a ≠ .ok b) : ∃ e, as.mapM f = .error e ∧ p e := by
  cases whole : as.mapM f with
  | ok bs =>
    obtain ⟨b, done⟩ := exists_mapM_eq_ok.mp ⟨bs, whole⟩ a mem
    exact absurd done (failed b)
  | error e => exact ⟨e, rfl, FailsAs.mapM each e whole⟩

end Outcome

/-- A cell that cannot be turned into another kind tells of who asked for it. -/
theorem Scalar.convert_failsAs (s : Scalar) (kind : Kind) :
    FailsAs Misconfigured (s.convert kind) := by
  unfold convert
  split
  · exact .ok _
  · exact .error rfl

theorem Scalar.coerce_failsAs (s : Scalar) (kind : Kind) :
    FailsAs Misconfigured (s.coerce kind) := by
  unfold coerce
  split
  · exact .ok s
  · split
    · split <;> exact convert_failsAs _ _
    · exact convert_failsAs s kind

theorem Value.coerce_failsAs (v : Value) (kind : Option Kind) :
    FailsAs Misconfigured (v.coerce kind) := by
  cases kind with
  | none => exact .ok v
  | some kind =>
    cases v with
    | null other => exact .ok _
    | of s => exact (s.coerce_failsAs kind).map Value.of

theorem Native.ofValue_failsAs {α : Type} [Native α] (v : Value) :
    FailsAs Misconfigured (ofValue v : Outcome α) := by
  unfold ofValue
  dsimp only
  split
  · exact .ok _
  · exact .error rfl

namespace LabeledRow

variable {row rest : LabeledRow} {label other : String} {v : Value}

theorem take?_of_find? (found : row.find? label = some v) :
    ∃ rest, row.take? label = some (v, rest) := by
  obtain ⟨i, place, cell⟩ := Option.bind_eq_some_iff.mp found
  have moved : row.cells.cell i = v := by
    rw [Row.cell, List.getD_eq_getElem?_getD, cell, Option.getD_some]
  rw [take?, place, Option.map_some, moved]
  exact ⟨_, rfl⟩

/-- What is moved out leaves the cells of other labels. -/
theorem find?_of_take? (taken : row.take? label = some (v, rest)) (ne : label ≠ other) :
    rest.find? other = row.find? other := by
  obtain ⟨i, place, moved⟩ := Option.map_eq_some_iff.mp taken
  obtain ⟨-, rfl⟩ := Prod.mk.inj moved
  have apart (j : Nat) (elsewhere : row.position? other = some j) : i ≠ j := by
    rintro rfl
    have here := (List.findIdx?_eq_some_iff_getElem.mp place).2.1
    have there := (List.findIdx?_eq_some_iff_getElem.mp elsewhere).2.1
    exact ne ((of_decide_eq_true here).symm.trans (of_decide_eq_true there))
  change (row.position? other).bind _ = (row.position? other).bind _
  cases elsewhere : row.position? other with
  | none => rfl
  | some j => exact List.getElem?_set_ne (apart j elsewhere)

end LabeledRow

namespace Mapping

variable {m : Mapping} {coerce : Value → Option Kind → Outcome Value} {α : Type}

theorem undecodable_failsAs (m : Mapping) (x : Outcome α) : FailsAs Undecoded (m.undecodable x) :=
  FailsAs.mapError fun _ _ => rfl

theorem projectColumns_failsAs (columns : List Column) (row : LabeledRow) :
    FailsAs Undecoded (m.projectColumns coerce columns row) := by
  induction columns generalizing row with
  | nil => exact .ok []
  | cons c rest ih =>
    refine (m.undecodable_failsAs _).bind fun taken _ => ?_
    refine (m.undecodable_failsAs _).bind fun cell _ => ?_
    exact (ih taken.2).bind fun _ _ => .ok _

/-- A row that cannot be brought into column order is to blame itself. -/
theorem project_failsAs (row : LabeledRow) : FailsAs Undecoded (m.project coerce row) :=
  projectColumns_failsAs m.columns row

/-- A cell that its column cannot take. Of columns with one name the first has the cell. -/
def Spoiled (m : Mapping) (coerce : Value → Option Kind → Outcome Value) (row : LabeledRow) :
    Prop :=
  ∃ c v, m.columns.find? (·.name = c.name) = some c ∧ row.find? c.name = some v ∧
    ∀ w, coerce v c.kind ≠ .ok w

theorem projectColumns_ne_ok {c : Column} {v : Value} (refused : ∀ w, coerce v c.kind ≠ .ok w)
    {columns : List Column} (first : columns.find? (·.name = c.name) = some c) {row : LabeledRow}
    (found : row.find? c.name = some v) (cells : Row) :
    m.projectColumns coerce columns row ≠ .ok cells := by
  induction columns generalizing row cells with
  | nil => cases first
  | cons d columns ih =>
    intro read
    obtain ⟨⟨cell, rest⟩, taken, read⟩ := bind_eq_ok.mp read
    have taken : row.take? d.name = some (cell, rest) := by
      rw [undecodable, mapError_eq_ok] at taken
      cases there : row.take? d.name <;> simp [there] at taken
      rw [taken]
    obtain ⟨w, coerced, read⟩ := bind_eq_ok.mp read
    obtain ⟨others, read, -⟩ := bind_eq_ok.mp read
    rw [undecodable, mapError_eq_ok] at coerced
    by_cases named : d.name = c.name
    · rw [List.find?_cons_of_pos (by simpa using named)] at first
      obtain rfl := Option.some.inj first
      obtain ⟨rest', taken'⟩ := LabeledRow.take?_of_find? found
      obtain ⟨rfl, -⟩ := Prod.mk.inj (Option.some.inj (taken.symm.trans taken'))
      exact refused w coerced
    · rw [List.find?_cons_of_neg (by simpa using named)] at first
      refine ih first ?_ others read
      rw [LabeledRow.find?_of_take? taken named, found]

theorem Spoiled.project_ne_ok {row : LabeledRow} (spoiled : m.Spoiled coerce row) (cells : Row) :
    m.project coerce row ≠ .ok cells := by
  obtain ⟨c, v, first, found, refused⟩ := spoiled
  exact projectColumns_ne_ok refused first found cells

end Mapping

namespace Join

variable {coerce : Value → Option Kind → Outcome Value} {m : Mapping} {p : Sql.Pair}

theorem sideOf_failsAs (cells : Row) : FailsAs Undecoded (sideOf coerce m cells) := by
  unfold sideOf
  split
  · exact .ok none
  · exact (m.undecodable_failsAs _).map some

/-- A joined row that cannot be cut into its sides is to blame itself. -/
theorem decode_failsAs (row : LabeledRow) : FailsAs Undecoded (decode coerce p row) := by
  dsimp only [decode]
  split
  · exact .error rfl
  · exact (sideOf_failsAs _).bind fun _ _ => (sideOf_failsAs _).bind fun _ _ => .ok _

/-- A side that is there with a cell that its column cannot take. -/
def SideSpoiled (coerce : Value → Option Kind → Outcome Value) (m : Mapping) (cells : Row) : Prop :=
  (∃ i ∈ m.keyPositions, (cells.cell i).isNull = false) ∧
    ∃ cell ∈ cells.zip m.columns, ∀ w, coerce cell.1 cell.2.kind ≠ .ok w

theorem SideSpoiled.sideOf_ne_ok {cells : Row} (spoiled : SideSpoiled coerce m cells)
    (side : Option Row) : sideOf coerce m cells ≠ .ok side := by
  obtain ⟨⟨i, hi, there⟩, cell, mem, refused⟩ := spoiled
  have absent : (m.keyPositions.all fun i => (cells.cell i).isNull) = false :=
    List.all_eq_false.mpr ⟨i, hi, by simp [there]⟩
  intro read
  rw [sideOf, absent, if_neg Bool.false_ne_true] at read
  obtain ⟨row, read, -⟩ := map_eq_ok.mp read
  rw [Mapping.undecodable, mapError_eq_ok] at read
  obtain ⟨w, coerced⟩ := exists_mapM_eq_ok.mp ⟨row, read⟩ cell mem
  exact refused w coerced

/-- A joined row with such a side. -/
def Spoiled (coerce : Value → Option Kind → Outcome Value) (p : Sql.Pair) (row : LabeledRow) :
    Prop :=
  SideSpoiled coerce p.left (row.cells.take p.left.columns.length) ∨
    SideSpoiled coerce p.right (row.cells.drop p.left.columns.length)

theorem Spoiled.decode_ne_ok {row : LabeledRow} (spoiled : Spoiled coerce p row) (r : JoinedRow) :
    decode coerce p row ≠ .ok r := by
  intro read
  dsimp only [decode] at read
  split at read
  · cases read
  · obtain ⟨left, hl, read⟩ := bind_eq_ok.mp read
    obtain ⟨right, hr, -⟩ := bind_eq_ok.mp read
    rcases spoiled with spoiled | spoiled
    · exact spoiled.sideOf_ne_ok left hl
    · exact spoiled.sideOf_ne_ok right hr

end Join
end DataAccess
