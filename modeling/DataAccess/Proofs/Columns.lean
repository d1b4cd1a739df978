import DataAccess.Mapping
import Mathlib.Data.List.Nodup

/-! Columns found by their property, and by their name. -/
namespace DataAccess.Mapping

variable {m : Mapping} {i : Nat} {c : Column}

theorem getElem?_of_find {property : String} (h : m.find property = .ok (i, c)) :
    m.columns[i]? = some c := by
  unfold find at h
  split at h
  · rename_i column j hf
    obtain ⟨rfl, rfl⟩ : j = i ∧ column = c := by simpa using h
    exact List.mem_zipIdx_iff_getElem?.mp (List.mem_of_find?_eq_some hf)
  · simp at h

/-- The cell under a property. -/
def cellOf (m : Mapping) (row : Row) (property : String) : Value :=
  match m.position property with
  | .ok i => row.cell i
  | .error _ => .null none

theorem cellOf_eq {property : String} (h : m.position property = .ok i) (row : Row) :
    m.cellOf row property = row.cell i := by
  rw [cellOf, h]

/-- The first column of a name, with its place in the row. -/
def named? (m : Mapping) (name : String) : Option (Nat × Column) :=
  (m.columns.zipIdx.find? (·.1.name = name)).map fun (c, i) => (i, c)

/-- Where names differ, a column is found by its name as by its property. -/
theorem named?_of_find (distinct : m.labels.Nodup) {property : String}
    (found : m.find property = .ok (i, c)) : m.named? c.name = some (i, c) := by
  have here := getElem?_of_find found
  have some : (m.columns.zipIdx.find? (·.1.name = c.name)).isSome := by
    rw [List.find?_isSome]
    exact ⟨(c, i), List.mem_zipIdx_iff_getElem?.mpr here, by simp⟩
  obtain ⟨⟨d, j⟩, hd⟩ := Option.isSome_iff_exists.mp some
  have there := List.mem_zipIdx_iff_getElem?.mp (List.mem_of_find?_eq_some hd)
  have name : d.name = c.name := by simpa using List.find?_some hd
  have label {k : Nat} {e : Column} (h : m.columns[k]? = .some e) :
      m.labels[k]? = .some e.name := by simp [labels, h]
  have hi : i < m.labels.length := (List.getElem?_eq_some_iff.mp (label here)).1
  obtain rfl : i = j := by
    rw [← List.getElem?_inj hi distinct, label here, label there, name]
  obtain rfl : c = d := Option.some.inj (here.symm.trans there)
  simp [named?, hd]

end DataAccess.Mapping
