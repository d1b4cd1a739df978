import DataAccess.Proofs.Sorting
import DataAccess.Proofs.Value.Compare

/-!
Cells of one column in order: NULLs first, then numbers by size, texts by letters and so on. Only
NaN has no place among them.
-/
namespace DataAccess

namespace Binary64

/-- Where a number stands: below, on or above the finite ones. -/
def standing : Binary64 → Int × Int
  | .nan => (0, 0)
  | .infinite s => (if s then -1 else 1, 0)
  | .finite s a => (0, signed s a.steps)

theorem compare_eq_standing {x y : Binary64} (hx : x ≠ .nan) (hy : y ≠ .nan) :
    x.compare y = some (compareLex (compareOn Prod.fst) (compareOn Prod.snd)
      x.standing y.standing) := by
  cases x with
  | nan => exact (hx rfl).elim
  | infinite s =>
    cases y with
    | nan => exact (hy rfl).elim
    | infinite t => cases s <;> cases t <;> rfl
    | finite t b => cases s <;> rfl
  | finite s a =>
    cases y with
    | nan => exact (hy rfl).elim
    | infinite t => cases t <;> rfl
    | finite t b => rfl

end Binary64

namespace Scalar

/-- Of the kind, and a number if numbers are asked for. -/
def Sortable (kind : Kind) (s : Scalar) : Prop := s.kind = kind ∧ s ≠ .float64 .nan

def sortCompare (a b : Scalar) : Ordering :=
  (a.compare b).getD (Ord.compare a.kind.rank b.kind.rank)

theorem sortCompare_swap (a b : Scalar) : b.sortCompare a = (a.sortCompare b).swap := by
  rw [sortCompare, compare_swap a b, sortCompare]
  cases a.compare b with
  | none => exact Std.OrientedOrd.eq_swap
  | some o => rfl

/-- A kind whose cells are compared by a key. -/
theorem sortCompare_trans_key {α β : Type} (make : α → Scalar) (key : α → β)
    (compare : β → β → Ordering) [Std.TransCmp compare]
    (own : ∀ x y, (make x).compare (make y) = some (compare (key x) (key y))) {x y z : α}
    (hxy : ((make x).sortCompare (make y)).isLE) (hyz : ((make y).sortCompare (make z)).isLE) :
    ((make x).sortCompare (make z)).isLE := by
  rw [sortCompare, own, Option.getD_some] at hxy hyz ⊢
  exact Std.TransCmp.isLE_trans hxy hyz

theorem sortCompare_float64 {x y : Binary64} (hx : float64 x ≠ .float64 .nan)
    (hy : float64 y ≠ .float64 .nan) : (float64 x).sortCompare (float64 y) =
      compareLex (compareOn Prod.fst) (compareOn Prod.snd) x.standing y.standing := by
  have hc : (float64 x).compare (float64 y) = x.compare y := rfl
  rw [sortCompare, hc, Binary64.compare_eq_standing (fun h => hx (h ▸ rfl)) fun h => hy (h ▸ rfl)]
  rfl

theorem sortCompare_trans {kind : Kind} {a b c : Scalar} (ha : a.Sortable kind)
    (hb : b.Sortable kind) (hc : c.Sortable kind) (hab : (a.sortCompare b).isLE)
    (hbc : (b.sortCompare c).isLE) : (a.sortCompare c).isLE := by
  obtain ⟨rfl, na⟩ := ha
  obtain ⟨kb, nb⟩ := hb
  obtain ⟨kc, nc⟩ := hc
  cases a <;> cases b <;> cases kb <;> cases c <;> cases kc
  case boolean => exact sortCompare_trans_key .boolean id Ord.compare (fun _ _ => rfl) hab hbc
  case int32 => exact sortCompare_trans_key .int32 (·.toInt) Ord.compare (fun _ _ => rfl) hab hbc
  case int64 => exact sortCompare_trans_key .int64 (·.toInt) Ord.compare (fun _ _ => rfl) hab hbc
  case decimal => exact sortCompare_trans_key .decimal id Decimal.compare (fun _ _ => rfl) hab hbc
  case varchar => exact sortCompare_trans_key .varchar id Ord.compare (fun _ _ => rfl) hab hbc
  case blob => exact sortCompare_trans_key .blob id Ord.compare (fun _ _ => rfl) hab hbc
  case date => exact sortCompare_trans_key .date id Date.compare (fun _ _ => rfl) hab hbc
  case time => exact sortCompare_trans_key .time id Time.compare (fun _ _ => rfl) hab hbc
  case timestamp =>
    exact sortCompare_trans_key .timestamp id Timestamp.compare (fun _ _ => rfl) hab hbc
  case uuid => exact sortCompare_trans_key .uuid id Uuid.compare (fun _ _ => rfl) hab hbc
  case float64 =>
    rw [sortCompare_float64 na nb] at hab
    rw [sortCompare_float64 nb nc] at hbc
    rw [sortCompare_float64 na nc]
    exact Std.TransCmp.isLE_trans hab hbc

end Scalar

namespace Value

/-- NULL, or what can be sorted in a column of the kind. -/
def Sortable (kind : Kind) (v : Value) : Prop := ∀ s, v = .of s → s.Sortable kind

theorem sortCompare_swap (v w : Value) : sortCompare w v = (sortCompare v w).swap := by
  cases v <;> cases w <;> first | rfl | exact Scalar.sortCompare_swap _ _

/-- NULLs come first, so it depends on the others whether cells are in order. -/
theorem ranks_of_scalars {S : Value → Prop} (trans : ∀ a b c, S (.of a) → S (.of b) → S (.of c) →
    (a.sortCompare b).isLE → (b.sortCompare c).isLE → (a.sortCompare c).isLE) :
    Ranks S sortCompare where
  swap := sortCompare_swap
  trans u v w hu hv hw huv hvw := by
    cases u with
    | null k => cases w <;> rfl
    | of a =>
      cases v with
      | null k => simp [sortCompare] at huv
      | of b =>
        cases w with
        | null k => simp [sortCompare] at hvw
        | of c => exact trans a b c hu hv hw huv hvw

theorem ranks_sortCompare (kind : Kind) : Ranks (Sortable kind) sortCompare :=
  ranks_of_scalars fun _ _ _ ha hb hc =>
    Scalar.sortCompare_trans (ha _ rfl) (hb _ rfl) (hc _ rfl)

end Value
end DataAccess
