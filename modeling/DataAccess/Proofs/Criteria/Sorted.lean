import DataAccess.Proofs.Columns
import DataAccess.Proofs.Criteria.Select
import DataAccess.Proofs.Sorting
import DataAccess.Proofs.Value.JoinKey
import DataAccess.Proofs.Value.Ranks

/-!
What is selected: a page of the rows that match, in the order of the sort keys. Rows that no key
tells apart stand as they did.
-/
namespace DataAccess

namespace Window

/-- The page that starts at the window's start and ends at its limit. -/
theorem getElem?_take {α : Type} (w : Window) (rows : List α) (i : Nat) :
    (w.take rows)[i]? = if w.limit.all (i < ·) then rows[w.start.getD 0 + i]? else none := by
  unfold take
  cases w.limit with
  | none => simp
  | some limit => simp [List.getElem?_take]

end Window

namespace Value

/-- Before another cell of the column: NULLs come first, the others go by size. -/
def Before (v w : Value) : Prop := v.isNull = true ∧ w.isNull = false ∨ v.compare w = some .lt

/-- Both NULL, or equal. -/
def Level (v w : Value) : Prop := v.isNull = true ∧ w.isNull = true ∨ v.compare w = some .eq

instance (v w : Value) : Decidable (v.Level w) := inferInstanceAs (Decidable (_ ∨ _))

end Value

/-- Cells of one kind are compared, unless there is a NaN. -/
theorem Scalar.exists_compare {kind : Kind} {a b : Scalar} (ha : a.Sortable kind)
    (hb : b.Sortable kind) : ∃ o, a.compare b = some o := by
  obtain ⟨rfl, na⟩ := ha
  obtain ⟨kb, nb⟩ := hb
  cases a <;> cases b <;> cases kb
  case float64.float64 x y =>
    have number {z : Binary64} (h : Scalar.float64 z ≠ .float64 .nan) : z ≠ .nan :=
      fun nan => h (congrArg _ nan)
    exact ⟨_, Binary64.compare_eq_standing (number na) (number nb)⟩
  all_goals exact ⟨_, rfl⟩

namespace Value

variable {kind : Kind} {v w : Value}

theorem sortCompare_tells (hv : v.Sortable kind) (hw : w.Sortable kind) :
    (v.sortCompare w = .lt ↔ v.Before w) ∧ (v.sortCompare w = .eq ↔ v.Level w) := by
  cases v with
  | null k => cases w <;> simp [sortCompare, Before, Level, isNull, compare]
  | of a =>
    cases w with
    | null k => simp [sortCompare, Before, Level, isNull, compare]
    | of b =>
      obtain ⟨o, ho⟩ := Scalar.exists_compare (hv a rfl) (hw b rfl)
      simp [sortCompare, Before, Level, isNull, compare, ho]

theorem sortCompare_eq_lt (hv : v.Sortable kind) (hw : w.Sortable kind) :
    v.sortCompare w = .lt ↔ v.Before w :=
  (sortCompare_tells hv hw).1

theorem sortCompare_eq_eq (hv : v.Sortable kind) (hw : w.Sortable kind) :
    v.sortCompare w = .eq ↔ v.Level w :=
  (sortCompare_tells hv hw).2

end Value

theorem Ranks.directed {α : Type} {S : α → Prop} {compare : α → α → Ordering}
    (h : Ranks S compare) (d : Direction) : Ranks S fun a b => d.apply (compare a b) := by
  cases d with
  | descending => exact h.reversed
  | _ => exact h

/-- NULL, or of the column's kind. -/
def Column.Holds (c : Column) : Value → Prop
  | .null _ => True
  | .of s => c.kind = some s.kind

instance (c : Column) (v : Value) : Decidable (c.Holds v) :=
  match v with
  | .null _ => .isTrue trivial
  | .of s => inferInstanceAs (Decidable (c.kind = some s.kind))

namespace Mapping

/-- A row of cells that the columns hold. -/
def Holds (m : Mapping) (row : Row) : Prop := List.Forall₂ Column.Holds m.columns row

instance (m : Mapping) (row : Row) : Decidable (m.Holds row) :=
  inferInstanceAs (Decidable (List.Forall₂ Column.Holds m.columns row))

/-- The kind of the column under a property. A column without one holds nothing but NULLs, which
sort in any. -/
def kindOf (m : Mapping) (property : String) : Kind :=
  ((m.column property).toOption.bind (·.kind)).getD .boolean

variable {m : Mapping} {row : Row}

theorem Holds.sortable (holds : m.Holds row) {property : String}
    (number : m.cellOf row property ≠ .of (.float64 .nan)) :
    (m.cellOf row property).Sortable (m.kindOf property) := by
  intro s hs
  refine ⟨?_, fun nan => number (nan ▸ hs)⟩
  cases found : m.find property with
  | error f => simp [cellOf, position, found, Except.map] at hs
  | ok p =>
    obtain ⟨i, c⟩ := p
    obtain ⟨inside, rfl⟩ := List.getElem?_eq_some_iff.mp (getElem?_of_find found)
    have wide : i < row.length := holds.length_eq ▸ inside
    have cell : row[i] = .of s := by
      simpa [cellOf, position, found, Except.map, Row.cell, wide] using hs
    have kind : (m.columns[i]).kind = some s.kind := by
      have held := holds.get inside wide
      rw [List.get_eq_getElem, List.get_eq_getElem, cell] at held
      exact held
    simp [kindOf, column, found, Except.map, Except.toOption, kind]

end Mapping

namespace SortKey

/-- Before another row under a key. -/
def Before (k : SortKey) (m : Mapping) (a b : Row) : Prop :=
  match k.direction with
  | .descending => (m.cellOf b k.property).Before (m.cellOf a k.property)
  | _ => (m.cellOf a k.property).Before (m.cellOf b k.property)

def Level (k : SortKey) (m : Mapping) (a b : Row) : Prop :=
  (m.cellOf a k.property).Level (m.cellOf b k.property)

def compare (k : SortKey) (m : Mapping) (a b : Row) : Ordering :=
  k.direction.apply ((m.cellOf a k.property).sortCompare (m.cellOf b k.property))

/-- A cell that a key can sort by. -/
def Sortable (k : SortKey) (m : Mapping) (row : Row) : Prop :=
  (m.cellOf row k.property).Sortable (m.kindOf k.property)

variable {k : SortKey} {keys : List SortKey} {m : Mapping} {a b : Row}

theorem compare_eq_lt (ha : k.Sortable m a) (hb : k.Sortable m b) :
    k.compare m a b = .lt ↔ k.Before m a b := by
  unfold compare Before
  cases k.direction with
  | descending =>
    rw [← Value.sortCompare_eq_lt hb ha, Direction.apply, ← Value.sortCompare_swap]
  | _ => exact Value.sortCompare_eq_lt ha hb

theorem compare_eq_eq (ha : k.Sortable m a) (hb : k.Sortable m b) :
    k.compare m a b = .eq ↔ k.Level m a b := by
  unfold compare Level
  rw [← Value.sortCompare_eq_eq ha hb]
  cases k.direction with
  | descending => exact Ordering.swap_eq_eq
  | _ => rfl

theorem ranks_compare (k : SortKey) (m : Mapping) : Ranks (k.Sortable m) (k.compare m) :=
  ((Value.ranks_sortCompare (m.kindOf k.property)).on (m.cellOf · k.property)).directed k.direction

theorem ranks_keys (keys : List SortKey) (m : Mapping) :
    Ranks (fun row => ∀ k ∈ keys, k.Sortable m row) (lexicographic (keys.map (·.compare m))) := by
  refine Ranks.lexicographic fun compare hc => ?_
  obtain ⟨k, hk, rfl⟩ := List.mem_map.mp hc
  exact (k.ranks_compare m).weaken fun row sortable => sortable k hk

theorem place_eq_ok {o : Nat × Direction} : place m k = .ok o ↔
    k.direction ≠ .computed ∧ ∃ i, m.position k.property = .ok i ∧ (i, k.direction) = o := by
  obtain ⟨property, direction⟩ := k
  cases direction with
  | computed => simp [place]
  | _ => simp [place, Outcome.map_eq_ok]

/-- Rows are compared by their cells under the keys. -/
theorem compareAt_eq {places : List (Nat × Direction)} (placed : SortKey.places m keys = .ok places)
    (a b : Row) : Row.compareAt places a b = lexicographic (keys.map (·.compare m)) a b := by
  have each := Outcome.mapM_eq_ok.mp placed
  have cells : places.map (fun o a b => o.2.apply ((a.cell o.1).sortCompare (b.cell o.1))) =
      keys.map (·.compare m) := by
    clear placed
    induction each with
    | nil => rfl
    | cons first _ ih =>
      obtain ⟨-, i, known, rfl⟩ := place_eq_ok.mp first
      rw [List.map_cons, List.map_cons, ih]
      congr 1
      funext a b
      rw [compare, Mapping.cellOf_eq known, Mapping.cellOf_eq known]
  rw [← cells, Row.compareAt, lexicographic, List.foldl_map]

end SortKey

namespace Mapping

/-- Before another row under the first key that tells them apart. -/
def Before (m : Mapping) (keys : List SortKey) (a b : Row) : Prop :=
  Precedes (fun k => k.Before m a b) (fun k => k.Level m a b) keys

/-- No key tells the rows apart. -/
def Level (m : Mapping) (keys : List SortKey) (a b : Row) : Prop := ∀ k ∈ keys, k.Level m a b

variable {m : Mapping} {keys : List SortKey} {a b : Row}

theorem lexicographic_eq_lt (ha : ∀ k ∈ keys, k.Sortable m a) (hb : ∀ k ∈ keys, k.Sortable m b) :
    lexicographic (keys.map (·.compare m)) a b = .lt ↔ m.Before keys a b :=
  DataAccess.lexicographic_eq_lt.trans (precedes_congr
    (fun k hk => SortKey.compare_eq_lt (ha k hk) (hb k hk))
    fun k hk => SortKey.compare_eq_eq (ha k hk) (hb k hk))

theorem lexicographic_eq_eq (ha : ∀ k ∈ keys, k.Sortable m a) (hb : ∀ k ∈ keys, k.Sortable m b) :
    lexicographic (keys.map (·.compare m)) a b = .eq ↔ m.Level keys a b := by
  rw [DataAccess.lexicographic_eq_eq, List.forall_mem_map]
  exact forall₂_congr fun k hk => SortKey.compare_eq_eq (ha k hk) (hb k hk)

end Mapping

namespace Criteria

variable {m : Mapping} {c : Criteria} {rows : List Row}

/-- Selecting sorts the rows that match, each with its number, by the keys and then by the numbers,
and shows a page of them. -/
theorem select_sorted (valid : c.validate m = .ok ()) (holds : ∀ row ∈ rows, m.Holds row)
    (numbers : ∀ k ∈ c.orders, ∀ row ∈ rows, m.cellOf row k.property ≠ .of (.float64 .nan)) :
    (∀ row ∈ rows, c.admits m row = .ok (c.passes m row)) ∧
    ∃ (page : List Row) (sorted : List (Row × Nat)), c.select m rows = .ok page ∧
      sorted.Perm (rows.zipIdx.filter fun r => c.passes m r.1) ∧
      (sorted.Pairwise fun a b =>
        m.Before c.orders a.1 b.1 ∨ m.Level c.orders a.1 b.1 ∧ a.2 < b.2) ∧
      ∀ i, page[i]? = if c.window.limit.all (i < ·) then
        (sorted[c.window.start.getD 0 + i]?).map Prod.fst else none := by
  obtain ⟨checked, places, placed⟩ := validate_eq_ok.mp valid
  refine ⟨fun row _ => admits_eq_passes checked row, ?_⟩
  let order := lexicographic (c.orders.map (·.compare m))
  let kept := rows.zipIdx.filter fun r => c.passes m r.1
  have sortable : ∀ r ∈ kept, ∀ k ∈ c.orders, k.Sortable m r.1 := by
    intro r hr k hk
    have stored := List.fst_mem_of_mem_zipIdx (List.mem_of_mem_filter hr)
    exact (holds r.1 stored).sortable (numbers k hk r.1 stored)
  have plain : (StableSort.sort (fun a b => order a.1 b.1) kept).map Prod.fst =
      StableSort.sort (Row.compareAt places) (rows.filter (c.passes m)) := by
    have same : Row.compareAt places = order := funext₂ (SortKey.compareAt_eq placed)
    have rest : kept.map Prod.fst = rows.filter (c.passes m) := by
      conv_rhs => rw [← List.zipIdx_map_fst 0 rows, List.filter_map]
      rfl
    have first (a b : Row × Nat) : order a.1 b.1 = order (Prod.fst a) (Prod.fst b) := rfl
    rw [StableSort.map_sort first, rest, same]
  refine ⟨_, StableSort.sort (fun a b => order a.1 b.1) kept, select_eq checked placed rows,
    StableSort.sort_perm kept, ?_, fun i => ?_⟩
  · refine (StableSort.sort_numbered (SortKey.ranks_keys c.orders m) sortable
      (StableSort.numbered_zipIdx rows _)).imp_of_mem fun {a b} ha hb h => ?_
    have sa := sortable a (StableSort.mem_sort.mp ha)
    have sb := sortable b (StableSort.mem_sort.mp hb)
    rwa [Mapping.lexicographic_eq_lt sa sb, Mapping.lexicographic_eq_eq sa sb] at h
  · rw [Window.getElem?_take, ← plain, List.getElem?_map]

section Parcels

def parcels : Mapping := ⟨⟨"", "parcels"⟩, [.key "id" "id" .int64,
  .optional "price" "price" .decimal, .optional "weight" "weight" .float64]⟩

/-- Zero, from above or from below. -/
def weightless (negative : Bool) : Value := .of (.float64 (.finite negative .zero))

/-- Equal prices and equal weights in several spellings, with NULLs among them. -/
def sent : List Row := [
  [.of (.int64 1), .padded 0, .null none],
  [.of (.int64 2), .padded 1, weightless false],
  [.of (.int64 3), .null none, weightless false],
  [.of (.int64 4), .padded 21, weightless true],
  [.of (.int64 5), .padded 0, .null none]]

/-- All but the first, by falling price and then by weight. -/
def byPrice : Criteria := ⟨.and, [.test "id" (.greater (.of (.int32 1))) true],
  [⟨"price", .descending⟩, ⟨"weight", .ascending⟩], ⟨some 1, some 3⟩⟩

theorem select_sorted_parcels : ∃ sorted : List (Row × Nat),
    byPrice.select parcels sent = .ok [sent[1], sent[3], sent[2]] ∧
      sorted.Perm (sent.zipIdx.filter fun r => byPrice.passes parcels r.1) ∧
      (sorted.Pairwise fun a b => parcels.Before byPrice.orders a.1 b.1 ∨
        parcels.Level byPrice.orders a.1 b.1 ∧ a.2 < b.2) ∧
      [sent[1], sent[3], sent[2]][0]? = (sorted[1]?).map Prod.fst := by
  have valid : byPrice.validate parcels = .ok () := rfl
  have holds : ∀ row ∈ sent, parcels.Holds row := by decide +kernel
  have numbers : ∀ k ∈ byPrice.orders, ∀ row ∈ sent,
      parcels.cellOf row k.property ≠ .of (.float64 .nan) := by decide +kernel
  obtain ⟨-, page, sorted, selected, perm, ordered, shown⟩ := select_sorted valid holds numbers
  have ran : (byPrice.select parcels sent).toOption = some [sent[1], sent[3], sent[2]] := by
    decide +kernel
  rw [selected] at ran
  obtain rfl := Option.some.inj ran
  exact ⟨sorted, selected, perm, ordered, shown 0⟩

end Parcels

end Criteria
end DataAccess
