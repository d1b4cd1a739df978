import DataAccess.Proofs.Criteria.Select
import DataAccess.Proofs.Join.Presorted

/-!
The answer to a join: the pairs of the rows that pass the side filters, sorted once and cut. A plan
that filters and sorts each side first comes to the same rows.
-/
namespace DataAccess

namespace Window

theorem map_take {α β : Type} (w : Window) (f : α → β) (rows : List α) :
    (w.take rows).map f = w.take (rows.map f) := by
  unfold take
  cases w.limit <;> simp [List.map_drop, List.map_take]

end Window

namespace JoinCriteria

/-- What the builder makes. -/
inductive Built : JoinCriteria → Prop where
  | ofKind (kind : JoinKind) : Built (ofKind kind)
  | on {c : JoinCriteria} (e : JoinExpression) (before : Built c) : Built (c.on e)
  | operator {c : JoinCriteria} (operator : Connective) (before : Built c) :
      Built { c with operator }
  | orderBy {c : JoinCriteria} (side : Side) (property : String) (direction : Direction)
      (before : Built c) : Built (c.orderBy side property direction)
  | withFilter {c : JoinCriteria} (side : Side) (filter : Criteria) (before : Built c) :
      Built (c.withFilter side filter)
  | start {c : JoinCriteria} (n : Nat) (before : Built c) : Built (c.start n)
  | limit {c : JoinCriteria} (n : Nat) (before : Built c) : Built (c.limit n)
  | flip {c flipped : JoinCriteria} (before : Built c) (flips : c.flip = .ok flipped) :
      Built flipped

theorem flip_eq_ok {c flipped : JoinCriteria} : c.flip = .ok flipped ↔ ∃ kind,
    c.kind.flip = .ok kind ∧
      flipped = ⟨kind, c.operator, c.expressions.map .flip, c.orders.map .flip, c.right, c.left,
        c.window⟩ := by
  simp only [flip, Outcome.bind_eq_ok, Outcome.pure_eq_ok]
  constructor
  · intro h
    obtain ⟨kind, hk, rfl⟩ := h
    exact ⟨kind, hk, rfl⟩
  · intro h
    obtain ⟨kind, hk, rfl⟩ := h
    exact ⟨kind, hk, rfl⟩

/-- Side filters only filter. -/
theorem Built.filterOnly {c : JoinCriteria} (h : c.Built) {side : Side} {f : Criteria}
    (hf : c.criteria side = some f) : f.filterOnly = f := by
  induction h generalizing side with
  | ofKind kind => cases side <;> simp [criteria, JoinCriteria.ofKind] at hf
  | flip before flips ih =>
    obtain ⟨kind, -, rfl⟩ := flip_eq_ok.mp flips
    cases side with
    | left => exact ih (show criteria _ .right = some f from hf)
    | right => exact ih (show criteria _ .left = some f from hf)
  | withFilter s filter before ih =>
    cases s <;> cases side <;> simp only [criteria, JoinCriteria.withFilter] at hf
    case left.left => exact Option.some.inj hf ▸ rfl
    case right.right => exact Option.some.inj hf ▸ rfl
    case left.right => exact ih (show criteria _ .right = some f from hf)
    case right.left => exact ih (show criteria _ .left = some f from hf)
  | on _ _ ih | operator _ _ ih | orderBy _ _ _ _ ih | start _ _ ih | limit _ _ ih =>
    cases side with
    | left => exact ih (show criteria _ .left = some f from hf)
    | right => exact ih (show criteria _ .right = some f from hf)

variable {c : JoinCriteria} {m : Sql.Pair} {ls rs : List Row}

/-- The rows of a side that pass its filter. -/
def passing (c : JoinCriteria) (m : Sql.Pair) (side : Side) (rows : List Row) : List Row :=
  match c.criteria side with
  | none => rows
  | some f => rows.filter (f.passes (m.mapping side))

/-- The pairs in storage order; of a right outer join, in the order of the right rows. -/
def listed (c : JoinCriteria) (m : Sql.Pair) (ls rs : List Row) : List JoinedRow :=
  if c.kind = .rightOuter then
    (JoinKind.leftOuter.paired (fun y x => c.related m x y) rs ls).map .flip
  else c.kind.paired (c.related m) ls rs

/-- The rows that are asked for. -/
def answer (c : JoinCriteria) (m : Sql.Pair) (ls rs : List Row) : List JoinedRow :=
  c.window.take ((c.listed m (c.passing m .left ls) (c.passing m .right rs)).mergeSort
    fun a b => (c.compareRows m a b).isLE)

/-- Joined cells that compare as equal have one key. -/
def Keyed (c : JoinCriteria) (m : Sql.Pair) (ls rs : List Row) : Prop :=
  ∀ e ∈ c.expressions, ∀ x ∈ ls, ∀ y ∈ rs,
    (m.left.cellOf x e.left).compare (m.right.cellOf y e.right) = some .eq →
      (m.left.cellOf x e.left).joinKey? = (m.right.cellOf y e.right).joinKey?

end JoinCriteria

namespace JoinPlan

variable {c : JoinCriteria} {m : Sql.Pair} {p : JoinPlan} {ls rs : List Row}

theorem index_of_expression (built : ofCriteria m.left m.right c = .ok p) {i j : Nat}
    (indexed : p.index = some (i, j)) : ∃ e ∈ c.expressions,
      m.left.position e.left = .ok i ∧ m.right.position e.right = .ok j := by
  rw [index_ofCriteria built] at indexed
  obtain ⟨terms, orders, ht, -, rfl⟩ := ofCriteria_eq_ok.mp built
  unfold indexOf at indexed
  split at indexed
  · obtain ⟨t, hf, hij⟩ := Option.map_eq_some_iff.mp indexed
    obtain ⟨rfl, rfl⟩ := Prod.mk.inj hij
    obtain ⟨e, he, het⟩ := Outcome.mem_of_mapM_eq_ok ht (List.mem_of_find?_eq_some hf)
    obtain ⟨hl, hr, -⟩ := term_eq_ok.mp het
    exact ⟨e, he, hl, hr⟩
  · simp at indexed

/-- What a plan lists is the join by its definition. -/
theorem map_rowsOf_sorted (built : ofCriteria m.left m.right c = .ok p) (keyed : c.Keyed m ls rs) :
    (p.sorted ls rs).map (rowsOf ls rs) =
      StableSort.sort (c.compareRows m) (c.kind.paired (c.related m) ls rs) := by
  have related : p.matchesRows = c.related m := by
    funext x y
    exact matchesRows_ofCriteria built x y
  have kind : p.kind = c.kind := by
    obtain ⟨terms, orders, -, -, rfl⟩ := ofCriteria_eq_ok.mp built
    rfl
  have merged : p.merge ls rs = p.withoutIndex.merge ls rs := by
    refine merge_withoutIndex (index_ofCriteria built) fun i j indexed x hx y hy hm => ?_
    obtain ⟨e, he, hl, hr⟩ := index_of_expression built indexed
    have hc := equal_of_matchesRows ((index_ofCriteria built).symm.trans indexed) hm
    have hk := keyed e he x hx y hy
    rw [Mapping.cellOf_eq hl, Mapping.cellOf_eq hr] at hk
    exact hk hc
  rw [sorted, StableSort.map_sort (comparePairs_ofCriteria built ls rs), merged, map_rowsOf_merge,
    related, kind]

end JoinPlan

namespace JoinCriteria

variable {c : JoinCriteria} {m : Sql.Pair} {ls rs : List Row}

theorem filter?_of_none {side : Side} (hf : c.criteria side = none) : c.filter? side = none := by
  rw [filter?, hf]
  rfl

theorem filter?_of_some {side : Side} {f : Criteria} (hf : c.criteria side = some f) :
    c.filter? side = if f.isEmpty then none else some f := by
  rw [filter?, hf, Option.filter]
  cases f.isEmpty <;> rfl

theorem check_sideCriteria (side : Side) :
    (∀ e ∈ (Join.sideCriteria c side).expressions, e.check (m.mapping side) = .ok ()) ↔
      ∀ f, c.criteria side = some f → ∀ e ∈ f.expressions, e.check (m.mapping side) = .ok () := by
  unfold Join.sideCriteria
  cases hf : c.criteria side with
  | none => simp [filter?_of_none hf, Criteria.all]
  | some f =>
    by_cases he : f.isEmpty
    · have hnil : f.expressions = [] := by simpa [Criteria.isEmpty] using he
      simp [filter?_of_some hf, he, Criteria.all, hnil]
    · simp [filter?_of_some hf, he]

theorem places_sideCriteria (side : Side) :
    (∃ places, SortKey.places (m.mapping side) (Join.sideCriteria c side).orders = .ok places) ↔
      ∀ k ∈ c.orders, k.side = side →
        k.direction ≠ .computed ∧ ∃ i, (m.mapping k.side).position k.property = .ok i := by
  have place (k : JoinSortKey) :
      (∃ o, SortKey.place (m.mapping side) ⟨k.property, k.direction⟩ = .ok o) ↔
        k.direction ≠ .computed ∧ ∃ i, (m.mapping side).position k.property = .ok i := by
    simp only [SortKey.place_eq_ok]
    constructor
    · intro h
      obtain ⟨o, hk, i, hi, -⟩ := h
      exact ⟨hk, i, hi⟩
    · intro ⟨hk, i, hi⟩
      exact ⟨_, hk, i, hi, rfl⟩
  refine Outcome.exists_mapM_eq_ok.trans ⟨fun h k hk hs => ?_, fun h key hkey => ?_⟩
  · subst hs
    refine (place k).mp (h _ (List.mem_map.mpr ⟨k, List.mem_filter.mpr ⟨hk, ?_⟩, rfl⟩))
    simp
  · obtain ⟨k, hk, rfl⟩ := List.mem_map.mp hkey
    obtain ⟨hmem, hs⟩ := List.mem_filter.mp hk
    obtain rfl : k.side = side := by simpa using hs
    exact (place k).mpr (h k hmem rfl)

/-- Acceptance is what a plan and fetching the sides ask for. -/
theorem accepted_iff : c.Accepted m ↔ c.expressions ≠ [] ∧
    (∃ p, JoinPlan.ofCriteria m.left m.right c = .ok p) ∧
    ∀ side, (Join.sideCriteria c side).validate (m.mapping side) = .ok () := by
  simp only [Criteria.validate_eq_ok, check_sideCriteria, places_sideCriteria,
    JoinPlan.exists_ofCriteria]
  constructor
  · exact fun h => ⟨h.nonempty, ⟨h.joined, h.sorted⟩, fun side =>
      ⟨h.filtered side, fun k hk _ => h.sorted k hk⟩⟩
  · exact fun ⟨nonempty, ⟨joined, sorted⟩, sides⟩ =>
      ⟨nonempty, joined, sorted, fun side => (sides side).1⟩

theorem passes_of_isEmpty {f : Criteria} {mapping : Mapping} (h : f.isEmpty) (row : Row) :
    f.passes mapping row = true := by
  simp [Criteria.passes, Criteria.admits, h, Except.toOption]

/-- A side's criteria pass what its filter passes, and do not cut. -/
theorem filter_sideCriteria (built : c.Built) (side : Side) (rows : List Row) :
    (Join.sideCriteria c side).window = .all ∧
      rows.filter ((Join.sideCriteria c side).passes (m.mapping side)) = c.passing m side rows := by
  have everything {f : Criteria} (h : f.isEmpty) :
      rows.filter (f.passes (m.mapping side)) = rows :=
    List.filter_eq_self.mpr fun row _ => passes_of_isEmpty h row
  have same (orders : List SortKey) (f : Criteria) :
      ({ f with orders } : Criteria).passes (m.mapping side) = f.passes (m.mapping side) := rfl
  unfold Join.sideCriteria passing
  rw [same]
  cases hf : c.criteria side with
  | none =>
    rw [filter?_of_none hf]
    exact ⟨rfl, everything rfl⟩
  | some f =>
    rw [filter?_of_some hf]
    by_cases he : f.isEmpty
    · rw [if_pos he]
      exact ⟨rfl, (everything rfl).trans (everything he).symm⟩
    · rw [if_neg he]
      have window : f.window = .all := congrArg Criteria.window (built.filterOnly hf).symm
      exact ⟨window, rfl⟩

/-- A side is fetched filtered and in the order of its keys. -/
theorem select_side (built : c.Built) (side : Side)
    (valid : (Join.sideCriteria c side).validate (m.mapping side) = .ok ()) (rows : List Row) :
    ∃ places,
      SortKey.places (m.mapping side) (Join.sideCriteria c side).orders = .ok places ∧
      (Join.sideCriteria c side).select (m.mapping side) rows =
        .ok (StableSort.sort (Row.compareAt places) (c.passing m side rows)) := by
  obtain ⟨checked, places, placed⟩ := Criteria.validate_eq_ok.mp valid
  obtain ⟨window, filtered⟩ := filter_sideCriteria (m := m) built side rows
  refine ⟨places, placed, ?_⟩
  rw [Criteria.select_eq checked placed, window, filtered]
  rfl

theorem mem_passing {side : Side} {rows : List Row} {row : Row}
    (h : row ∈ c.passing m side rows) : row ∈ rows := by
  unfold passing at h
  split at h
  · exact h
  · exact (List.mem_filter.mp h).1

theorem Sortable.subset {ls' rs' : List Row} (h : c.Sortable m ls rs) (hl : ∀ l ∈ ls', l ∈ ls)
    (hr : ∀ r ∈ rs', r ∈ rs) : c.Sortable m ls' rs' := by
  intro k hk
  obtain ⟨kind, hkind, hrows⟩ := h k hk
  refine ⟨kind, hkind, fun row hrow => hrows row ?_⟩
  cases hs : k.side with
  | left => exact hl row (by rwa [hs] at hrow)
  | right => exact hr row (by rwa [hs] at hrow)

theorem Keyed.subset {ls' rs' : List Row} (h : c.Keyed m ls rs) (hl : ∀ l ∈ ls', l ∈ ls)
    (hr : ∀ r ∈ rs', r ∈ rs) : c.Keyed m ls' rs' :=
  fun e he x hx y hy => h e he x (hl x hx) y (hr y hy)

/-- Fetching the sides, merging and sorting comes to the answer, but for right outer joins. -/
theorem rows_eq_answer {p : JoinPlan} (built : c.Built) (kind : c.kind ≠ .rightOuter)
    (planned : JoinPlan.ofCriteria m.left m.right c = .ok p)
    (valid : ∀ side, (Join.sideCriteria c side).validate (m.mapping side) = .ok ())
    (sortable : c.Sortable m ls rs) (keyed : c.Keyed m ls rs) {left right : List Row}
    (hl : (Join.sideCriteria c .left).select m.left ls = .ok left)
    (hr : (Join.sideCriteria c .right).select m.right rs = .ok right) :
    (c.window.take (p.sorted left right)).map (JoinPlan.rowsOf left right) = c.answer m ls rs := by
  obtain ⟨lps, hlps, hls⟩ := select_side built .left (valid .left) ls
  obtain ⟨rps, hrps, hrs⟩ := select_side built .right (valid .right) rs
  obtain rfl := Except.ok.inj (hls.symm.trans hl)
  obtain rfl := Except.ok.inj (hrs.symm.trans hr)
  have passing : c.Sortable m (c.passing m .left ls) (c.passing m .right rs) :=
    sortable.subset (fun _ => mem_passing) fun _ => mem_passing
  have found : c.Keyed m (StableSort.sort (Row.compareAt lps) (c.passing m .left ls))
      (StableSort.sort (Row.compareAt rps) (c.passing m .right rs)) :=
    keyed.subset (fun _ h => mem_passing (StableSort.mem_sort.mp h))
      fun _ h => mem_passing (StableSort.mem_sort.mp h)
  rw [Window.map_take, JoinPlan.map_rowsOf_sorted planned found, sort_presorted passing hlps hrps,
    answer, listed, if_neg kind]

end JoinCriteria
end DataAccess
