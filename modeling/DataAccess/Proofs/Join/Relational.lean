import DataAccess.Join.Execution
import DataAccess.Proofs.Columns
import DataAccess.Proofs.Join.Index
import DataAccess.Proofs.Outcome
import DataAccess.Proofs.Sorting

/-!
The join of two lists of rows by its definition, without places and look-ups: what a plan merges is
this list.
-/
namespace DataAccess

namespace JoinKind

/-- Each left row with the right rows it is related to; where rows of a side are kept, those that
are related to none stand alone. -/
def paired (kind : JoinKind) (related : Row → Row → Bool) (ls rs : List Row) : List JoinedRow :=
  ls.flatMap (fun l =>
    let partners := rs.filter (related l)
    if partners.isEmpty then if kind.preservesLeft then [⟨some l, none⟩] else []
    else partners.map fun r => ⟨some l, some r⟩) ++
  if kind.preservesRight then
    (rs.filter fun r => !ls.any (related · r)).map fun r => ⟨none, some r⟩
  else []

end JoinKind

namespace JoinSortKey

/-- The cell to sort by; a side left out counts as NULL. -/
def cellOf (k : JoinSortKey) (m : Sql.Pair) (row : JoinedRow) : Value :=
  match k.side with
  | .left => row.left.elim (.null none) (m.left.cellOf · k.property)
  | .right => row.right.elim (.null none) (m.right.cellOf · k.property)

def compare (k : JoinSortKey) (m : Sql.Pair) (a b : JoinedRow) : Ordering :=
  k.direction.apply ((k.cellOf m a).sortCompare (k.cellOf m b))

end JoinSortKey

namespace JoinCriteria

/-- Whether rows are partners. -/
def related (c : JoinCriteria) (m : Sql.Pair) (x y : Row) : Bool :=
  let holds (e : JoinExpression) :=
    e.matchesCells (m.left.cellOf x e.left) (m.right.cellOf y e.right)
  match c.operator with
  | .and => c.expressions.all holds
  | .or => c.expressions.any holds

/-- Left and right keys as they are interleaved. -/
def compareRows (c : JoinCriteria) (m : Sql.Pair) : JoinedRow → JoinedRow → Ordering :=
  lexicographic (c.orders.map (·.compare m))

/-- What a join here asks of its criteria. -/
structure Accepted (c : JoinCriteria) (m : Sql.Pair) : Prop where
  nonempty : c.expressions ≠ []
  joined : ∀ e ∈ c.expressions,
    (∃ i, m.left.position e.left = .ok i) ∧ ∃ j, m.right.position e.right = .ok j
  sorted : ∀ k ∈ c.orders,
    k.direction ≠ .computed ∧ ∃ i, (m.mapping k.side).position k.property = .ok i
  filtered : ∀ side f, c.criteria side = some f →
    ∀ e ∈ f.expressions, e.check (m.mapping side) = .ok ()

end JoinCriteria

namespace JoinPlan

/-- Filtering places is filtering the rows that stand there. -/
theorem map_getD_filter_range (rows : List Row) (wanted : Row → Bool) :
    ((List.range rows.length).filter fun i => wanted (rows.getD i [])).map (rows.getD · []) =
      rows.filter wanted := by
  rw [← filter_zipIdx_eq_range, List.map_map]
  conv_rhs => rw [← List.zipIdx_map_fst 0 rows, List.filter_map]
  refine List.map_congr_left fun e he => ?_
  have := List.mem_zipIdx_iff_getElem?.mp (List.mem_filter.mp he).1
  simp [this]

variable {p : JoinPlan} {left right : List Row}

theorem map_rowsOf_pairsOf {i : Nat} {x : Row} (hx : left.getD i [] = x) (partners : List Nat) :
    (p.pairsOf i partners).map (rowsOf left right) =
      if (partners.map (right.getD · [])).isEmpty then
        if p.kind.preservesLeft then [⟨some x, none⟩] else []
      else (partners.map (right.getD · [])).map fun r => ⟨some x, some r⟩ := by
  unfold pairsOf
  cases partners with
  | nil =>
    simp only [List.map_nil, List.isEmpty_nil, if_true]
    split
    · simp [rowsOf, ← hx]
    · rfl
  | cons b rest => simp [rowsOf, ← hx]

/-- The places found are those of the rows with a partner. -/
theorem mem_found (p : JoinPlan) {left right : List Row} {j : Nat} (hj : j < right.length) :
    j ∈ (p.withoutIndex.found left right).flatten ↔
      left.any (p.matchesRows · (right.getD j [])) = true := by
  simp only [found, List.mem_flatten, List.mem_map, List.any_eq_true]
  constructor
  · intro h
    obtain ⟨_, ⟨x, hx, rfl⟩, hm⟩ := h
    exact ⟨x, hx, (mem_partners.mp hm).2⟩
  · intro h
    obtain ⟨x, hx, hm⟩ := h
    exact ⟨_, ⟨x, hx, rfl⟩, mem_partners.mpr ⟨List.mem_range.mpr hj, hm⟩⟩

/-- Trying all pairs merges what the definition lists. -/
theorem map_rowsOf_merge (p : JoinPlan) (left right : List Row) :
    (p.withoutIndex.merge left right).map (rowsOf left right) =
      p.kind.paired p.matchesRows left right := by
  have partners (x : Row) : (p.withoutIndex.partners right x
      (p.withoutIndex.candidates right x)).map (right.getD · []) =
        right.filter (p.matchesRows x) := map_getD_filter_range right (p.matchesRows x)
  simp only [merge, List.map_append, JoinKind.paired]
  -- The rows of the left side with their partners come first, then the right rows without any.
  congr 1
  · rw [List.map_flatMap, List.zipIdx_map, List.flatMap_map]
    conv_rhs => rw [← List.zipIdx_map_fst 0 left, List.flatMap_map]
    refine List.flatMap_congr fun e he => ?_
    have place : left.getD e.2 [] = e.1 := by
      have := List.mem_zipIdx_iff_getElem?.mp he
      simp [this]
    dsimp only [Prod.map, id]
    rw [map_rowsOf_pairsOf place, partners]
    rfl
  · have kind : p.withoutIndex.kind = p.kind := rfl
    rw [kind]
    cases p.kind.preservesRight with
    | false => rfl
    | true =>
      simp only [if_true, List.map_map]
      rw [← map_getD_filter_range right fun y => !left.any (p.matchesRows · y), List.map_map]
      have unmatched : (List.range right.length).filter
          (· ∉ (p.withoutIndex.found left right).flatten) =
          (List.range right.length).filter fun j =>
            !left.any (p.matchesRows · (right.getD j [])) := by
        refine List.filter_congr fun j hj => ?_
        simp only [mem_found p (List.mem_range.mp hj), decide_not, Bool.decide_eq_true]
      exact congrArg _ unmatched

section Built

variable {m : Sql.Pair} {c : JoinCriteria}

theorem term_eq_ok {e : JoinExpression} {t : JoinTerm} : term m.left m.right e = .ok t ↔
    m.left.position e.left = .ok t.left ∧ m.right.position e.right = .ok t.right ∧
      t.predicate = e := by
  simp only [term, Outcome.bind_eq_ok, Outcome.pure_eq_ok]
  constructor
  · intro h
    obtain ⟨i, hi, j, hj, rfl⟩ := h
    exact ⟨hi, hj, rfl⟩
  · intro h
    obtain ⟨hi, hj, rfl⟩ := h
    exact ⟨_, hi, _, hj, rfl⟩

theorem order_eq_ok {k : JoinSortKey} {o : Side × Nat × Direction} :
    order m.left m.right k = .ok o ↔ k.direction ≠ .computed ∧
      ∃ i, (m.mapping k.side).position k.property = .ok i ∧ (k.side, i, k.direction) = o := by
  by_cases hk : k.direction = .computed
  · simp [order, hk]
  · have he : order m.left m.right k =
        (m.mapping k.side).position k.property >>= fun i => pure (k.side, i, k.direction) := by
      obtain ⟨property, direction, side⟩ := k
      cases direction with
      | computed => exact (hk rfl).elim
      | _ => cases side <;> rfl
    simp only [he, Outcome.bind_eq_ok, Outcome.pure_eq_ok, ne_eq, hk, not_false_eq_true, true_and]

theorem ofCriteria_eq_ok : ofCriteria m.left m.right c = .ok p ↔ ∃ terms orders,
    c.expressions.mapM (term m.left m.right) = .ok terms ∧
      c.orders.mapM (order m.left m.right) = .ok orders ∧
      p = ⟨c.kind, c.operator, terms, indexOf c.operator terms, orders⟩ := by
  simp only [ofCriteria, Outcome.bind_eq_ok, Outcome.pure_eq_ok]
  constructor
  · intro h
    obtain ⟨terms, ht, orders, ho, rfl⟩ := h
    exact ⟨terms, orders, ht, ho, rfl⟩
  · intro h
    obtain ⟨terms, orders, ht, ho, rfl⟩ := h
    exact ⟨terms, ht, orders, ho, rfl⟩

/-- Known properties and no computed orders make a plan. -/
theorem exists_ofCriteria : (∃ p, ofCriteria m.left m.right c = .ok p) ↔
    (∀ e ∈ c.expressions,
      (∃ i, m.left.position e.left = .ok i) ∧ ∃ j, m.right.position e.right = .ok j) ∧
    ∀ k ∈ c.orders,
      k.direction ≠ .computed ∧ ∃ i, (m.mapping k.side).position k.property = .ok i := by
  have term (e : JoinExpression) : (∃ t, term m.left m.right e = .ok t) ↔
      (∃ i, m.left.position e.left = .ok i) ∧ ∃ j, m.right.position e.right = .ok j := by
    simp only [term_eq_ok]
    constructor
    · intro h
      obtain ⟨t, hi, hj, -⟩ := h
      exact ⟨⟨_, hi⟩, _, hj⟩
    · intro ⟨⟨i, hi⟩, j, hj⟩
      exact ⟨⟨i, j, e⟩, hi, hj, rfl⟩
  have order (k : JoinSortKey) : (∃ o, order m.left m.right k = .ok o) ↔
      k.direction ≠ .computed ∧ ∃ i, (m.mapping k.side).position k.property = .ok i := by
    simp only [order_eq_ok]
    constructor
    · intro h
      obtain ⟨o, hk, i, hi, -⟩ := h
      exact ⟨hk, i, hi⟩
    · intro ⟨hk, i, hi⟩
      exact ⟨_, hk, i, hi, rfl⟩
  simp only [← term, ← order, ← Outcome.exists_mapM_eq_ok, ofCriteria_eq_ok]
  constructor
  · intro h
    obtain ⟨p, terms, orders, ht, ho, -⟩ := h
    exact ⟨⟨terms, ht⟩, orders, ho⟩
  · intro ⟨⟨terms, ht⟩, orders, ho⟩
    exact ⟨_, terms, orders, ht, ho, rfl⟩

theorem map_eq_of_forall₂ {α β γ : Type} {R : α → β → Prop} {f : α → γ} {g : β → γ} {xs : List α}
    {ys : List β} (h : List.Forall₂ R xs ys) (same : ∀ x y, R x y → f x = g y) :
    xs.map f = ys.map g := by
  induction h with
  | nil => rfl
  | cons hxy _ ih => rw [List.map_cons, List.map_cons, same _ _ hxy, ih]

theorem matchesRows_ofCriteria (built : ofCriteria m.left m.right c = .ok p) (x y : Row) :
    p.matchesRows x y = c.related m x y := by
  obtain ⟨terms, orders, ht, -, rfl⟩ := ofCriteria_eq_ok.mp built
  have same := map_eq_of_forall₂ (Outcome.mapM_eq_ok.mp ht)
    (f := fun e => e.matchesCells (m.left.cellOf x e.left) (m.right.cellOf y e.right))
    (g := fun t => t.predicate.matchesCells (x.cell t.left) (y.cell t.right)) fun e t het => by
      obtain ⟨hl, hr, rfl⟩ := term_eq_ok.mp het
      rw [Mapping.cellOf_eq hl, Mapping.cellOf_eq hr]
  unfold matchesRows JoinCriteria.related
  cases c.operator with
  | and => simpa [List.all_map] using congrArg (List.all · id) same.symm
  | or => simpa [List.any_map] using congrArg (List.any · id) same.symm

theorem comparePairs_ofCriteria (built : ofCriteria m.left m.right c = .ok p)
    (left right : List Row) (a b : PlacePair) : p.comparePairs left right a b =
      c.compareRows m (rowsOf left right a) (rowsOf left right b) := by
  obtain ⟨terms, orders, -, ho, rfl⟩ := ofCriteria_eq_ok.mp built
  have cell {k : JoinSortKey} {i : Nat} (hi : (m.mapping k.side).position k.property = .ok i)
      (a : PlacePair) : pairCell left right a k.side i = k.cellOf m (rowsOf left right a) := by
    obtain ⟨a, b⟩ := a
    simp only [pairCell, JoinSortKey.cellOf, rowsOf]
    cases hs : k.side with
    | left =>
      rw [hs] at hi
      cases a with
      | none => rfl
      | some a => exact (Mapping.cellOf_eq hi _).symm
    | right =>
      rw [hs] at hi
      cases b with
      | none => rfl
      | some b => exact (Mapping.cellOf_eq hi _).symm
  have same := map_eq_of_forall₂ (Outcome.mapM_eq_ok.mp ho)
    (f := fun k => k.compare m (rowsOf left right a) (rowsOf left right b))
    (g := fun o => o.2.2.apply ((pairCell left right a o.1 o.2.1).sortCompare
      (pairCell left right b o.1 o.2.1))) fun k o hko => by
      obtain ⟨-, i, hi, rfl⟩ := order_eq_ok.mp hko
      rw [JoinSortKey.compare, cell hi, cell hi]
  have folded := congrArg (List.foldl Ordering.then .eq) same
  rw [List.foldl_map, List.foldl_map] at folded
  rw [comparePairs, JoinCriteria.compareRows, lexicographic, List.foldl_map]
  exact folded.symm

end Built

end JoinPlan
end DataAccess
