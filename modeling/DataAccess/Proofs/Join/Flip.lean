import DataAccess.Proofs.Join.Answer
import DataAccess.Proofs.Join.Predicates

/-! The sides of a join exchanged: the same pairs, seen from the other side. -/
namespace DataAccess

theorem JoinSortKey.flip_flip (k : JoinSortKey) : k.flip.flip = k := by
  obtain ⟨property, direction, side⟩ := k
  cases side <;> rfl

theorem JoinSortKey.map_flip_flip (ks : List JoinSortKey) : (ks.map flip).map flip = ks :=
  List.map_map.trans (List.map_id'' flip_flip ks)

theorem JoinExpression.map_flip_flip (es : List JoinExpression) : (es.map flip).map flip = es :=
  List.map_map.trans (List.map_id'' flip_flip es)

/-- The tables with the sides exchanged. -/
def Sql.Pair.flip (m : Sql.Pair) : Sql.Pair := ⟨m.right, m.left⟩

theorem Sql.Pair.mapping_flip (m : Sql.Pair) (side : Side) :
    m.flip.mapping side = m.mapping side.other := by
  cases side <;> rfl

theorem JoinSortKey.compare_flip (k : JoinSortKey) (m : Sql.Pair) (a b : JoinedRow) :
    k.flip.compare m.flip a b = k.compare m a.flip b.flip := by
  have cell (row : JoinedRow) : k.flip.cellOf m.flip row = k.cellOf m row.flip := by
    obtain ⟨property, direction, side⟩ := k
    cases side <;> rfl
  rw [compare, compare, cell, cell]
  rfl

namespace JoinCriteria

variable {c flipped : JoinCriteria} {m : Sql.Pair} {ls rs : List Row}

theorem kind_flip (flips : c.flip = .ok flipped) (kind : c.kind = .rightOuter) :
    flipped.kind = .leftOuter := by
  obtain ⟨k, hk, rfl⟩ := flip_eq_ok.mp flips
  simpa [kind, JoinKind.flip, eq_comm] using hk

theorem related_flip (flips : c.flip = .ok flipped) :
    flipped.related m.flip = fun y x => c.related m x y := by
  obtain ⟨kind, -, rfl⟩ := flip_eq_ok.mp flips
  funext y x
  have each (e : JoinExpression) :
      e.flip.matchesCells (m.right.cellOf y e.right) (m.left.cellOf x e.left) =
        e.matchesCells (m.left.cellOf x e.left) (m.right.cellOf y e.right) :=
    e.matchesCells_flip _ _
  unfold related
  cases c.operator with
  | and => exact (List.all_map ..).trans (congrArg _ (funext each))
  | or => exact (List.any_map ..).trans (congrArg _ (funext each))

theorem compareRows_flip (flips : c.flip = .ok flipped) (a b : JoinedRow) :
    flipped.compareRows m.flip a b = c.compareRows m a.flip b.flip := by
  obtain ⟨kind, -, rfl⟩ := flip_eq_ok.mp flips
  simp only [compareRows, lexicographic, List.foldl_map, JoinSortKey.compare_flip]

theorem criteria_flip (flips : c.flip = .ok flipped) (side : Side) :
    flipped.criteria side = c.criteria side.other := by
  obtain ⟨kind, -, rfl⟩ := flip_eq_ok.mp flips
  cases side <;> rfl

theorem passing_flip (flips : c.flip = .ok flipped) (side : Side) (rows : List Row) :
    flipped.passing m.flip side rows = c.passing m side.other rows := by
  rw [passing, passing, criteria_flip flips, Sql.Pair.mapping_flip]

theorem keyed_flip (flips : c.flip = .ok flipped) (h : c.Keyed m ls rs) :
    flipped.Keyed m.flip rs ls := by
  obtain ⟨kind, -, rfl⟩ := flip_eq_ok.mp flips
  intro e he y hy x hx heq
  obtain ⟨e, hmem, rfl⟩ := List.mem_map.mp he
  refine (h e hmem x hx y hy ?_).symm
  rw [Value.compare_swap]
  exact congrArg (Option.map Ordering.swap) heq

theorem expressions_flip (flips : c.flip = .ok flipped) (h : c.expressions ≠ []) :
    flipped.expressions ≠ [] := by
  obtain ⟨kind, -, rfl⟩ := flip_eq_ok.mp flips
  simpa using h

theorem accepted_flip (flips : c.flip = .ok flipped) (h : c.Accepted m) :
    flipped.Accepted m.flip where
  nonempty := expressions_flip flips h.nonempty
  joined e he := by
    obtain ⟨kind, -, rfl⟩ := flip_eq_ok.mp flips
    obtain ⟨e, hmem, rfl⟩ := List.mem_map.mp he
    exact (h.joined e hmem).symm
  sorted k hk := by
    obtain ⟨kind, -, rfl⟩ := flip_eq_ok.mp flips
    obtain ⟨⟨property, direction, side⟩, hmem, rfl⟩ := List.mem_map.mp hk
    cases side <;> exact h.sorted _ hmem
  filtered side f hf := by
    rw [criteria_flip flips] at hf
    rw [Sql.Pair.mapping_flip]
    exact h.filtered side.other f hf

theorem flip_flip (flips : c.flip = .ok flipped) : flipped.flip = .ok c := by
  obtain ⟨kind, hk, rfl⟩ := flip_eq_ok.mp flips
  refine flip_eq_ok.mpr ⟨c.kind, ?_, ?_⟩
  · revert hk
    cases c.kind <;> simp only [JoinKind.flip, reduceCtorEq, IsEmpty.forall_iff, Except.ok.injEq]
    all_goals
      intro h
      obtain rfl := h
      rfl
  · rw [JoinExpression.map_flip_flip, JoinSortKey.map_flip_flip]

theorem accepted_of_flip (flips : c.flip = .ok flipped) :
    flipped.Accepted m.flip ↔ c.Accepted m :=
  ⟨fun h => accepted_flip (m := m.flip) (flip_flip flips) h, accepted_flip flips⟩

/-- A right outer join is a left outer join from the other side. -/
theorem answer_flip (flips : c.flip = .ok flipped) (kind : c.kind = .rightOuter) (m : Sql.Pair)
    (ls rs : List Row) :
    (flipped.answer m.flip rs ls).map .flip = c.answer m ls rs := by
  have left := kind_flip flips kind
  have window : flipped.window = c.window := by
    obtain ⟨k, -, rfl⟩ := flip_eq_ok.mp flips
    rfl
  rw [answer, answer, window, Window.map_take, listed, listed, if_neg (by simp [left]), if_pos kind,
    passing_flip flips, passing_flip flips, related_flip flips, left]
  refine congrArg c.window.take (List.map_mergeSort fun a _ b _ => ?_)
  rw [compareRows_flip flips]

end JoinCriteria
end DataAccess
