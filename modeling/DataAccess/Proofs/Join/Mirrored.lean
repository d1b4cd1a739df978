import DataAccess.Proofs.Join.Here
import DataAccess.Proofs.Join.Places
import Mathlib.Data.Prod.Basic

/-!
A join and the same join seen from the other side. A plan pairs the same places either way, whatever
it looks up, so that both merge the same pairs; here both return the same rows in one order.
-/
namespace DataAccess

namespace JoinKind

/-- The kind that keeps the same rows with the sides exchanged. -/
def mirrored : JoinKind → JoinKind
  | .leftOuter => .rightOuter
  | .rightOuter => .leftOuter
  | kind => kind

theorem preservesLeft_mirrored (kind : JoinKind) :
    kind.mirrored.preservesLeft = kind.preservesRight := by
  cases kind <;> rfl

theorem preservesRight_mirrored (kind : JoinKind) :
    kind.mirrored.preservesRight = kind.preservesLeft := by
  cases kind <;> rfl

end JoinKind

def JoinTerm.flip (t : JoinTerm) : JoinTerm := ⟨t.right, t.left, t.predicate.flip⟩

namespace JoinPlan

variable {p : JoinPlan} {left right : List Row}

/-- The plan of the join seen from the other side. -/
def mirrored (p : JoinPlan) : JoinPlan where
  kind := p.kind.mirrored
  operator := p.operator
  terms := p.terms.map .flip
  index := p.index.map Prod.swap
  orders := p.orders.map fun o => (o.1.other, o.2)

theorem finds_mirrored (p : JoinPlan) (x y : Row) : p.mirrored.finds y x = p.finds x y := by
  have matched : p.mirrored.matchesRows y x = p.matchesRows x y := by
    unfold matchesRows mirrored
    cases p.operator <;> simp [List.all_map, List.any_map, Function.comp_def, JoinTerm.flip,
      JoinExpression.matchesCells_flip]
  unfold finds
  rw [matched]
  cases hi : p.index with
  | none => simp [mirrored, hi]
  | some place =>
    simp only [mirrored, hi, Option.map_some, Prod.fst_swap, Prod.snd_swap]
    congr 1
    refine decide_eq_decide.mpr ?_
    constructor
    · rintro ⟨h, e⟩
      exact ⟨e ▸ h, e.symm⟩
    · rintro ⟨h, e⟩
      exact ⟨e ▸ h, e.symm⟩

theorem lists_mirrored {e : PlacePair} :
    p.mirrored.Lists right left e.swap ↔ p.Lists left right e := by
  have finds (a b : Nat) : p.mirrored.findsAt right left b a = p.findsAt left right a b :=
    p.finds_mirrored _ _
  have kept : p.mirrored.kind.preservesLeft = p.kind.preservesRight :=
    p.kind.preservesLeft_mirrored
  have kept' : p.mirrored.kind.preservesRight = p.kind.preservesLeft :=
    p.kind.preservesRight_mirrored
  obtain ⟨_ | a, _ | b⟩ := e
  · rfl
  · simp only [Prod.swap_prod_mk, Lists, finds, kept]
  · simp only [Prod.swap_prod_mk, Lists, finds, kept']
  · simp only [Prod.swap_prod_mk, Lists, finds, and_left_comm]

/-- Both plans merge the same pairs. -/
theorem merge_mirrored (p : JoinPlan) (left right : List Row) :
    ((p.mirrored.merge right left).map Prod.swap).Perm (p.merge left right) := by
  have nodup := (p.mirrored.nodup_merge right left).map Prod.swap_injective
  refine (List.perm_ext_iff_of_nodup nodup (p.nodup_merge left right)).mpr fun e => ?_
  rw [mem_merge_iff, ← lists_mirrored, ← mem_merge_iff, List.mem_map]
  constructor
  · intro h
    obtain ⟨e, he, rfl⟩ := h
    rwa [Prod.swap_swap]
  · exact fun h => ⟨e.swap, h, Prod.swap_swap e⟩

end JoinPlan

namespace JoinCriteria

variable {c : JoinCriteria} {m : Sql.Pair} {p : JoinPlan}

/-- The same join with the sides exchanged, of any kind. -/
def mirrored (c : JoinCriteria) : JoinCriteria :=
  ⟨c.kind.mirrored, c.operator, c.expressions.map .flip, c.orders.map .flip, c.right, c.left,
    c.window⟩

theorem flip_of_oneSided (h : c.kind = .leftOuter ∨ c.kind = .rightOuter) :
    c.flip = .ok c.mirrored := by
  refine flip_eq_ok.mpr ⟨_, ?_, rfl⟩
  rcases h with h | h <;> rw [h] <;> rfl

theorem mirrored_mirrored (c : JoinCriteria) : c.mirrored.mirrored = c := by
  have kind : c.kind.mirrored.mirrored = c.kind := by cases c.kind <;> rfl
  simp only [mirrored, kind, JoinExpression.map_flip_flip, JoinSortKey.map_flip_flip]

theorem validate_mirrored (c : JoinCriteria) : c.mirrored.validate = c.validate := by
  simp [validate, mirrored]

theorem indexOf_mirrored (operator : Connective) (terms : List JoinTerm) :
    JoinPlan.indexOf operator (terms.map .flip) =
      (JoinPlan.indexOf operator terms).map Prod.swap := by
  have same : JoinPlan.isEquality ∘ JoinTerm.flip = JoinPlan.isEquality := by
    funext t
    obtain ⟨left, right, relation, l, r, positive⟩ := t
    cases relation <;> rfl
  unfold JoinPlan.indexOf
  rw [List.length_map, List.find?_map, same]
  split
  · rw [Option.map_map, Option.map_map]
    rfl
  · rfl

/-- The plan of the mirrored join looks up the same equality. -/
theorem plan_mirrored (built : JoinPlan.ofCriteria m.left m.right c = .ok p) :
    JoinPlan.ofCriteria m.right m.left c.mirrored = .ok p.mirrored := by
  obtain ⟨terms, orders, ht, ho, rfl⟩ := JoinPlan.ofCriteria_eq_ok.mp built
  refine JoinPlan.ofCriteria_eq_ok (m := m.flip) |>.mpr
    ⟨terms.map .flip, orders.map fun o => (o.1.other, o.2), ?_, ?_, ?_⟩
  · refine Outcome.mapM_map_of_eq_ok ht fun e t het => ?_
    obtain ⟨hl, hr, rfl⟩ := JoinPlan.term_eq_ok.mp het
    exact JoinPlan.term_eq_ok (m := m.flip) |>.mpr ⟨hr, hl, rfl⟩
  · refine Outcome.mapM_map_of_eq_ok ho fun k o hko => ?_
    obtain ⟨hk, i, hi, rfl⟩ := JoinPlan.order_eq_ok.mp hko
    refine JoinPlan.order_eq_ok (m := m.flip) |>.mpr ⟨hk, i, ?_, rfl⟩
    rw [Sql.Pair.mapping_flip]
    obtain ⟨property, direction, side⟩ := k
    cases side <;> exact hi
  · simp only [JoinPlan.mirrored, ← indexOf_mirrored]
    rfl

end JoinCriteria

namespace Join

variable {σ : Type}

theorem map_flip_map_flip (rows : List JoinedRow) :
    (rows.map JoinResult.flip).map JoinResult.flip = rows :=
  List.map_map.trans (List.map_id'' (fun _ => rfl) rows)

theorem here_of_rightOuter (l r : Source σ) {c : JoinCriteria} (kind : c.kind = .rightOuter) :
    here l r c = (·.map .flip) <$> here r l c.mirrored := by
  have left : c.mirrored.kind ≠ .rightOuter := by
    simp [JoinCriteria.mirrored, kind, JoinKind.mirrored]
  unfold here fromKeptSide
  rw [map_bind, c.validate_mirrored]
  refine bind_congr fun _ => ?_
  rw [if_pos kind, if_neg left, JoinCriteria.flip_of_oneSided (.inr kind)]
  have known : (Action.of (.ok c.mirrored) : Action σ JoinCriteria) = pure c.mirrored := rfl
  rw [known, pure_bind, map_bind]
  refine bind_congr fun ⟨p, left, right⟩ => ?_
  rw [map_pure]
  rfl

/-- A one-sided join here is the mirrored join, each row with its sides exchanged. -/
theorem here_mirrored (l r : Source σ) {c : JoinCriteria}
    (h : c.kind = .leftOuter ∨ c.kind = .rightOuter) :
    here l r c = (·.map .flip) <$> here r l c.mirrored := by
  rcases h with h | h
  · have kind : c.mirrored.kind = .rightOuter := by rw [JoinCriteria.mirrored, h]; rfl
    rw [here_of_rightOuter r l kind, c.mirrored_mirrored, Functor.map_map]
    simp only [map_flip_map_flip]
    exact (id_map _).symm
  · exact here_of_rightOuter l r h

/-- Exchanging the sides keeps a join. For any rows, a plan and the plan of the mirrored join merge
the same pairs of places, so a right outer join merged as it is has the rows of the left outer join
it is run as. Flipping a one-sided join twice gives it back, and between any storages it is, rows in
order, log and failures included, the flipped join with the sides of each row exchanged. -/
theorem mirrored_same (m : Sql.Pair) (c : JoinCriteria) :
    (∀ p, JoinPlan.ofCriteria m.left m.right c = .ok p →
      ∃ q, JoinPlan.ofCriteria m.right m.left c.mirrored = .ok q ∧ ∀ left right,
        ((q.merge right left).map Prod.swap).Perm (p.merge left right) ∧
        (((q.merge right left).map (JoinPlan.rowsOf right left)).map .flip).Perm
          ((p.merge left right).map (JoinPlan.rowsOf left right))) ∧
    (c.kind = .leftOuter ∨ c.kind = .rightOuter →
      c.flip = .ok c.mirrored ∧ c.mirrored.flip = .ok c ∧
      ∀ l r : Source σ, here l r c = (·.map .flip) <$> here r l c.mirrored) := by
  constructor
  · intro p built
    refine ⟨p.mirrored, JoinCriteria.plan_mirrored built, fun left right => ?_⟩
    have places := p.merge_mirrored left right
    refine ⟨places, ?_⟩
    have rows := places.map (JoinPlan.rowsOf left right)
    rw [List.map_map] at rows ⊢
    exact rows
  · intro oneSided
    have flips := JoinCriteria.flip_of_oneSided oneSided
    exact ⟨flips, JoinCriteria.flip_flip flips, fun l r => here_mirrored l r oneSided⟩

/-- Everyone with those whose parent's number is no smaller than theirs. -/
def notAbove : JoinCriteria :=
  (JoinCriteria.ofKind .rightOuter).on ⟨.greater, "id", "parent", false⟩

/-- Nobody is compared with an unknown parent, nor with one that is no number. -/
theorem mirrored_same_notAbove :
    (∃ q, JoinPlan.ofCriteria people people notAbove.mirrored = .ok q ∧
      ((q.merge [person 1 (.null none), person 2 (.of (.int32 2)), person 3 (.of (.float64 .nan))]
        [person 1 (.null none), person 3 (.null none)]).map Prod.swap).Perm
          [(some 0, some 1), (none, some 0), (none, some 2)]) ∧
      notAbove.mirrored.flip = .ok notAbove ∧
      here familyTable.source familyTable.source notAbove =
        (·.map .flip) <$> here familyTable.source familyTable.source notAbove.mirrored := by
  obtain ⟨plans, flips⟩ := mirrored_same (σ := Storages) ⟨people, people⟩ notAbove
  obtain ⟨-, back, rows⟩ := flips (.inr rfl)
  refine ⟨?_, back, rows familyTable.source familyTable.source⟩
  obtain ⟨q, planned, same⟩ := plans
    ⟨.rightOuter, .and, [⟨0, 1, ⟨.greater, "id", "parent", false⟩⟩], none, []⟩ rfl
  refine ⟨q, planned, (same _ _).1.trans (.of_eq ?_)⟩
  decide +kernel

end Join
end DataAccess
