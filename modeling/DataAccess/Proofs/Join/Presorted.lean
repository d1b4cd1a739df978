import DataAccess.Proofs.Criteria.Sorted
import DataAccess.Proofs.Join.Relational

/-!
Sorting the sides before a join and the pairs after it is sorting the pairs once: pairs that tie
have sides that tie, and ties are in the order they were stored in.
-/
namespace DataAccess

namespace JoinKind

theorem flatMap_filter {α β : Type} (f : α → List β) (wanted : α → Bool) (xs : List α) :
    xs.flatMap (fun a => if wanted a then f a else []) = (xs.filter wanted).flatMap f := by
  induction xs with
  | nil => rfl
  | cons a rest ih =>
    rw [List.flatMap_cons, ih, List.filter_cons]
    split <;> simp

theorem isEmpty_filter {α : Type} (p : α → Bool) (xs : List α) :
    (xs.filter p).isEmpty = !xs.any p := by
  rw [Bool.eq_iff_iff]
  simp

variable {kind : JoinKind} {related : Row → Row → Bool}

/-- What is asked of a joined row, side by side. -/
structure Asks (P : JoinedRow → Bool) where
  left : Row → Bool
  right : Row → Bool
  noLeft : Bool
  noRight : Bool
  both : ∀ l r, P ⟨some l, some r⟩ = (left l && right r)
  alone : ∀ l, P ⟨some l, none⟩ = (left l && noRight)
  unpaired : ∀ r, P ⟨none, some r⟩ = (noLeft && right r)

/-- The pairs that are asked for are known from the rows that are asked for, in their order, and
from which rows there are. -/
theorem filter_paired {P : JoinedRow → Bool} (asks : Asks P) (ls rs : List Row) :
    (kind.paired related ls rs).filter P =
      (ls.filter asks.left).flatMap (fun l =>
        if rs.any (related l) then
          ((rs.filter asks.right).filter (related l)).map fun r => ⟨some l, some r⟩
        else if kind.preservesLeft && asks.noRight then [⟨some l, none⟩] else []) ++
      if kind.preservesRight && asks.noLeft then
        ((rs.filter asks.right).filter fun r => !ls.any (related · r)).map fun r => ⟨none, some r⟩
      else [] := by
  rw [paired, List.filter_append, List.filter_flatMap, ← flatMap_filter]
  congr 1
  · refine List.flatMap_congr fun l _ => ?_
    simp only [isEmpty_filter]
    cases rs.any (related l) with
    | false =>
      cases kind.preservesLeft <;> cases hl : asks.left l <;> cases hn : asks.noRight <;>
        simp [asks.alone, hl, hn]
    | true =>
      have pairs : ((fun r => P ⟨some l, some r⟩) : Row → Bool) =
          fun r => asks.left l && asks.right r := funext fun r => asks.both l r
      simp only [Bool.not_true, Bool.false_eq_true, if_false, if_true, List.filter_map]
      rw [List.filter_comm _ asks.right]
      change List.map _ (List.filter (fun r => P ⟨some l, some r⟩) _) = _
      rw [pairs]
      cases asks.left l <;> simp
  · cases kind.preservesRight with
    | false => rfl
    | true =>
      have pairs : ((fun r => P ⟨none, some r⟩) : Row → Bool) =
          fun r => asks.noLeft && asks.right r := funext asks.unpaired
      simp only [if_true, Bool.true_and, List.filter_map]
      rw [List.filter_comm _ asks.right]
      change List.map _ (List.filter (fun r => P ⟨none, some r⟩) _) = _
      rw [pairs]
      cases asks.noLeft <;> simp

/-- Sides in another order make the same pairs of one sort. -/
theorem filter_paired_congr {P : JoinedRow → Bool} (asks : Asks P) {ls ls' rs rs' : List Row}
    (hl : ls.Perm ls') (hr : rs.Perm rs') (sameLeft : ls.filter asks.left = ls'.filter asks.left)
    (sameRight : rs.filter asks.right = rs'.filter asks.right) :
    (kind.paired related ls rs).filter P = (kind.paired related ls' rs').filter P := by
  have anyLeft (r : Row) : ls.any (related · r) = ls'.any (related · r) := hl.any_eq
  have anyRight (l : Row) : rs.any (related l) = rs'.any (related l) := hr.any_eq
  simp only [filter_paired asks, sameLeft, sameRight, anyLeft, anyRight]

theorem paired_perm {ls ls' rs rs' : List Row} (hl : ls.Perm ls') (hr : rs.Perm rs') :
    (kind.paired related ls rs).Perm (kind.paired related ls' rs') := by
  have anyLeft (r : Row) : ls.any (related · r) = ls'.any (related · r) := hl.any_eq
  refine List.Perm.append ?_ ?_
  · refine (hl.flatMap_right _).trans (List.Perm.flatMap_left _ fun l _ => ?_)
    have partners := hr.filter (related l)
    dsimp only
    rw [partners.isEmpty_eq]
    split
    · exact List.Perm.refl _
    · exact partners.map _
  · split
    · simp only [anyLeft]
      exact (hr.filter _).map _
    · exact List.Perm.refl _

end JoinKind

def Side.pick {α : Type} (left right : α) : Side → α
  | .left => left
  | .right => right

/-- A row of one side without a partner. -/
def Side.alone (side : Side) (row : Row) : JoinedRow :=
  match side with
  | .left => ⟨some row, none⟩
  | .right => ⟨none, some row⟩

namespace JoinSortKey

/-- The kind of the column, when it is known. -/
def kind? (k : JoinSortKey) (m : Sql.Pair) : Option Kind :=
  ((m.mapping k.side).column k.property).toOption.bind (·.kind)

end JoinSortKey

namespace JoinCriteria

variable {c : JoinCriteria} {m : Sql.Pair} {ls rs : List Row}

/-- Sorted columns have a kind and no NaN. -/
def Sortable (c : JoinCriteria) (m : Sql.Pair) (ls rs : List Row) : Prop :=
  ∀ k ∈ c.orders, ∃ kind, k.kind? m = some kind ∧
    ∀ row ∈ k.side.pick ls rs, ((m.mapping k.side).cellOf row k.property).Sortable kind

/-- The same of a joined row. -/
def Orderable (c : JoinCriteria) (m : Sql.Pair) (row : JoinedRow) : Prop :=
  ∀ k ∈ c.orders, ∃ kind, k.kind? m = some kind ∧ (k.cellOf m row).Sortable kind

theorem ranks_keys {keys : List JoinSortKey} (known : ∀ k ∈ keys, k ∈ c.orders) :
    Ranks (c.Orderable m) (lexicographic (keys.map (·.compare m))) := by
  refine Ranks.lexicographic fun compare hc => ?_
  obtain ⟨k, hk, rfl⟩ := List.mem_map.mp hc
  have hk := known k hk
  have cells : Ranks (c.Orderable m) fun a b => (k.cellOf m a).sortCompare (k.cellOf m b) := by
    cases hkind : k.kind? m with
    | none =>
      refine ⟨fun a b => (Value.ranks_sortCompare .boolean).swap _ _, fun a _ _ ha => ?_⟩
      obtain ⟨kind, h, -⟩ := ha k hk
      simp [hkind] at h
    | some kind =>
      refine ((Value.ranks_sortCompare kind).on (k.cellOf m)).weaken fun a ha => ?_
      obtain ⟨kind', h, hs⟩ := ha k hk
      obtain rfl : kind = kind' := by simpa [hkind] using h
      exact hs
  exact cells.directed k.direction

theorem ranks_compareRows : Ranks (c.Orderable m) (c.compareRows m) := ranks_keys fun _ hk => hk

theorem mem_of_mem_paired {kind : JoinKind} {related : Row → Row → Bool} {row : JoinedRow}
    (h : row ∈ kind.paired related ls rs) :
    (∀ l, row.left = some l → l ∈ ls) ∧ ∀ r, row.right = some r → r ∈ rs := by
  rcases List.mem_append.mp h with h | h
  · obtain ⟨l, hl, h⟩ := List.mem_flatMap.mp h
    dsimp only at h
    split at h
    · split at h <;> simp_all
    · obtain ⟨r, hr, rfl⟩ := List.mem_map.mp h
      have := (List.mem_filter.mp hr).1
      simp_all
  · split at h
    · obtain ⟨r, hr, rfl⟩ := List.mem_map.mp h
      have := (List.mem_filter.mp hr).1
      simp_all
    · simp at h

theorem orderable_of_sortable (sortable : c.Sortable m ls rs) {row : JoinedRow}
    (hl : ∀ l, row.left = some l → l ∈ ls) (hr : ∀ r, row.right = some r → r ∈ rs) :
    c.Orderable m row := by
  have missing (kind : Kind) : (Value.null none).Sortable kind := by simp [Value.Sortable]
  intro k hk
  obtain ⟨kind, hkind, hrows⟩ := sortable k hk
  refine ⟨kind, hkind, ?_⟩
  unfold JoinSortKey.cellOf
  cases hs : k.side with
  | left =>
    rw [hs] at hrows
    cases h : row.left with
    | none => exact missing kind
    | some l => exact hrows l (hl l h)
  | right =>
    rw [hs] at hrows
    cases h : row.right with
    | none => exact missing kind
    | some r => exact hrows r (hr r h)

/-- The keys of one side. -/
def ordersOf (c : JoinCriteria) (side : Side) : List JoinSortKey :=
  c.orders.filter (decide <| ·.side = side)

/-- Whether a joined row ties with another on one side. -/
def tiesOn (c : JoinCriteria) (m : Sql.Pair) (side : Side) (z row : JoinedRow) : Bool :=
  (c.ordersOf side).all fun k => k.compare m z row == .eq

theorem compareRows_eq (z row : JoinedRow) : (c.compareRows m z row == .eq) =
    (c.tiesOn m .left z row && c.tiesOn m .right z row) := by
  have all : (c.compareRows m z row == .eq) = c.orders.all fun k => k.compare m z row == .eq := by
    rw [Bool.eq_iff_iff, beq_iff_eq, compareRows, lexicographic_eq_eq]
    simp
  rw [all, tiesOn, tiesOn, ordersOf, ordersOf]
  induction c.orders with
  | nil => rfl
  | cons k rest ih => cases hk : k.side <;> simp [hk, ih, Bool.and_assoc, Bool.and_left_comm]

/-- Only the side matters. -/
theorem tiesOn_congr {side : Side} {z row row' : JoinedRow}
    (same : match side with
      | .left => row.left = row'.left
      | .right => row.right = row'.right) : c.tiesOn m side z row = c.tiesOn m side z row' := by
  have key {k : JoinSortKey} (hk : k ∈ c.ordersOf side) :
      k.compare m z row = k.compare m z row' := by
    have hs : k.side = side := by simpa using (List.mem_filter.mp hk).2
    have cell : k.cellOf m row = k.cellOf m row' := by
      unfold JoinSortKey.cellOf
      cases side <;> simp_all
    rw [JoinSortKey.compare, JoinSortKey.compare, cell]
  unfold tiesOn
  rw [Bool.eq_iff_iff, List.all_eq_true, List.all_eq_true]
  exact ⟨fun h k hk => key hk ▸ h k hk, fun h k hk => key hk ▸ h k hk⟩

/-- Tying with a joined row is asked of each side. -/
def asksTie (c : JoinCriteria) (m : Sql.Pair) (z : JoinedRow) :
    JoinKind.Asks fun row => c.compareRows m z row == .eq where
  left l := c.tiesOn m .left z ⟨some l, none⟩
  right r := c.tiesOn m .right z ⟨none, some r⟩
  noLeft := c.tiesOn m .left z ⟨none, none⟩
  noRight := c.tiesOn m .right z ⟨none, none⟩
  both _ _ := (compareRows_eq z _).trans (congrArg₂ and (tiesOn_congr rfl) (tiesOn_congr rfl))
  alone _ := (compareRows_eq z _).trans (congrArg₂ and rfl (tiesOn_congr rfl))
  unpaired _ := (compareRows_eq z _).trans (congrArg₂ and (tiesOn_congr rfl) rfl)

/-- Rows of one side are compared by the keys of that side. -/
theorem compareAt_eq {side : Side} {keys : List JoinSortKey} (sides : ∀ k ∈ keys, k.side = side)
    {places : List (Nat × Direction)}
    (placed : SortKey.places (m.mapping side) (keys.map fun k => ⟨k.property, k.direction⟩) =
      .ok places) (a b : Row) : Row.compareAt places a b =
      lexicographic (keys.map (·.compare m)) (side.alone a) (side.alone b) := by
  rw [SortKey.compareAt_eq placed]
  clear placed
  induction keys with
  | nil => rfl
  | cons k rest ih =>
    obtain ⟨hk, hrest⟩ := List.forall_mem_cons.mp sides
    have own : (SortKey.mk k.property k.direction).compare (m.mapping side) a b =
        k.compare m (side.alone a) (side.alone b) := by
      subst hk
      unfold SortKey.compare JoinSortKey.compare JoinSortKey.cellOf Side.alone
      cases k.side <;> rfl
    simp only [List.map_cons, lexicographic_cons, own, ih hrest]

theorem sort_filter_tiesOn (side : Side) {places : List (Nat × Direction)}
    (placed : SortKey.places (m.mapping side) (Join.sideCriteria c side).orders = .ok places)
    {z : JoinedRow} (hz : c.Orderable m z) (rows : List Row)
    (orderable : ∀ row ∈ rows, c.Orderable m (side.alone row)) :
    (StableSort.sort (Row.compareAt places) rows).filter (fun row =>
        c.tiesOn m side z (side.alone row)) =
      rows.filter fun row => c.tiesOn m side z (side.alone row) := by
  have ranks : Ranks (c.Orderable m) (lexicographic ((c.ordersOf side).map (·.compare m))) :=
    ranks_keys fun _ hk => (List.mem_filter.mp hk).1
  have tie {row : Row} (h : c.tiesOn m side z (side.alone row) = true) :
      lexicographic ((c.ordersOf side).map (·.compare m)) z (side.alone row) = .eq := by
    rw [lexicographic_eq_eq]
    simpa [tiesOn] using h
  refine StableSort.sort_filter _ fun a ha b hb hza hzb hlt => ?_
  have sides : ∀ k ∈ c.ordersOf side, k.side = side := by simp [ordersOf]
  rw [compareAt_eq sides placed] at hlt
  have := ranks.tie_trans (orderable a ha) hz (orderable b hb) (ranks.eq_comm.mp (tie hza))
    (tie hzb)
  simp [this] at hlt

/-- Sorting each side first changes nothing. -/
theorem sort_presorted {kind : JoinKind} {related : Row → Row → Bool}
    (sortable : c.Sortable m ls rs) {lps rps : List (Nat × Direction)}
    (hl : SortKey.places m.left (Join.sideCriteria c .left).orders = .ok lps)
    (hr : SortKey.places m.right (Join.sideCriteria c .right).orders = .ok rps) :
    StableSort.sort (c.compareRows m) (kind.paired related
        (StableSort.sort (Row.compareAt lps) ls) (StableSort.sort (Row.compareAt rps) rs)) =
      (kind.paired related ls rs).mergeSort fun a b => (c.compareRows m a b).isLE := by
  refine StableSort.sort_eq_mergeSort ranks_compareRows ?_ ?_ fun z hz => ?_
  · intro row h
    obtain ⟨hls, hrs⟩ := mem_of_mem_paired h
    exact orderable_of_sortable sortable (fun l h => StableSort.mem_sort.mp (hls l h))
      fun r h => StableSort.mem_sort.mp (hrs r h)
  · intro row h
    obtain ⟨hls, hrs⟩ := mem_of_mem_paired h
    exact orderable_of_sortable sortable hls hrs
  · refine JoinKind.filter_paired_congr (c.asksTie m z) (StableSort.sort_perm ls)
      (StableSort.sort_perm rs) ?_ ?_
    · exact sort_filter_tiesOn .left hl hz ls fun l h =>
        orderable_of_sortable sortable (by simp [Side.alone, h]) (by simp [Side.alone])
    · exact sort_filter_tiesOn .right hr hz rs fun r h =>
        orderable_of_sortable sortable (by simp [Side.alone]) (by simp [Side.alone, h])

end JoinCriteria
end DataAccess
