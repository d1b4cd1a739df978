import DataAccess.Proofs.Criteria.Sorted
import Mathlib.Algebra.GroupWithZero.Nat
import Mathlib.Data.List.Pairwise

/-!
Counts by combination. The cells of the rows that match are sorted, so that equal combinations stand
together, and each run of them is a group.
-/
namespace DataAccess

namespace Row

/-- Before another combination, at the first cell where they differ. -/
def Before (a b : Row) : Prop :=
  Precedes (fun p => p.1.Before p.2) (fun p => p.1.Level p.2) (a.zip b)

/-- Combinations that are the same, cell by cell. -/
def Level (a b : Row) : Prop := List.Forall₂ Value.Level a b

instance (a b : Row) : Decidable (a.Level b) :=
  inferInstanceAs (Decidable (List.Forall₂ Value.Level a b))

/-- Cells that can be sorted in columns of the kinds. -/
def Sortable (kinds : List Kind) (row : Row) : Prop := List.Forall₂ Value.Sortable kinds row

theorem compareKeys_cons (v w : Value) (a b : Row) :
    compareKeys (v :: a) (w :: b) = (v.sortCompare w).then (compareKeys a b) := by
  -- The pairs of cells are the keys, and there is nothing else to compare.
  have keyed (a b : Row) : compareKeys a b =
      lexicographic ((a.zip b).map fun p (_ _ : Unit) => p.1.sortCompare p.2) () () := by
    rw [compareKeys, lexicographic, List.foldl_map]
  rw [keyed, keyed, List.zip_cons_cons, List.map_cons, lexicographic_cons]

theorem compareKeys_swap (a b : Row) : compareKeys b a = (compareKeys a b).swap := by
  induction a generalizing b with
  | nil => cases b <;> rfl
  | cons v a ih =>
    cases b with
    | nil => rfl
    | cons w b =>
      rw [compareKeys_cons, compareKeys_cons, ih, Value.sortCompare_swap v w, Ordering.swap_then]

variable {kinds : List Kind} {a b : Row}

theorem compareKeys_eq_lt (ha : a.Sortable kinds) (hb : b.Sortable kinds) :
    compareKeys a b = .lt ↔ a.Before b := by
  induction ha generalizing b with
  | nil =>
    cases hb
    exact ⟨nofun, nofun⟩
  | cons hv _ ih =>
    obtain _ | ⟨hw, hb⟩ := hb
    rw [compareKeys_cons, Ordering.then_eq_lt, Value.sortCompare_eq_lt hv hw,
      Value.sortCompare_eq_eq hv hw, ih hb, Before, Before, List.zip_cons_cons, precedes_cons]

theorem compareKeys_eq_eq (ha : a.Sortable kinds) (hb : b.Sortable kinds) :
    compareKeys a b = .eq ↔ a.Level b := by
  induction ha generalizing b with
  | nil =>
    cases hb
    exact iff_of_true rfl .nil
  | cons hv _ ih =>
    obtain _ | ⟨hw, hb⟩ := hb
    rw [compareKeys_cons, Ordering.then_eq_eq, Value.sortCompare_eq_eq hv hw, ih hb, Level, Level,
      List.forall₂_cons]

theorem ranks_compareKeys (kinds : List Kind) : Ranks (Sortable kinds) compareKeys := by
  induction kinds with
  | nil =>
    refine ⟨compareKeys_swap, ?_⟩
    rintro _ _ _ ⟨⟩ ⟨⟩ ⟨⟩ - -
    rfl
  | cons kind kinds ih =>
    have first := ((Value.ranks_sortCompare kind).on Prod.fst).weaken
      fun (p : Value × Row) (h : p.1.Sortable kind ∧ p.2.Sortable kinds) => h.1
    have rest := (ih.on Prod.snd).weaken
      fun (p : Value × Row) (h : p.1.Sortable kind ∧ p.2.Sortable kinds) => h.2
    refine ⟨compareKeys_swap, ?_⟩
    rintro _ _ _ (_ | ⟨hv, ha⟩) (_ | ⟨hw, hb⟩) (_ | ⟨hu, hc⟩)
    simp only [compareKeys_cons]
    exact (first.andThen rest).trans (_, _) (_, _) (_, _) ⟨hv, ha⟩ ⟨hw, hb⟩ ⟨hu, hc⟩

end Row

namespace GroupCount

/-- One group for each combination among the keys, told by how keys are compared. -/
structure Tally (keys : List Row) (groups : List GroupCount) : Prop where
  ordered : groups.Pairwise fun g h => Row.compareKeys g.values h.values = .lt
  occurring : ∀ g ∈ groups, g.values ∈ keys
  counted : ∀ g ∈ groups, g.count = keys.countP fun k => Row.compareKeys g.values k == .eq
  covering : ∀ k ∈ keys, ∃ g ∈ groups, Row.compareKeys g.values k = .eq
  total : (groups.map (·.count)).sum = keys.length

variable {S : Row → Prop} {key : Row} {keys run others : List Row} {groups : List GroupCount}

/-- A run of the least key goes before the groups of the others. -/
theorem Tally.cons (h : Ranks S Row.compareKeys) (run_tie : ∀ k ∈ run, Row.compareKeys key k = .eq)
    (others_lt : ∀ k ∈ others, Row.compareKeys key k = .lt)
    (sortable : ∀ k ∈ key :: (run ++ others), S k) (t : Tally others groups) :
    Tally (key :: (run ++ others)) (⟨run.length + 1, key⟩ :: groups) where
  ordered := List.pairwise_cons.mpr ⟨fun g hg => others_lt _ (t.occurring g hg), t.ordered⟩
  occurring := by
    refine List.forall_mem_cons.mpr ⟨List.mem_cons_self, fun g hg => ?_⟩
    exact List.mem_cons_of_mem _ (List.mem_append_right _ (t.occurring g hg))
  counted := by
    have all_run : run.countP (fun k => Row.compareKeys key k == .eq) = run.length :=
      List.countP_eq_length.mpr fun k hk => by simp [run_tie k hk]
    have no_other : others.countP (fun k => Row.compareKeys key k == .eq) = 0 :=
      List.countP_eq_zero.mpr fun k hk => by simp [others_lt k hk]
    refine List.forall_mem_cons.mpr ⟨?_, fun g hg => ?_⟩
    · simp [h.self, all_run, no_other]
    -- A group of the others is behind the key, and so behind its whole run.
    · have stored := t.occurring g hg
      have greater := others_lt g.values stored
      have sg := sortable g.values (by simp [stored])
      have sk := sortable key List.mem_cons_self
      have apart : Row.compareKeys g.values key = .gt := by rw [h.swap key, greater]; rfl
      have no_run : run.countP (fun k => Row.compareKeys g.values k == .eq) = 0 := by
        refine List.countP_eq_zero.mpr fun k hk => ?_
        have sr := sortable k (by simp [hk])
        have same := h.congr_left sk sr sg (run_tie k hk)
        simp [h.swap k, ← same, greater]
      simp [apart, no_run, t.counted g hg]
  covering := by
    intro k hk
    rcases List.mem_cons.mp hk with rfl | hk
    · exact ⟨_, List.mem_cons_self, h.self k⟩
    · rcases List.mem_append.mp hk with hk | hk
      · exact ⟨_, List.mem_cons_self, run_tie k hk⟩
      · obtain ⟨g, hg, tie⟩ := t.covering k hk
        exact ⟨g, List.mem_cons_of_mem _ hg, tie⟩
  total := by
    simp only [List.map_cons, List.sum_cons, t.total, List.length_cons, List.length_append]
    omega

/-- Of two groups one is before the other, so they do not tie. -/
theorem Tally.eq_of_tie (h : Ranks S Row.compareKeys) (t : Tally keys groups) {g g' : GroupCount}
    (hg : g ∈ groups) (hg' : g' ∈ groups) (tie : Row.compareKeys g.values g'.values = .eq) :
    g = g' := by
  by_contra other
  let Apart (a b : GroupCount) : Prop := Row.compareKeys a.values b.values ≠ .eq
  have apart : groups.Pairwise Apart := t.ordered.imp fun lt => by simp [Apart, lt]
  have symm : Std.Symm Apart := ⟨fun a b ne eq => ne (h.eq_comm.mp eq)⟩
  exact apart.forall hg hg' other tie

/-- The runs of sorted keys are the groups. -/
theorem tally_runs (h : Ranks S Row.compareKeys) (sortable : ∀ k ∈ keys, S k)
    (sorted : Ascending Row.compareKeys keys) : Tally keys (runs keys) := by
  induction keys using runs.induct with
  | case1 =>
    rw [runs]
    exact ⟨.nil, nofun, nofun, nofun, rfl⟩
  | case2 key rest ih =>
    have cut : rest = rest.takeWhile (fun k => Row.compareKeys key k == .eq) ++
        rest.dropWhile fun k => Row.compareKeys key k == .eq := List.takeWhile_append_dropWhile.symm
    have later := (List.dropWhile_sublist fun k => Row.compareKeys key k == .eq).trans
      (List.sublist_cons_self key rest)
    rw [runs]
    have grown := Tally.cons h
      (fun k hk => eq_of_beq (List.all_eq_true.mp List.all_takeWhile k hk))
      (fun k hk => sorted.lt_of_mem_dropWhile h sortable hk)
      (by rwa [← cut]) (ih (fun k hk => sortable k (later.subset hk)) (sorted.sublist later))
    rwa [← cut] at grown

end GroupCount

namespace Mapping

/-- The cells of a row under properties. -/
def cellsOf (m : Mapping) (properties : List String) (row : Row) : Row :=
  properties.map (m.cellOf row)

variable {m : Mapping} {properties : List String} {row : Row}

theorem Holds.cells_sortable (holds : m.Holds row)
    (numbers : ∀ p ∈ properties, m.cellOf row p ≠ .of (.float64 .nan)) :
    (m.cellsOf properties row).Sortable (properties.map m.kindOf) := by
  unfold Row.Sortable cellsOf
  rw [List.forall₂_map_left_iff, List.forall₂_map_right_iff, List.forall₂_same]
  exact fun p hp => holds.sortable (numbers p hp)

theorem cellsOf_eq {places : List Nat} (placed : properties.mapM m.position = .ok places)
    (row : Row) : m.cellsOf properties row = places.map row.cell := by
  have each := Outcome.mapM_eq_ok.mp placed
  clear placed
  unfold cellsOf
  induction each with
  | nil => rfl
  | cons known _ ih => rw [List.map_cons, List.map_cons, ih, cellOf_eq known]

end Mapping

/-- One group for each combination of cells among the rows, with the number of rows that have it. -/
structure GroupCount.Partition (m : Mapping) (groupBy : List String) (rows : List Row)
    (groups : List GroupCount) : Prop where
  ordered : groups.Pairwise fun g h => g.values.Before h.values
  occurring : ∀ g ∈ groups, ∃ row ∈ rows, m.cellsOf groupBy row = g.values
  one : ∀ row ∈ rows, ∃! g, g ∈ groups ∧ g.values.Level (m.cellsOf groupBy row)
  counted : ∀ g ∈ groups, 1 ≤ g.count ∧
    g.count = rows.countP fun row => g.values.Level (m.cellsOf groupBy row)

/-- Sorting the keys of the rows lets their runs be the groups. -/
theorem GroupCount.partition_runs {m : Mapping} {groupBy : List String} {kinds : List Kind}
    {rows : List Row} (sortable : ∀ row ∈ rows, (m.cellsOf groupBy row).Sortable kinds)
    {groups : List GroupCount}
    (t : Tally (StableSort.sort Row.compareKeys (rows.map (m.cellsOf groupBy))) groups) :
    Partition m groupBy rows groups := by
  have ranks := Row.ranks_compareKeys kinds
  have occurring : ∀ g ∈ groups, ∃ row ∈ rows, m.cellsOf groupBy row = g.values := fun g hg =>
    List.mem_map.mp (StableSort.mem_sort.mp (t.occurring g hg))
  have fine : ∀ g ∈ groups, g.values.Sortable kinds := by
    intro g hg
    obtain ⟨row, hr, cells⟩ := occurring g hg
    exact cells ▸ sortable row hr
  refine ⟨?_, occurring, fun row hr => ?_, fun g hg => ?_⟩
  · exact t.ordered.imp_of_mem fun hg hh lt =>
      (Row.compareKeys_eq_lt (fine _ hg) (fine _ hh)).mp lt
  · obtain ⟨g, hg, tie⟩ :=
      t.covering _ (StableSort.mem_sort.mpr (List.mem_map_of_mem hr))
    refine ⟨g, ⟨hg, (Row.compareKeys_eq_eq (fine g hg) (sortable row hr)).mp tie⟩, ?_⟩
    rintro h ⟨hh, level⟩
    have same : Row.compareKeys g.values h.values = .eq :=
      ranks.tie_trans (fine g hg) (sortable row hr) (fine h hh) tie
        (ranks.eq_comm.mp ((Row.compareKeys_eq_eq (fine h hh) (sortable row hr)).mpr level))
    exact (t.eq_of_tie ranks hg hh same).symm
  · have count : g.count = rows.countP fun row => g.values.Level (m.cellsOf groupBy row) := by
      rw [t.counted g hg, (StableSort.sort_perm _).countP_eq, List.countP_map]
      refine List.countP_congr fun row hr => ?_
      simp [Row.compareKeys_eq_eq (fine g hg) (sortable row hr)]
    refine ⟨?_, count⟩
    obtain ⟨row, hr, cells⟩ := occurring g hg
    rw [count]
    refine List.countP_pos_iff.mpr ⟨row, hr, decide_eq_true ?_⟩
    rw [cells, ← Row.compareKeys_eq_eq (fine g hg) (fine g hg)]
    exact ranks.self _

namespace Criteria

variable {m : Mapping} {c : Criteria} {groupBy : List String}

/-- Counting by groups filters, sorts the cells, counts their runs and cuts. -/
theorem countGrouped_eq (checked : ∀ e ∈ c.expressions, e.check m = .ok ()) {places : List Nat}
    (placed : groupBy.mapM m.position = .ok places) (grouped : groupBy ≠ []) (rows : List Row) :
    c.countGrouped m groupBy rows = .ok (c.window.take (GroupCount.runs
      (StableSort.sort Row.compareKeys ((rows.filter (c.passes m)).map (m.cellsOf groupBy))))) := by
  have nonempty : places ≠ [] := by
    have := (Outcome.mapM_eq_ok.mp placed).length_eq
    cases groupBy <;> cases places <;> simp_all
  have cells : m.cellsOf groupBy = fun row => places.map row.cell :=
    funext (Mapping.cellsOf_eq placed)
  simp [countGrouped, placed, filter_eq checked, nonempty, cells]

/-- Counting by known properties shows a page of the groups, which are one for each combination of
cells that matches and together hold all rows that match. -/
theorem countGrouped_partition {rows : List Row} (valid : c.validate m = .ok ())
    (known : ∀ p ∈ groupBy, ∃ i, m.position p = .ok i) (grouped : groupBy ≠ [])
    (holds : ∀ row ∈ rows, m.Holds row)
    (numbers : ∀ p ∈ groupBy, ∀ row ∈ rows, m.cellOf row p ≠ .of (.float64 .nan)) :
    (∀ row ∈ rows, c.admits m row = .ok (c.passes m row)) ∧
    ∃ page groups : List GroupCount, c.countGrouped m groupBy rows = .ok page ∧
      GroupCount.Partition m groupBy (rows.filter (c.passes m)) groups ∧
      c.count m rows = .ok (groups.map (·.count)).sum ∧
      ∀ i, page[i]? = if c.window.limit.all (i < ·) then
        groups[c.window.start.getD 0 + i]? else none := by
  obtain ⟨checked, -⟩ := validate_eq_ok.mp valid
  obtain ⟨places, placed⟩ := Outcome.exists_mapM_eq_ok.mpr known
  refine ⟨fun row _ => admits_eq_passes checked row, ?_⟩
  let kept := rows.filter (c.passes m)
  have sortable : ∀ row ∈ kept, (m.cellsOf groupBy row).Sortable (groupBy.map m.kindOf) := by
    intro row hr
    have stored := List.mem_of_mem_filter hr
    exact (holds row stored).cells_sortable fun p hp => numbers p hp row stored
  have keys : ∀ k ∈ kept.map (m.cellsOf groupBy), k.Sortable (groupBy.map m.kindOf) :=
    List.forall_mem_map.mpr sortable
  have ranks := Row.ranks_compareKeys (groupBy.map m.kindOf)
  have tally := GroupCount.tally_runs ranks (fun k hk => keys k (StableSort.mem_sort.mp hk))
    (StableSort.sort_ascending ranks keys)
  refine ⟨_, _, countGrouped_eq checked placed grouped rows,
    GroupCount.partition_runs sortable tally, ?_, fun i => Window.getElem?_take ..⟩
  rw [count, filter_eq checked, tally.total, (StableSort.sort_perm _).length_eq, List.length_map]
  rfl

/-- Four parcels of one price and without weight, in several spellings, are one group. -/
theorem countGrouped_partition_parcels : ∃ page groups : List GroupCount,
    byPrice.countGrouped parcels ["price", "weight"] (sent ++ sent) = .ok page ∧
    page.map (fun g => (g.count, g.values)) =
      [(2, [.padded 0, .null none]), (4, [.padded 1, weightless false])] ∧
    GroupCount.Partition parcels ["price", "weight"]
      ((sent ++ sent).filter (byPrice.passes parcels)) groups ∧
    byPrice.count parcels (sent ++ sent) = .ok (groups.map (·.count)).sum ∧
    page[1]? = groups[2]? := by
  have valid : byPrice.validate parcels = .ok () := rfl
  have found : ∀ p ∈ ["price", "weight"], (parcels.position p).isOk = true := by decide +kernel
  have holds : ∀ row ∈ sent ++ sent, parcels.Holds row := by decide +kernel
  have numbers : ∀ p ∈ ["price", "weight"], ∀ row ∈ sent ++ sent,
      parcels.cellOf row p ≠ .of (.float64 .nan) := by decide +kernel
  obtain ⟨-, page, groups, counted, partition, total, shown⟩ := countGrouped_partition valid
    (fun p hp => Outcome.exists_ok_of_isOk (found p hp)) (by decide) holds numbers
  have ran : ((byPrice.countGrouped parcels ["price", "weight"] (sent ++ sent)).toOption.map
      fun page => page.map fun g => (g.count, g.values)) =
      some [(2, [.padded 0, .null none]), (4, [.padded 1, weightless false])] := by decide +kernel
  rw [counted] at ran
  exact ⟨page, groups, counted, Option.some.inj ran, partition, total, shown 1⟩

end Criteria
end DataAccess
