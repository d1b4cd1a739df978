import DataAccess.Proofs.Criteria.Portable
import DataAccess.Proofs.Outcome
import DataAccess.Sql.Statement

/-!
Whether a statement can be written, and what it is refused for otherwise. Filters and sort keys are
refused for what the check before evaluation refuses them for, met in the same order.
-/
namespace DataAccess.Sql

open Outcome

variable {ctx : Context} {m : Mapping} {c : Criteria}

theorem expressionList_verdict {es : List Expression}
    (each : ∀ e ∈ es, verdict (expression ctx m e) = e.check m) :
    verdict (expressionList ctx m es) = Expression.checkAll m es := by
  induction es with
  | nil => rfl
  | cons e rest ih =>
    obtain ⟨first, others⟩ := List.forall_mem_cons.mp each
    rw [expressionList, Expression.checkAll, ← verdict_unit (e.check m >>= _)]
    refine verdict_bind_congr (by rw [first, verdict_unit]) fun _ _ _ _ => ?_
    rw [verdict_bind_pure, verdict_unit, ih others]

/-- An expression is refused for what its check refuses it for. -/
theorem expression_verdict {e : Expression} (rawFree : e.RawFree) :
    verdict (expression ctx m e) = e.check m := by
  induction e using Expression.byMembers with
  | test property clause positive =>
    rw [expression, Expression.check, ← verdict_unit (m.find property >>= _)]
    refine verdict_bind_congr rfl fun found _ _ _ => ?_
    obtain ⟨i, column⟩ := found
    exact (verdict_bind_pure ..).trans rfl
  | group operator es orders window ih =>
    rw [expression, Expression.check]
    split
    · rfl
    · rw [verdict_bind_pure]
      exact expressionList_verdict fun e he => ih e he (rawFree.member e he)
  | raw clause params => exact absurd rawFree (Expression.not_rawFree_raw clause params)

theorem filter_verdict (rawFree : c.RawFree) :
    verdict (filter ctx m c) = Expression.checkAll m c.expressions := by
  rw [filter, expressions, verdict_bind_pure]
  exact expressionList_verdict fun e he => expression_verdict (rawFree e he)

theorem whereClause_verdict (rawFree : c.RawFree) :
    verdict (whereClause ctx m c) = Expression.checkAll m c.expressions := by
  unfold whereClause
  split
  · rename_i empty
    rw [List.isEmpty_iff.mp empty]
    rfl
  · rw [verdict_bind_pure]
    exact filter_verdict rawFree

/-- A sort key is refused where it has no place. -/
theorem sortKey_verdict {k : SortKey} (uncomputed : k.direction ≠ .computed) :
    verdict (sortKey ctx m k.property k.direction) = verdict (k.place m) := by
  obtain ⟨property, direction⟩ := k
  cases direction with
  | computed => exact absurd rfl uncomputed
  | _ =>
    rw [sortKey, SortKey.place, verdict_bind_pure, verdict_map, Mapping.column, verdict_map,
      Mapping.position, verdict_map]
    · simp

theorem orderBy_verdict {orders : List SortKey}
    (uncomputed : ∀ k ∈ orders, k.direction ≠ .computed) :
    verdict (orderBy ctx m orders) = verdict (SortKey.places m orders) := by
  rw [orderBy, verdict_bind_pure, SortKey.places]
  exact verdict_mapM_congr fun k hk => sortKey_verdict (uncomputed k hk)

theorem fromWhere_verdict (d : Dialect) (rawFree : c.RawFree) :
    verdict (fromWhere d m c) = Expression.checkAll m c.expressions := by
  rw [fromWhere, verdict_bind_pure, whereClause_verdict rawFree]

/-- Counting asks nothing of sort keys. -/
theorem count_verdict (d : Dialect) (rawFree : c.RawFree) :
    verdict ((Statement.count m c).pieces d) = Expression.checkAll m c.expressions := by
  rw [Statement.pieces, count, verdict_bind_pure]
  exact fromWhere_verdict d rawFree

theorem countGrouped_verdict (d : Dialect) (rawFree : c.RawFree) {groupBy : List String}
    (known : ∀ p ∈ groupBy, ∃ i, m.position p = .ok i) :
    verdict ((Statement.countGrouped m c groupBy).pieces d) =
      Expression.checkAll m c.expressions := by
  have each (p : String) (hp : p ∈ groupBy) : ∃ column, m.column p = .ok column := by
    obtain ⟨i, hi⟩ := known p hp
    obtain ⟨found, hf, -⟩ := Outcome.map_eq_ok.mp hi
    exact ⟨found.2, Outcome.map_eq_ok.mpr ⟨found, hf, rfl⟩⟩
  obtain ⟨columns, hc⟩ := Outcome.exists_mapM_eq_ok.mpr each
  rw [Statement.pieces, countGrouped, hc]
  exact (verdict_bind_pure ..).trans (fromWhere_verdict d rawFree)

theorem delete_verdict (d : Dialect) (rawFree : c.RawFree) (nonempty : c.isEmpty = false) :
    verdict ((Statement.delete m c).pieces d) = Expression.checkAll m c.expressions := by
  rw [Statement.pieces, delete, nonempty]
  exact (verdict_bind_pure ..).trans (whereClause_verdict rawFree)

theorem update_verdict (d : Dialect) (rawFree : c.RawFree) (nonempty : c.isEmpty = false)
    {values : Assignments} (assigned : values ≠ [])
    (known : ∀ a ∈ values, ∃ found, m.find a.1 = .ok found) :
    verdict ((Statement.update m c values).pieces d) = Expression.checkAll m c.expressions := by
  have each (a : String × Value) (ha : a ∈ values) : ∃ ps, assignment m a = .ok ps := by
    obtain ⟨found, hf⟩ := known a ha
    have column : m.column a.1 = .ok found.2 := Outcome.map_eq_ok.mpr ⟨found, hf, rfl⟩
    rw [assignment, column]
    exact ⟨_, rfl⟩
  obtain ⟨assignments, ha⟩ := Outcome.exists_mapM_eq_ok.mpr each
  have some : values.isEmpty = false := by simpa using assigned
  rw [Statement.pieces, update, nonempty, some, ha]
  exact (verdict_bind_pure ..).trans (whereClause_verdict rawFree)

/-- Without criteria no delete is written. -/
theorem delete_eq_ok {d : Dialect} {ps : Pieces} : delete d m c = .ok ps ↔
    c.isEmpty = false ∧ ∃ ws, whereClause (.plain .deleteFromWhere) m c = .ok ws ∧
      .text "DELETE FROM " :: tableRef d (.plain .deleteFrom) m.table ++ ws ++
        [.text ";"] = ps := by
  rw [delete, guarded_eq_ok, Bool.not_eq_true]
  simp only [bind_eq_ok, pure_eq_ok]

/-- An update says which rows are meant and what they are given. -/
theorem update_eq_ok {d : Dialect} {values : Assignments} {ps : Pieces} :
    update d m c values = .ok ps ↔ c.isEmpty = false ∧ values ≠ [] ∧
      ∃ assignments, values.mapM (assignment m) = .ok assignments ∧
      ∃ ws, whereClause (.plain .updateWhere) m c = .ok ws ∧
        .text "UPDATE " :: tableRef d (.plain .update) m.table ++
          .text " SET " :: separated ", " assignments ++ ws ++ [.text ";"] = ps := by
  rw [update, guarded_eq_ok, guarded_eq_ok, Bool.not_eq_true, List.isEmpty_iff]
  simp only [bind_eq_ok, pure_eq_ok, ne_eq]

/-- A select can be written exactly where its criteria can be evaluated, and is refused for the
same reason otherwise. -/
theorem select_verdict (d : Dialect) (portable : c.Portable) :
    verdict ((Statement.select m c).pieces d) = c.validate m := by
  rw [Statement.pieces, select, Criteria.validate, ← verdict_unit (Expression.checkAll .. >>= _)]
  refine verdict_bind_congr ?_ fun _ _ _ _ => ?_
  · rw [fromWhere_verdict d portable.rawFree, verdict_unit]
  · rw [verdict_bind_pure, verdict_bind_pure]
    exact orderBy_verdict portable.uncomputed

def ledger : Mapping :=
  ⟨⟨"bank", "ledger"⟩, [.key "id" "id" .int64, .optional "note" "note" .varchar]⟩

/-- An empty list two groups down, before unknown properties, an empty group and an unknown key. -/
def severalFaults : Criteria :=
  ⟨.or, [.group .and [.test "id" (.greater (.of (.int64 1))) true,
      .group .or [.test "note" (.inList []) false] [⟨"gone", .computed⟩] .all] [] .all,
    .test "gone" (.greater (.null none)) true, .group .and [] [] .all],
    [⟨"gone", .descending⟩], ⟨some 1, none⟩⟩

/-- The list is what both are refused for. -/
theorem select_verdict_severalFaults : severalFaults.Portable ∧
    verdict ((Statement.select ledger severalFaults).pieces .sqlite) =
      severalFaults.validate ledger ∧
    severalFaults.validate ledger = .error (.emptyInList "note") := by
  have portable : severalFaults.Portable := by decide
  exact ⟨portable, select_verdict .sqlite portable, rfl⟩

end DataAccess.Sql
