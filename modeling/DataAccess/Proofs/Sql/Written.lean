import DataAccess.Proofs.Criteria.Select
import DataAccess.Sql.Statement

/-! What can be evaluated can be written. -/
namespace DataAccess.Sql

variable {ctx : Context} {m : Mapping}

theorem expressionList_eq_ok {es : List Expression} {ps : List Pieces} :
    expressionList ctx m es = .ok ps ↔ es.mapM (expression ctx m) = .ok ps := by
  induction es generalizing ps with
  | nil => simp [expressionList]
  | cons e rest ih =>
    rw [expressionList, Outcome.mapM_cons]
    simp only [Outcome.bind_eq_ok, Outcome.pure_eq_ok, ih]
    constructor
    · intro h
      obtain ⟨p, hp, ps, hps, rfl⟩ := h
      exact ⟨p, ps, hp, hps, rfl⟩
    · intro h
      obtain ⟨p, ps, hp, hps, rfl⟩ := h
      exact ⟨p, hp, ps, hps, rfl⟩

theorem expression_written {e : Expression} (checked : e.check m = .ok ()) :
    ∃ ps, expression ctx m e = .ok ps := by
  induction e using Expression.byMembers with
  | test property clause positive =>
    obtain ⟨⟨found, hf⟩, hc⟩ := Expression.check_test.mp checked
    exact ⟨_, by simp [expression, hf, hc]; rfl⟩
  | group operator es orders window ih =>
    obtain ⟨hne, hes⟩ := Expression.check_group.mp checked
    obtain ⟨ps, hps⟩ := Outcome.exists_mapM_eq_ok.mpr fun e he => ih e he (hes e he)
    have hl := expressionList_eq_ok.mpr hps
    exact ⟨_, by simp [expression, hne, hl]; rfl⟩
  | raw clause params => exact ⟨_, rfl⟩

theorem filter_written {c : Criteria} (valid : ∀ e ∈ c.expressions, e.check m = .ok ()) :
    ∃ ps, filter ctx m c = .ok ps := by
  obtain ⟨ps, hps⟩ : ∃ ps, c.expressions.mapM (expression ctx m) = .ok ps :=
    Outcome.exists_mapM_eq_ok.mpr fun e he => expression_written (valid e he)
  exact ⟨_, by simp [filter, expressions, expressionList_eq_ok.mpr hps]; rfl⟩

theorem whereClause_written {c : Criteria} (valid : ∀ e ∈ c.expressions, e.check m = .ok ()) :
    ∃ ps, whereClause ctx m c = .ok ps := by
  obtain ⟨ps, hps⟩ : ∃ ps, filter (ctx.at .selectWhere) m c = .ok ps := filter_written valid
  unfold whereClause
  split
  · exact ⟨_, rfl⟩
  · exact ⟨_, by simp [hps]; rfl⟩

theorem sortKey_written {property : String} {direction : Direction} {i : Nat}
    (known : m.position property = .ok i) : ∃ ps, sortKey ctx m property direction = .ok ps := by
  obtain ⟨found, hf, -⟩ := Outcome.map_eq_ok.mp known
  have column : m.column property = .ok found.2 := by
    rw [Mapping.column, hf]
    rfl
  cases direction with
  | computed => exact ⟨_, rfl⟩
  | _ => exact ⟨_, by simp [sortKey, column]; rfl⟩

theorem orderBy_written {orders : List SortKey} {places : List (Nat × Direction)}
    (placed : SortKey.places m orders = .ok places) : ∃ ps, orderBy ctx m orders = .ok ps := by
  have each (k : SortKey) (hk : k ∈ orders) :
      ∃ ps, sortKey (ctx.at .selectOrderBy) m k.property k.direction = .ok ps := by
    obtain ⟨o, ho⟩ := Outcome.exists_mapM_eq_ok.mp ⟨places, placed⟩ k hk
    unfold SortKey.place at ho
    split at ho
    · simp at ho
    · obtain ⟨i, hi, -⟩ := Outcome.map_eq_ok.mp ho
      exact sortKey_written hi
  obtain ⟨ps, hps⟩ := Outcome.exists_mapM_eq_ok.mpr each
  exact ⟨_, by simp [orderBy, hps]; rfl⟩

/-- Criteria that can be evaluated have a text. -/
theorem select_written {d : Dialect} {c : Criteria} (valid : c.validate m = .ok ()) :
    ∃ ps, (Statement.select m c).pieces d = .ok ps := by
  obtain ⟨checked, places, placed⟩ := Criteria.validate_eq_ok.mp valid
  obtain ⟨filtered, hw⟩ : ∃ ps, whereClause (.plain .select) m c = .ok ps :=
    whereClause_written checked
  obtain ⟨ordered, ho⟩ : ∃ ps, orderBy (.plain .select) m c.orders = .ok ps :=
    orderBy_written placed
  exact ⟨_, by simp [Statement.pieces, select, fromWhere, hw, ho]; rfl⟩

end DataAccess.Sql
