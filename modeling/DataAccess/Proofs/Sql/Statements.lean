import DataAccess.Proofs.Sql.JoinBody
import DataAccess.Proofs.Sql.Laid
import DataAccess.Proofs.Sql.Verdict
import DataAccess.Query

/-!
The text of every statement: names stay within their quotes, parentheses are balanced and each
placeholder has a parameter, whatever names tables and columns have.
-/
namespace DataAccess

namespace Mapping

/-- What the mapping has names for. -/
def names (m : Mapping) : List String := m.table.schema :: m.table.name :: m.labels

variable {m : Mapping} {names : List String}

theorem labels_subset (covers : m.names ⊆ names) : m.labels ⊆ names := by
  intro label mem
  exact covers (List.mem_cons_of_mem _ (List.mem_cons_of_mem _ mem))

theorem label_mem (covers : m.names ⊆ names) {c : Column} (mem : c ∈ m.columns) :
    c.name ∈ names :=
  labels_subset covers (List.mem_map_of_mem mem)

end Mapping

/-- Neither raw clauses in its filters nor computed sort keys. -/
structure JoinCriteria.Portable (c : JoinCriteria) : Prop where
  rawFree : ∀ side, ∀ f ∈ c.filter? side, f.RawFree
  uncomputed : ∀ k ∈ c.orders, k.direction ≠ .computed

namespace Sql

/-- The names of the columns of a join, each under the name of its side. -/
def Pair.labels (p : Pair) : List String :=
  (p.left.labels.map (leftAlias ++ "_" ++ ·)) ++ p.right.labels.map (rightAlias ++ "_" ++ ·)

end Sql

namespace Statement

/-- The names that a text may have: those of its tables and columns, and the names given to what
is selected. -/
def names : Statement → List String
  | .createTable m _ | .dropTable m _ | .insert m _ | .update m _ _ | .delete m _ | .deleteAll m
  | .select m _ | .count m _ => m.names
  | .countGrouped m _ groupBy =>
    m.names ++ Sql.countLabel :: (List.range groupBy.length).map Sql.groupLabel
  | .join p _ => p.left.names ++ p.right.names ++ p.labels
  | .joinCount p _ => p.left.names ++ p.right.names

/-- No text of the caller's own is written. -/
def Portable : Statement → Prop
  | .select _ c => c.Portable
  | .update _ c _ | .delete _ c | .count _ c | .countGrouped _ c _ => c.RawFree
  | .join _ c | .joinCount _ c => c.Portable
  | .createTable .. | .dropTable .. | .insert .. | .deleteAll _ => True

end Statement

namespace Sql

variable {names : List String} {m : Mapping} {d : Dialect} {ps : Pieces} {c : Criteria}
  {ctx : Context}

theorem tableRef_lays (d : Dialect) (known : ctx.qualifier ∈ qualifiers)
    (covers : m.names ⊆ names) : Lays names 0 0 (tableRef d ctx m.table) := by
  have schema : m.table.schema ∈ names := covers (by simp [Mapping.names])
  have table : m.table.name ∈ names := covers (by simp [Mapping.names])
  have named : Seals names 0 0 (if d.declaresAlias ctx.part ∧ ctx.qualifier ≠ "" then
      [.text (" AS " ++ ctx.qualifier)] else []) := by
    split
    · simp only [qualifiers, List.mem_cons, List.not_mem_nil, or_false] at known
      rcases known with h | h | h <;> rw [h] <;> exact .text rfl .nil
    · exact .nil
  unfold tableRef
  split
  · exact .name table named
  · exact .name schema (.text rfl (.name table named))

theorem labels_lay (covers : m.names ⊆ names) {cols : List Column} (known : cols ⊆ m.columns) :
    Lays names 0 0 (separated ", " (cols.map fun c => [.name c.name])) := by
  refine separated_lays (by rfl) fun ps hps => ?_
  obtain ⟨col, mem, rfl⟩ := List.mem_map.mp hps
  exact .name (Mapping.label_mem covers (known mem)) .nil

theorem createTable_lays (covers : m.names ⊆ names) (ifNotExists : Bool) :
    Lays names 0 0 (createTable d m ifNotExists) := by
  have ref := tableRef_lays d (plain_known .createTable) covers
  have keys : Lays names 0 0 (separated ", "
      ((m.columns.filter (·.primaryKey)).map fun c => [.name c.name])) :=
    labels_lay covers (List.filter_subset_self _)
  have key : Seals names 1 1 (if 1 < (m.columns.filter (·.primaryKey)).length then
      .text ",\nPRIMARY KEY (" :: (separated ", " ((m.columns.filter (·.primaryKey)).map
        fun c => [.name c.name]) ++ [.text ")"]) else []) := by
    split
    · exact .text rfl ((keys.within 2).append (.text rfl .nil))
    · exact .nil
  have column (p : Column → Prop) [DecidablePred p] : Lays names 0 0 (separated ",\n"
      (m.columns.map fun col => .name col.name :: .text " " :: .kind col.kind :: if p col then
        [.text " PRIMARY KEY"] else if col.nullable then [] else [.text " NOT NULL"])) := by
    refine separated_lays (by rfl) fun ps hps => ?_
    obtain ⟨col, mem, rfl⟩ := List.mem_map.mp hps
    refine .name (Mapping.label_mem covers mem) (.text rfl (.kind _ ?_))
    split
    · exact .text rfl .nil
    · split
      · exact .nil
      · exact .text rfl .nil
  unfold createTable
  simp only [List.append_assoc, List.cons_append, List.nil_append]
  cases ifNotExists <;> exact .text rfl (ref.append (.text rfl
    (((column _).within 1).append (key.append (.text rfl .nil)))))

theorem dropTable_lays (covers : m.names ⊆ names) (ifExists : Bool) :
    Lays names 0 0 (dropTable d m ifExists) := by
  have ref := tableRef_lays d (plain_known .dropTable) covers
  cases ifExists <;> exact .append (.text rfl ref) (.text rfl .nil)

theorem insert_lays (covers : m.names ⊆ names) {row : Row}
    (written : insert d m row = .ok ps) : Lays names 0 0 ps := by
  have ref := tableRef_lays d (plain_known .insertInto) covers
  have labels : Lays names 0 0 (separated ", " (m.columns.map fun c => [.name c.name])) :=
    labels_lay covers (List.Subset.refl _)
  have values : Lays names 0 0 (separated ", " (row.map fun v => [.parameter v])) :=
    parameters_lay row
  unfold insert at written
  split at written
  · cases written
  · obtain rfl := Except.ok.inj written
    simp only [List.append_assoc, List.cons_append]
    exact .text rfl (ref.append (.text rfl ((labels.within 1).append
      (.text rfl ((values.within 1).append (.text rfl .nil))))))

theorem assignment_lays (covers : m.names ⊆ names) {a : String × Value}
    (written : assignment m a = .ok ps) : Lays names 0 0 ps := by
  obtain ⟨col, found, h⟩ := Outcome.bind_eq_ok.mp written
  obtain rfl := Outcome.pure_eq_ok.mp h
  exact .name (Mapping.label_mem covers (column_mem found)) (.text rfl (.parameter _ .nil))

theorem update_lays (covers : m.names ⊆ names) (rawFree : c.RawFree) {values : Assignments}
    (written : update d m c values = .ok ps) : Lays names 0 0 ps := by
  obtain ⟨-, -, assignments, each, ws, hws, rfl⟩ := update_eq_ok.mp written
  have ref := tableRef_lays d (plain_known .update) covers
  have assigned : Lays names 0 0 (separated ", " assignments) := by
    refine separated_lays (by rfl) fun ps hps => ?_
    obtain ⟨a, -, h⟩ := Outcome.mem_of_mapM_eq_ok each hps
    exact assignment_lays covers h
  have filtered := whereClause_seals (Mapping.labels_subset covers) rawFree hws
  exact .append (.append (.append (.text rfl ref) (.text rfl assigned)) filtered) (.text rfl .nil)

theorem delete_lays (covers : m.names ⊆ names) (rawFree : c.RawFree)
    (written : delete d m c = .ok ps) : Lays names 0 0 ps := by
  obtain ⟨-, ws, hws, rfl⟩ := delete_eq_ok.mp written
  have ref := tableRef_lays d (plain_known .deleteFrom) covers
  have filtered := whereClause_seals (Mapping.labels_subset covers) rawFree hws
  exact .append (.append (.text rfl ref) filtered) (.text rfl .nil)

theorem deleteAll_lays (covers : m.names ⊆ names) : Lays names 0 0 (deleteAll d m) :=
  .append (.text rfl (tableRef_lays d (plain_known .deleteFrom) covers)) (.text rfl .nil)

theorem fromWhere_seals (covers : m.names ⊆ names) (rawFree : c.RawFree)
    (written : fromWhere d m c = .ok ps) : Seals names 0 0 ps := by
  have ref := tableRef_lays d (plain_known .selectFrom) covers
  obtain ⟨ws, hws, h⟩ := Outcome.bind_eq_ok.mp written
  obtain rfl := Outcome.pure_eq_ok.mp h
  exact .append (.text rfl ref) (whereClause_seals (Mapping.labels_subset covers) rawFree hws)

theorem Seals.window (plain : d.Plain) (w : Window) :
    Seals names 0 0 [.text (d.window w), .text ";"] := by
  have last : Seals names 0 0 [.text ";"] := .text rfl .nil
  intro free n
  obtain ⟨free', h⟩ := last (free || !(d.window w).toList.isEmpty) n
  exact ⟨free', Option.bind_eq_some_iff.mpr ⟨_, Seam.text_of_inert (plain.window w) _, h⟩⟩

theorem select_lays (plain : d.Plain) (covers : m.names ⊆ names) (portable : c.Portable)
    (written : select d m c = .ok ps) : Lays names 0 0 ps := by
  obtain ⟨fs, hfs, h⟩ := Outcome.bind_eq_ok.mp written
  obtain ⟨os, hos, h⟩ := Outcome.bind_eq_ok.mp h
  obtain rfl := Outcome.pure_eq_ok.mp h
  have filtered := fromWhere_seals covers portable.rawFree hfs
  have ordered := orderBy_seals (Mapping.labels_subset covers) portable.uncomputed hos
  exact .append (.append (.text rfl filtered.lays) ordered) (.window plain c.window)

theorem count_lays (covers : m.names ⊆ names) (rawFree : c.RawFree)
    (written : count d m c = .ok ps) : Lays names 0 0 ps := by
  obtain ⟨fs, hfs, h⟩ := Outcome.bind_eq_ok.mp written
  obtain rfl := Outcome.pure_eq_ok.mp h
  exact .append (.text rfl (fromWhere_seals covers rawFree hfs).lays) (.text rfl .nil)

/-- The cells of groups, each followed by what is selected next. -/
theorem shown_lays {columns : List (Column × Nat)} {rest : Pieces} (h : Lays names 0 0 rest)
    (each : ∀ p ∈ columns, p.1.name ∈ names ∧ groupLabel p.2 ∈ names) :
    Lays names 0 0 (columns.flatMap (fun p => column (.plain .select) p.1 ++
      [.columnAlias (groupLabel p.2), .text ", "]) ++ rest) := by
  induction columns with
  | nil => exact h
  | cons p columns ih =>
    obtain ⟨⟨named, labelled⟩, others⟩ := List.forall_mem_cons.mp each
    simp only [List.flatMap_cons, List.append_assoc, List.cons_append, List.nil_append]
    exact (column_lays (plain_known .select) named).append
      (.columnAlias labelled (.text rfl (ih others)))

theorem countGrouped_lays (plain : d.Plain) (covers : m.names ⊆ names) (rawFree : c.RawFree)
    {groupBy : List String} (counted : countLabel ∈ names)
    (labelled : ∀ i < groupBy.length, groupLabel i ∈ names)
    (written : countGrouped d m c groupBy = .ok ps) : Lays names 0 0 ps := by
  obtain ⟨columns, hcs, h⟩ := Outcome.bind_eq_ok.mp written
  obtain ⟨fs, hfs, h⟩ := Outcome.bind_eq_ok.mp h
  obtain rfl := Outcome.pure_eq_ok.mp h
  have named (col : Column) (mem : col ∈ columns) : col.name ∈ names := by
    obtain ⟨property, -, found⟩ := Outcome.mem_of_mapM_eq_ok hcs mem
    exact Mapping.label_mem covers (column_mem found)
  have each (p : Column × Nat) (mem : p ∈ columns.zipIdx) :
      p.1.name ∈ names ∧ groupLabel p.2 ∈ names := by
    have there := List.mem_zipIdx_iff_getElem?.mp mem
    obtain ⟨inside, -⟩ := List.getElem?_eq_some_iff.mp there
    have length := (Outcome.mapM_eq_ok.mp hcs).length_eq
    exact ⟨named p.1 (List.mem_of_getElem? there), labelled p.2 (length ▸ inside)⟩
  have listed : Lays names 0 0 (separated ", " (columns.map (column (.plain .selectGroupBy)))) := by
    refine separated_lays (by rfl) fun ps hps => ?_
    obtain ⟨col, mem, rfl⟩ := List.mem_map.mp hps
    exact column_lays (plain_known .selectGroupBy) (named col mem)
  have grouped : Seals names 0 0 (if columns.isEmpty then [] else .text "\nGROUP BY " ::
      separated ", " (columns.map (column (.plain .selectGroupBy))) ++ .text "\nORDER BY " ::
      separated ", " (columns.map (column (.plain .selectGroupBy)))) := by
    split
    · exact .nil
    · exact .append (.text rfl listed) (.text rfl listed)
  have filtered := fromWhere_seals covers rawFree hfs
  simp only [List.append_assoc, List.cons_append, List.nil_append]
  exact .text rfl (shown_lays (.text rfl (Seals.columnAlias counted
    (filtered.append (grouped.append (.window plain c.window)))).lays) each)

theorem joinSource_lays (side : Side) (covers : m.names ⊆ names) {filter? : Option Criteria}
    (rawFree : ∀ f ∈ filter?, f.RawFree)
    (written : joinSource d (.plain .join) m (aliasOf side) filter? = .ok ps) :
    Lays names 0 0 ps := by
  cases filter? with
  | none =>
    obtain rfl := Except.ok.inj written
    exact tableRef_lays d (qualified_mem _ side) covers
  | some f =>
    obtain ⟨fs, hfs, h⟩ := Outcome.bind_eq_ok.mp written
    obtain rfl := Outcome.pure_eq_ok.mp h
    have ref := tableRef_lays d (plain_known .select) covers
    have filtered := filter_lays (plain_known .selectWhere) (Mapping.labels_subset covers)
      (rawFree f rfl) hfs
    simp only [List.append_assoc, List.cons_append]
    cases side <;> exact .text rfl ((ref.within 1).append (.text rfl
      ((filtered.within 1).append (.text rfl .nil))))

section Join

variable {p : Pair} {j : JoinCriteria}

theorem joinExpression_seals (covers : ∀ side, (p.mapping side).names ⊆ names)
    {e : JoinExpression} (written : joinExpression ctx p e = .ok ps) : Seals names 0 0 ps := by
  obtain ⟨l, hl, h⟩ := Outcome.bind_eq_ok.mp written
  obtain ⟨r, hr, h⟩ := Outcome.bind_eq_ok.mp h
  obtain rfl := Outcome.pure_eq_ok.mp h
  have left : Lays names 0 0 (column (ctx.qualified leftAlias) l) :=
    column_lays (qualified_mem ctx .left) (Mapping.label_mem (covers .left) (column_mem hl))
  have right : Lays names 0 0 (column (ctx.qualified rightAlias) r) :=
    column_lays (qualified_mem ctx .right) (Mapping.label_mem (covers .right) (column_mem hr))
  have between : Spans 0 0 (relation e.relation e.positive) := by
    cases e.relation <;> cases e.positive <;> rfl
  exact (left.append (.text between right)).parenthesized

theorem sideFilter_lays (covers : ∀ side, (p.mapping side).names ⊆ names) {grouped : Bool}
    {side : Side} (rawFree : c.RawFree) (written : sideFilter ctx p grouped side c = .ok ps) :
    Lays names 0 0 ps := by
  obtain ⟨fs, hfs, h⟩ := Outcome.bind_eq_ok.mp written
  obtain rfl := Outcome.pure_eq_ok.mp h
  exact (filter_lays (qualified_mem ctx side) (Mapping.labels_subset (covers side)) rawFree
    hfs).parenthesizedIf _

theorem behindOn_seals (covers : ∀ side, (p.mapping side).names ⊆ names)
    {filter : Option (Side × Criteria)} (rawFree : ∀ s ∈ filter, s.2.RawFree)
    (written : behindOn ctx p filter = .ok ps) : Seals names 0 0 ps := by
  cases filter with
  | none =>
    obtain rfl := Outcome.pure_eq_ok.mp written
    exact .nil
  | some s =>
    obtain ⟨fs, hfs, h⟩ := Outcome.bind_eq_ok.mp written
    obtain rfl := Outcome.pure_eq_ok.mp h
    exact .text rfl (sideFilter_lays covers (rawFree s rfl) hfs)

theorem behindWhere_seals {fs : List Pieces} (each : ∀ ps ∈ fs, Lays names 0 0 ps) :
    Seals names 0 0 (behindWhere fs) := by
  unfold behindWhere
  split
  · exact .nil
  · exact .text rfl (separated_lays (by rfl) each)

theorem joinColumns_lays (labels : p.labels ⊆ names)
    (covers : ∀ side, (p.mapping side).names ⊆ names) : Lays names 0 0 (joinColumns p) := by
  have each (side : Side) (col : Column) (mem : col ∈ (p.mapping side).columns) :
      Lays names 0 0 (column ⟨.select, aliasOf side⟩ col ++
        [.columnAlias (aliasOf side ++ "_" ++ col.name)]) := by
    have labelled : aliasOf side ++ "_" ++ col.name ∈ names := by
      refine labels ?_
      have label : col.name ∈ (p.mapping side).labels := List.mem_map_of_mem mem
      cases side with
      | left => exact List.mem_append_left _ (List.mem_map_of_mem label)
      | right => exact List.mem_append_right _ (List.mem_map_of_mem label)
    exact (column_lays (qualified_mem (.plain .select) side)
      (Mapping.label_mem (covers side) mem)).append (.columnAlias labelled .nil)
  refine separated_lays (by rfl) fun ps hps => ?_
  obtain hps | hps := List.mem_append.mp hps
  · obtain ⟨col, mem, rfl⟩ := List.mem_map.mp hps
    exact each .left col mem
  · obtain ⟨col, mem, rfl⟩ := List.mem_map.mp hps
    exact each .right col mem

theorem joinOrderBy_seals (covers : ∀ side, (p.mapping side).names ⊆ names)
    {orders : List JoinSortKey} (uncomputed : ∀ k ∈ orders, k.direction ≠ .computed)
    (written : joinOrderBy p orders = .ok ps) : Seals names 0 0 ps :=
  orderedBy_seals (fun k hk _ hkey => sortKey_lays (qualified_mem (.plain .selectOrderBy) k.side)
    (Mapping.labels_subset (covers k.side)) (uncomputed k hk) hkey) written

/-- The parts of a text that has been written. -/
theorem joinBody_parts (written : joinBody d p j = .ok ps) : ∃ lps rps preds ofs wfs,
    joinSource d (.plain .join) p.left (aliasOf .left) (j.sourceFilter? .left) = .ok lps ∧
    joinSource d (.plain .join) p.right (aliasOf .right) (j.sourceFilter? .right) = .ok rps ∧
    j.expressions.mapM (joinExpression ((Context.plain .join).at .joinOn) p) = .ok preds ∧
    behindOn ((Context.plain .join).at .joinOn) p j.onFilter? = .ok ofs ∧
    (j.whereFilters.mapM fun (side, f) => sideFilter ((Context.plain .join).at .selectWhere) p
      (decide (1 < j.whereFilters.length)) side f) = .ok wfs ∧
    ps = .text "\nFROM " :: lps ++ .text ("\n" ++ joinKeyword d j.kind ++ " ") :: rps ++
      .text " ON " :: (conjoined j.operator preds).parenthesizedIf
        (j.onFilter?.isSome && decide (1 < j.expressions.length)) ++ ofs ++ behindWhere wfs := by
  have whole := written
  unfold joinBody at written
  obtain ⟨_, valid, h⟩ := Outcome.bind_eq_ok.mp written
  obtain ⟨lps, left, h⟩ := Outcome.bind_eq_ok.mp h
  obtain ⟨rps, right, h⟩ := Outcome.bind_eq_ok.mp h
  obtain ⟨preds, predicates, h⟩ := Outcome.bind_eq_ok.mp h
  obtain ⟨ofs, wfs, on, filters⟩ : ∃ ofs wfs,
      behindOn ((Context.plain .join).at .joinOn) p j.onFilter? = .ok ofs ∧
      (j.whereFilters.mapM fun (side, f) => sideFilter ((Context.plain .join).at .selectWhere) p
        (decide (1 < j.whereFilters.length)) side f) = .ok wfs := by
    unfold JoinCriteria.onFilter?
    generalize ((onSide? j.kind).bind fun side => (j.filter? side).map (side, ·)) = filter at h ⊢
    cases filter with
    | none =>
      obtain ⟨ofs, hofs, h⟩ := Outcome.bind_eq_ok.mp h
      obtain ⟨wfs, hwfs, -⟩ := Outcome.bind_eq_ok.mp h
      exact ⟨ofs, wfs, hofs, hwfs⟩
    | some s =>
      obtain ⟨fs, hfs, h⟩ := Outcome.bind_eq_ok.mp h
      obtain ⟨ofs, hofs, h⟩ := Outcome.bind_eq_ok.mp h
      obtain ⟨wfs, hwfs, -⟩ := Outcome.bind_eq_ok.mp h
      exact ⟨ofs, wfs, Outcome.bind_eq_ok.mpr ⟨fs, hfs, hofs⟩, hwfs⟩
  have parts := joinBody_eq valid left right predicates on filters
  exact ⟨lps, rps, preds, ofs, wfs, left, right, predicates, on, filters,
    Except.ok.inj (whole.symm.trans parts)⟩

theorem joinBody_seals (common : d.Common) (covers : ∀ side, (p.mapping side).names ⊆ names)
    (rawFree : ∀ side, ∀ f ∈ j.filter? side, f.RawFree) (written : joinBody d p j = .ok ps) :
    Seals names 0 0 ps := by
  obtain ⟨lps, rps, preds, ofs, wfs, left, right, predicates, on, filters, rfl⟩ :=
    joinBody_parts written
  have left := joinSource_lays .left (covers .left)
    (fun f hf => rawFree .left f (JoinCriteria.filter?_of_sourceFilter? hf)) left
  have right := joinSource_lays .right (covers .right)
    (fun f hf => rawFree .right f (JoinCriteria.filter?_of_sourceFilter? hf)) right
  have keyword : Spans 0 0 ("\n" ++ joinKeyword d j.kind ++ " ") := by
    cases j.kind <;> simp only [joinKeyword, common.fullJoin] <;> rfl
  have predicates := conjoined_lays j.operator fun ps hps => by
    obtain ⟨e, -, h⟩ := Outcome.mem_of_mapM_eq_ok predicates hps
    exact (joinExpression_seals covers h).lays
  have on := behindOn_seals covers
    (fun s hs => rawFree s.1 s.2 (JoinCriteria.filter?_of_onFilter? hs)) on
  have filters := behindWhere_seals fun ps hps => by
    obtain ⟨s, hs, h⟩ := Outcome.mem_of_mapM_eq_ok filters hps
    exact sideFilter_lays covers (rawFree s.1 s.2 (JoinCriteria.filter?_of_whereFilters hs)) h
  exact .append (.append (.append (.append (.text rfl left) (.text keyword right))
    (.text rfl (predicates.parenthesizedIf _))) on) filters

theorem joinSelect_lays (plain : d.Plain) (labels : p.labels ⊆ names)
    (covers : ∀ side, (p.mapping side).names ⊆ names) (portable : j.Portable)
    (written : joinSelect d p j = .ok ps) : Lays names 0 0 ps := by
  obtain ⟨body, hbody, h⟩ := Outcome.bind_eq_ok.mp written
  obtain ⟨os, hos, h⟩ := Outcome.bind_eq_ok.mp h
  obtain rfl := Outcome.pure_eq_ok.mp h
  have columns := joinColumns_lays labels covers
  have body := joinBody_seals plain.toCommon covers portable.rawFree hbody
  have ordered := joinOrderBy_seals covers portable.uncomputed hos
  exact .append (.append (.append (.text rfl columns) body) ordered) (.window plain j.window)

theorem joinCount_lays (plain : d.Plain) (covers : ∀ side, (p.mapping side).names ⊆ names)
    (portable : j.Portable) (written : joinCount d p j = .ok ps) : Lays names 0 0 ps := by
  obtain ⟨body, hbody, h⟩ := Outcome.bind_eq_ok.mp written
  obtain rfl := Outcome.pure_eq_ok.mp h
  have body := joinBody_seals plain.toCommon covers portable.rawFree hbody
  exact .append (.text rfl body.lays) (.text rfl .nil)

end Join

/-- Whatever the statement is, its pieces stay in order. -/
theorem statement_lays (plain : d.Plain) {st : Statement} (portable : st.Portable)
    (written : st.pieces d = .ok ps) : Lays st.names 0 0 ps := by
  have self {m : Mapping} : m.names ⊆ m.names := List.Subset.refl _
  have sides {p : Pair} (side : Side) :
      (p.mapping side).names ⊆ p.left.names ++ p.right.names := by
    cases side <;> simp [Pair.mapping]
  cases st with
  | createTable m ifNotExists =>
    obtain rfl := Except.ok.inj written
    exact createTable_lays self ifNotExists
  | dropTable m ifExists =>
    obtain rfl := Except.ok.inj written
    exact dropTable_lays self ifExists
  | insert m row => exact insert_lays self written
  | update m c values => exact update_lays self portable written
  | delete m c => exact delete_lays self portable written
  | deleteAll m =>
    obtain rfl := Except.ok.inj written
    exact deleteAll_lays self
  | select m c => exact select_lays plain self portable written
  | count m c => exact count_lays self portable written
  | countGrouped m c groupBy =>
    refine countGrouped_lays plain (List.subset_append_left ..) portable ?_ ?_ written
    · simp [Statement.names]
    · intro i inside
      simp only [Statement.names, List.mem_append, List.mem_cons, List.mem_map, List.mem_range]
      exact .inr (.inr ⟨i, inside, rfl⟩)
  | join p c =>
    exact joinSelect_lays plain (List.subset_append_right ..)
      (fun side => List.subset_append_of_subset_left _ (sides side)) portable written
  | joinCount p c => exact joinCount_lays plain sides portable written

end Sql

/-- Whatever is compiled, in either dialect: no name reaches beyond its quotes, all names are those
of the statement, parentheses are balanced, and there are as many placeholders as parameters. -/
theorem Query.compile_contained {d : Sql.Dialect} (dialect : d = .generic ∨ d = .sqlite)
    {st : Statement} (portable : st.Portable) {shape : Shape} {q : Query}
    (compiled : (blank shape).compile d st = .ok q) :
    Sql.Contained st.names q.text q.params := by
  have plain : d.Plain := by
    obtain rfl | rfl := dialect
    · exact Sql.Dialect.plain_generic
    · exact Sql.Dialect.plain_sqlite
  obtain ⟨ps, written, h⟩ := Outcome.bind_eq_ok.mp compiled
  obtain rfl := Outcome.pure_eq_ok.mp h
  obtain ⟨free, walked⟩ := Sql.statement_lays plain portable written 0
  have text : (blank shape).text ++ d.write ps = d.write ps := String.empty_append
  have params : (blank shape).params ++ ps.params = ps.params := List.nil_append _
  simp only [text, params]
  exact Sql.contained_write plain walked

/-- Names that look like ends of names, parentheses and placeholders. -/
def crooked : Sql.Pair :=
  ⟨⟨⟨"a\"b", "c?"⟩, [.key "id" "(\"" .int32, .optional "note" "?)" .varchar]⟩,
    ⟨⟨"", "\"\""⟩, [.key "key" "" .int32, .optional "text" " AS \"x" .varchar]⟩⟩

def noted : JoinCriteria :=
  ⟨.leftOuter, .or, [⟨.equal, "id", "key", true⟩, ⟨.lesser, "note", "text", false⟩],
    [⟨"note", .descending, .left⟩],
    some (.allOf [.test "note" (.inList [.of (.varchar "?"), .null none]) true]),
    some (.anyOf [.test "text" (.likeIgnoringCase "\"%") false, .test "key" (.hasBits 5) true]),
    ⟨none, some 3⟩⟩

theorem Query.compile_contained_crooked : ∃ q,
    (blank .join).compile .sqlite (.join crooked noted) = .ok q ∧
      Sql.Contained (Statement.names (.join crooked noted)) q.text q.params := by
  have clean : noted.Portable := ⟨fun side => by cases side <;> decide, by decide⟩
  have portable : Statement.Portable (.join crooked noted) := clean
  have compiled : (blank .join).compile .sqlite (.join crooked noted) = .ok _ := rfl
  exact ⟨_, compiled, compile_contained (.inr rfl) portable compiled⟩

end DataAccess
