import DataAccess.Proofs.Sql.Filters

/-!
The parts of a join's text: its sources, and the conditions behind ON and WHERE, are read back as
they were meant.
-/
namespace DataAccess

namespace Sql

variable {d : Dialect} {ps : Pieces} {items : List Item} {after : Bool}

/-- What pieces write is read as their items. -/
theorem items?_write (common : d.Common) (h : Spells true ps after items) :
    items? ps.params (d.write ps) = some items := by
  have text : tokens (d.writeFrom 0 ps ++ []) = ps.tokens ++ tokens [] :=
    (tokens_writeFrom common 0 h.spaced (.inr (by simp [Apart]))).1
  have read := h.read [] [] []
  rw [List.append_nil, List.append_nil] at read
  have tokens : tokens (d.write ps).toList = ps.tokens := by
    rw [Dialect.write, String.toList_ofList, ← List.append_nil (d.writeFrom 0 ps), text]
    exact List.append_nil _
  simp [items?, tokens, read]

/-- The columns of both sides are seen under their aliases. -/
theorem sees_both (ctx : Context) (p : Pair) (side : Side) :
    Sees (both leftAlias rightAlias p) (ctx.qualified (aliasOf side)) (p.mapping side)
      (rowOf side) := by
  intro c
  cases side <;> rfl

theorem sees_bare (part : Part) (m : Mapping) : Sees (bare m) (.plain part) m id :=
  fun _ => rfl

theorem qualified_mem (ctx : Context) (side : Side) :
    (ctx.qualified (aliasOf side)).qualifier ∈ qualifiers := by
  cases side <;> simp [Context.qualified, qualifiers, aliasOf]

variable {p : Pair} {c : JoinCriteria}

theorem find_of_position {m : Mapping} {property : String} {i : Nat}
    (h : m.position property = .ok i) : ∃ c, m.find property = .ok (i, c) := by
  obtain ⟨⟨j, c⟩, found, rfl⟩ := Outcome.map_eq_ok.mp h
  exact ⟨c, found⟩

/-- Whether cells stand in a relation, if they compare. -/
def comparison (p : Pair) (e : JoinExpression) (row : JoinedRow) : Option Bool :=
  ((p.left.cellOf (rowOf .left row) e.left).compare
    (p.right.cellOf (rowOf .right row) e.right)).map fun o => e.relation.holds o == e.positive

theorem asked?_reference (c c' : ColumnRef) (r : Relation) (positive : Bool) :
    asked? c (.token (.comparison r positive) :: referenceItems c') =
      some (.compare c r positive c') := by
  obtain ⟨q, name⟩ := c'
  cases q <;> rfl

theorem joinExpression_conveyed (distinct : ∀ side, (p.mapping side).labels.Nodup) (ctx : Context)
    {e : JoinExpression} (known : (∃ i, p.left.position e.left = .ok i) ∧
      ∃ j, p.right.position e.right = .ok j) :
    Conveyed (both leftAlias rightAlias p) (joinExpression ctx p e) (comparison p e) := by
  obtain ⟨⟨i, hi⟩, j, hj⟩ := known
  obtain ⟨l, hl⟩ := find_of_position hi
  obtain ⟨r, hr⟩ := find_of_position hj
  have left := sees_both ctx p .left l
  have right := sees_both ctx p .right r
  rw [cells, Mapping.named?_of_find (distinct .left) hl] at left
  rw [cells, Mapping.named?_of_find (distinct .right) hr] at right
  have content := ((column_spells (c := l) (qualified_mem ctx .left)).append
    (relation_spells e.relation e.positive)).append
      (column_spells (c := r) (qualified_mem ctx .right))
  refine ⟨_, .compare (reference (ctx.qualified (aliasOf .left)) l) e.relation e.positive
    (reference (ctx.qualified (aliasOf .right)) r), ?_, fun apart => content.parenthesized ?_, ?_⟩
  · simp only [joinExpression, Mapping.column, hl, hr]
    rfl
  · rw [List.append_assoc]
    simp [group?, leaf?, column?_reference, asked?_reference]
  · have cells : comparison p e = fun row => (((rowOf .left row).cell i).compare
        ((rowOf .right row).cell j)).map fun o => e.relation.holds o == e.positive := by
      funext row
      rw [comparison, Mapping.cellOf_eq hi, Mapping.cellOf_eq hj]
    simp [Condition.meaning?, left, right, cells]

def tableItems (t : TableRef) : List Item :=
  if t.schema = "" then [.token (.name t.name)]
  else [.token (.name t.schema), .token .dot, .token (.name t.name)]

def aliasItems (name : String) : List Item := [.token (.keyword .as), .token (.word name)]

theorem table?_tableItems (t : TableRef) (k : Keyword) (rest : List Item) :
    table? (tableItems t ++ .token (.keyword k) :: rest) =
      some (t, .token (.keyword k) :: rest) := by
  obtain ⟨schema, name⟩ := t
  by_cases h : schema = ""
  · subst h
    rfl
  · simp [tableItems, h, table?]

theorem source?_tableItems (t : TableRef) (name : String) (rest : List Item) :
    source? (tableItems t ++ (aliasItems name ++ rest)) = some (⟨t, name, none⟩, rest) := by
  have table := table?_tableItems t .as (.token (.word name) :: rest)
  rw [source?]
  · rw [aliasItems, List.cons_append, List.cons_append, List.nil_append, table]
  · intro t' c name' rest' h
    unfold tableItems at h
    split at h <;> cases h

theorem tableName_spells (t : TableRef) :
    Spells true ((if t.schema = "" then [] else [.name t.schema, .text "."]) ++ [.name t.name])
      false (tableItems t) := by
  unfold tableItems
  split <;> exact ⟨rfl, fun _ _ _ => rfl⟩

theorem alias_spells (apart : Bool) (side : Side) :
    Spells apart [.text (" AS " ++ aliasOf side)] false (aliasItems (aliasOf side)) := by
  cases side <;> cases apart <;> exact ⟨rfl, fun _ _ _ => rfl⟩

/-- Where no alias is declared, a table is written as it is named. -/
theorem tableRef_spells (t : TableRef) :
    Spells true (tableRef d (.plain .select) t) false (tableItems t) := by
  simpa [tableRef, Context.plain] using tableName_spells t

theorem aliased_spells (common : d.Common) (t : TableRef) (side : Side) :
    Spells true (tableRef d ((Context.plain .join).qualified (aliasOf side)) t) false
      (tableItems t ++ aliasItems (aliasOf side)) := by
  have declared : aliasOf side ≠ "" := by cases side <;> decide
  have := (tableName_spells t).append (alias_spells false side)
  simpa [tableRef, Context.plain, Context.qualified, common.declaresAlias, declared] using this

theorem derived_spells {t : TableRef} {ts fs : Pieces} {c : Condition}
    (table : Spells true ts false (tableItems t)) (filter : Conveys fs c) (side : Side) :
    Spells true (.text "(SELECT * FROM " :: ts ++
        .text " WHERE " :: (fs ++ [.text (") AS " ++ aliasOf side)])) false
      (.derived t c :: aliasItems (aliasOf side)) := by
  obtain ⟨items, spells, whole⟩ := filter.whole
  have lead : Spells true [.text "SELECT * FROM "] true
      [.token (.keyword .select), .token .star, .token (.keyword .from)] := ⟨rfl, fun _ _ _ => rfl⟩
  have between : Spells false [.text " WHERE "] true [.token (.keyword .where)] :=
    ⟨rfl, fun _ _ _ => rfl⟩
  have content := ((lead.append table).append between).append (spells true)
  have inner : derived? ([.token (.keyword .select), .token .star, .token (.keyword .from)] ++
      tableItems t ++ [.token (.keyword .where)] ++ items) = some (.derived t c) := by
    simp [derived?, table?_tableItems, whole, whole?]
  have group : group? ([.token (.keyword .select), .token .star, .token (.keyword .from)] ++
      tableItems t ++ [.token (.keyword .where)] ++ items) = some (.derived t c) := by
    rw [group?, inner]
    simp [leaf?, column?, folded?, condition?, whole?, values?, masked?]
  have opened : Pieces.Same [.text "(SELECT * FROM "] [.text "(", .text "SELECT * FROM "] :=
    ⟨fun apart => by cases apart <;> rfl, rfl, rfl⟩
  have closed : Pieces.Same [.text (") AS " ++ aliasOf side)]
      [.text ")", .text (" AS " ++ aliasOf side)] := by
    cases side <;> exact ⟨fun apart => by cases apart <;> rfl, rfl, rfl⟩
  have same := (opened.append (.refl (ts ++ .text " WHERE " :: fs))).append closed
  have derived : Spells true _ false _ :=
    (content.parenthesized group).append (alias_spells true side)
  simpa using derived.congr (by simpa [Pieces.parenthesized] using same)

/-- Whether a row passes a filter, if there is one. -/
def admitted (filter : Option Criteria) (m : Mapping) (row : Row) : Bool :=
  filter.all (·.passes m row)

/-- A source is read back as a table, or as the rows of it that pass a filter. -/
theorem joinSource_conveyed (common : d.Common) {tables : Tables} {m : Mapping} {rows : List Row}
    (stored : tables m.table = some (m, rows)) (distinct : m.labels.Nodup) (side : Side)
    {filter : Option Criteria} (nonempty : ∀ f ∈ filter, f.isEmpty = false)
    (valid : ∀ f ∈ filter, ∀ e ∈ f.expressions, e.check m = .ok ()) :
    ∃ ps items s, joinSource d (.plain .join) m (aliasOf side) filter = .ok ps ∧
      Spells true ps false items ∧ (∀ rest, source? (items ++ rest) = some (s, rest)) ∧
      s.name = aliasOf side ∧ s.rows? tables = some (m, rows.filter (admitted filter m)) := by
  cases filter with
  | none =>
    refine ⟨_, _, ⟨m.table, aliasOf side, none⟩, rfl, aliased_spells common m.table side,
      fun rest => ?_, rfl, ?_⟩
    · rw [List.append_assoc]
      exact source?_tableItems m.table (aliasOf side) rest
    · have same : rows.filter (admitted none m) = rows := List.filter_eq_self.mpr fun _ _ => rfl
      simp [Source.rows?, stored, kept?, same]
  | some f =>
    obtain ⟨fs, c, hfs, conveys, -, means⟩ := filter_conveyed distinct (by decide)
      (sees_bare .selectWhere m) (nonempty f rfl) (valid f rfl)
    refine ⟨_, _, ⟨m.table, aliasOf side, some c⟩, ?_,
      derived_spells (tableRef_spells (d := d) m.table) conveys side, fun rest => rfl, rfl, ?_⟩
    · have hfs : filter ((Context.plain .select).at .selectWhere) m f = .ok fs := hfs
      simp [joinSource, hfs]
    · have same : (rows.filter fun row => f.truth m row == some true) =
          rows.filter (admitted (some f) m) := List.filter_congr fun row _ =>
        (Criteria.passes_eq_truth (nonempty f rfl) (valid f rfl) row).symm
      simp [Source.rows?, stored, kept?, means, same]

/-- The filter of a side, as far as it was checked. -/
structure Checked (p : Pair) (side : Side) (f : Criteria) : Prop where
  nonempty : f.isEmpty = false
  valid : ∀ e ∈ f.expressions, e.check (p.mapping side) = .ok ()

/-- The truth of a side's filter for a pair. -/
def sideTruth (p : Pair) (s : Side × Criteria) (row : JoinedRow) : Option Bool :=
  s.2.truth (p.mapping s.1) (rowOf s.1 row)

theorem sideFilter_conveyed (distinct : ∀ side, (p.mapping side).labels.Nodup) (ctx : Context)
    {s : Side × Criteria} (checked : Checked p s.1 s.2) :
    Conveyed (both leftAlias rightAlias p) (sideFilter ctx p true s.1 s.2) (sideTruth p s) ∧
      ∃ ps c, sideFilter ctx p false s.1 s.2 = .ok ps ∧ Conveys ps c ∧
        c.meaning? (both leftAlias rightAlias p) = some (sideTruth p s) := by
  obtain ⟨ps, c, hps, conveys, tight, means⟩ := filter_conveyed (distinct s.1)
    (qualified_mem ctx s.1) (sees_both ctx p s.1) checked.nonempty checked.valid
  constructor
  · refine ⟨_, c, ?_, tight, means⟩
    simp [sideFilter, hps]
  · refine ⟨_, c, ?_, conveys, means⟩
    simp [sideFilter, hps, Pieces.parenthesizedIf]

theorem kleene_and_eq_true {α : Type} (truth : α → Option Bool) (terms : List α) :
    (Connective.and.kleene (terms.map truth) == some true) =
      terms.all fun a => truth a == some true := by
  rw [← Connective.decided_true, Connective.decided_eq, List.all_map, List.all_map]
  rfl

def behindWhere (fs : List Pieces) : Pieces :=
  if fs.isEmpty then [] else .text "\nWHERE " :: separated " AND " fs

theorem behindWhere_spells {fs : List Pieces} {condition : Condition} (nonempty : fs ≠ [])
    (conveys : Conveys (separated " AND " fs) condition) :
    ∃ items, Spells true (behindWhere fs) true items ∧ Stops items ∧
      where? items = some (some condition) := by
  obtain ⟨items, spells, whole⟩ := conveys.whole
  have lead : Spells true [.text "\nWHERE "] true [.token (.keyword .where)] :=
    ⟨rfl, fun _ _ _ => rfl⟩
  refine ⟨.token (.keyword .where) :: items, ?_, by simp [Stops], ?_⟩
  · rw [behindWhere, if_neg (by simpa using nonempty)]
    exact lead.append (spells true)
  · simp [where?, whole, whole?]

/-- Filters behind WHERE are read back as the condition that all of them are true. -/
theorem where_conveyed (distinct : ∀ side, (p.mapping side).labels.Nodup) (ctx : Context)
    {filters : List (Side × Criteria)} (checked : ∀ s ∈ filters, Checked p s.1 s.2) :
    ∃ fs items filter, (filters.mapM fun (side, f) =>
        sideFilter ctx p (decide (1 < filters.length)) side f) = .ok fs ∧
      Spells true (behindWhere fs) true items ∧ Stops items ∧ where? items = some filter ∧
      ∀ rows, kept? (both leftAlias rightAlias p) rows filter =
        some (rows.filter fun row => filters.all fun s => sideTruth p s row == some true) := by
  match filters, checked with
  | [], _ => exact ⟨[], [], none, rfl, ⟨rfl, fun _ _ _ => rfl⟩, by simp [Stops], rfl,
      fun rows => by simp [kept?]⟩
  | [s], checked =>
    obtain ⟨-, ps, c, hps, conveys, means⟩ :=
      sideFilter_conveyed distinct ctx (checked s List.mem_cons_self)
    have alone : Conveys (separated " AND " [ps]) c := conveys
    obtain ⟨items, spells, stops, read⟩ := behindWhere_spells (by simp) alone
    refine ⟨[ps], items, some c, ?_, spells, stops, read, fun rows => ?_⟩
    · simp [hps]
    · simp [kept?, means]
  | s :: s' :: rest, checked =>
    obtain ⟨fs, c, hfs, conveys, -, means⟩ := connected_conveyed (by simp) .and fun s hs =>
      (sideFilter_conveyed distinct ctx (checked s hs)).1
    have written : fs ≠ [] := by
      intro h
      obtain rfl := h
      cases Outcome.mapM_eq_ok.mp hfs
    obtain ⟨items, spells, stops, read⟩ := behindWhere_spells written conveys
    refine ⟨fs, items, some c, ?_, spells, stops, read, fun rows => ?_⟩
    · simpa using hfs
    · rw [kept?, means]
      exact congrArg some (List.filter_congr fun row _ => kleene_and_eq_true _ _)

/-- A side's filter where it stands behind the predicates. -/
def behindOn (ctx : Context) (p : Pair) : Option (Side × Criteria) → Outcome Pieces
  | some (side, f) => do pure (.text " AND " :: (← sideFilter ctx p true side f))
  | none => pure []

/-- Predicates, and a filter behind ON, are read back as the condition that both are true. -/
theorem on_conveyed (distinct : ∀ side, (p.mapping side).labels.Nodup) (ctx : Context)
    (nonempty : c.expressions ≠ []) (joined : ∀ e ∈ c.expressions,
      (∃ i, p.left.position e.left = .ok i) ∧ ∃ j, p.right.position e.right = .ok j)
    {filter : Option (Side × Criteria)} (checked : ∀ s ∈ filter, Checked p s.1 s.2) :
    ∃ ps fs condition truth, c.expressions.mapM (joinExpression ctx p) = .ok ps ∧
      behindOn ctx p filter = .ok fs ∧
      Conveys ((conjoined c.operator ps).parenthesizedIf
        (filter.isSome && decide (1 < c.expressions.length)) ++ fs) condition ∧
      condition.meaning? (both leftAlias rightAlias p) = some truth ∧
      ∀ row, (truth row == some true) =
        ((c.operator.kleene (c.expressions.map (comparison p · row)) == some true) &&
          filter.all fun s => sideTruth p s row == some true) := by
  obtain ⟨ps, condition, hps, conveys, tight, means⟩ := connected_conveyed nonempty c.operator
    fun e he => joinExpression_conveyed distinct ctx (joined e he)
  cases filter with
  | none =>
    refine ⟨ps, [], condition, _, hps, rfl, ?_, means, fun row => ?_⟩
    · simpa [Pieces.parenthesizedIf] using conveys
    · simp
  | some s =>
    obtain ⟨⟨fs, f, hfs, ftight, fmeans⟩, -⟩ := sideFilter_conveyed distinct ctx (checked s rfl)
    refine ⟨ps, .text " AND " :: fs, .connected .and condition f, fun row =>
      Connective.and.kleene [c.operator.kleene (c.expressions.map (comparison p · row)),
        sideTruth p s row], hps, ?_, ?_, ?_, fun row => ?_⟩
    · simp [behindOn, hfs]
    · simpa using and_conveys tight ftight
    · simp [Condition.meaning?, means, fmeans]
    · have := kleene_and_eq_true id
        [c.operator.kleene (c.expressions.map (comparison p · row)), sideTruth p s row]
      simpa using this

end Sql
end DataAccess
