import DataAccess.Proofs.Join.Answer
import DataAccess.Proofs.Join.Filtered
import DataAccess.Proofs.Sql.JoinParts

/-!
The text of a join is read back as the join of the rows that pass the side filters, wherever the
kind of join puts these.
-/
namespace DataAccess

namespace JoinCriteria

variable {c : JoinCriteria} {p : Sql.Pair} {ls rs : List Row}

theorem filter?_eq_some {side : Side} {f : Criteria} :
    c.filter? side = some f ↔ c.criteria side = some f ∧ f.isEmpty = false := by
  rw [filter?, Option.filter_eq_some_iff]
  simp

theorem passing_eq (side : Side) (rows : List Row) : c.passing p side rows =
    rows.filter (Sql.admitted (c.filter? side) (p.mapping side)) := by
  unfold passing
  cases hf : c.criteria side with
  | none =>
    rw [filter?_of_none hf]
    exact (List.filter_eq_self.mpr fun _ _ => rfl).symm
  | some f =>
    rw [filter?_of_some hf]
    by_cases he : f.isEmpty
    · rw [if_pos he]
      refine List.filter_congr fun row _ => ?_
      exact passes_of_isEmpty he row
    · rw [if_neg he]
      rfl

/-- The filter of a table of its own. -/
def sourceFilter? (c : JoinCriteria) (side : Side) : Option Criteria :=
  if side ∈ Sql.sourceSides c.kind then c.filter? side else none

def onFilter? (c : JoinCriteria) : Option (Side × Criteria) :=
  (Sql.onSide? c.kind).bind fun side => (c.filter? side).map (side, ·)

def whereFilters (c : JoinCriteria) : List (Side × Criteria) :=
  (Sql.whereSides c.kind).filterMap fun side => (c.filter? side).map (side, ·)

theorem filter?_of_sourceFilter? {side : Side} {f : Criteria} (h : c.sourceFilter? side = some f) :
    c.filter? side = some f :=
  (Option.ite_none_right_eq_some.mp h).2

theorem filter?_of_onFilter? {s : Side × Criteria} (h : c.onFilter? = some s) :
    c.filter? s.1 = some s.2 := by
  obtain ⟨side, -, hside⟩ := Option.bind_eq_some_iff.mp h
  obtain ⟨f, hf, rfl⟩ := Option.map_eq_some_iff.mp hside
  exact hf

theorem filter?_of_whereFilters {s : Side × Criteria} (h : s ∈ c.whereFilters) :
    c.filter? s.1 = some s.2 := by
  obtain ⟨side, -, hside⟩ := List.mem_filterMap.mp h
  obtain ⟨f, hf, rfl⟩ := Option.map_eq_some_iff.mp hside
  exact hf

/-- Whether the row of a side passes its filter. -/
def keeps (c : JoinCriteria) (p : Sql.Pair) (row : JoinedRow) (side : Side) : Bool :=
  Sql.admitted (c.filter? side) (p.mapping side) (Sql.rowOf side row)

/-- Wherever the kind of join puts the filters, rows that fail them are as good as absent. -/
theorem paired_filtered :
    (c.kind.paired
      (fun x y => c.related p x y && (Sql.onSide? c.kind).all (c.keeps p ⟨some x, some y⟩))
      (ls.filter (Sql.admitted (c.sourceFilter? .left) p.left))
      (rs.filter (Sql.admitted (c.sourceFilter? .right) p.right))).filter
        (fun row => (Sql.whereSides c.kind).all (c.keeps p row)) =
      c.kind.paired (c.related p) (c.passing p .left ls) (c.passing p .right rs) := by
  simp only [passing_eq, sourceFilter?]
  have left (l : Row) (r : Option Row) : c.keeps p ⟨some l, r⟩ .left =
      Sql.admitted (c.filter? .left) p.left l := rfl
  have right (l : Option Row) (r : Row) : c.keeps p ⟨l, some r⟩ .right =
      Sql.admitted (c.filter? .right) p.right r := rfl
  have all (m : Mapping) (rows : List Row) : rows.filter (Sql.admitted none m) = rows :=
    List.filter_eq_self.mpr fun _ _ => rfl
  cases c.kind with
  | inner =>
    simp only [Sql.onSide?, Sql.sourceSides, Sql.whereSides, Option.all_none, Bool.and_true,
      List.not_mem_nil, if_false, List.all_cons, List.all_nil, ← List.filter_filter, all]
    rw [JoinKind.filter_paired_right rfl _ right, JoinKind.filter_paired_left rfl _ left]
    rfl
  | leftOuter =>
    simp only [Sql.onSide?, Sql.sourceSides, Sql.whereSides, Option.all_some, Bool.and_true,
      List.not_mem_nil, if_false, List.all_cons, List.all_nil, right, all]
    rw [JoinKind.filter_paired_left rfl _ left, JoinKind.paired_and_right rfl]
    rfl
  | rightOuter =>
    simp only [Sql.onSide?, Sql.sourceSides, Sql.whereSides, Option.all_some, Bool.and_true,
      List.not_mem_nil, if_false, List.all_cons, List.all_nil, left, all]
    rw [JoinKind.filter_paired_right rfl _ right, JoinKind.paired_and_left rfl]
    rfl
  | outer =>
    simp [Sql.onSide?, Sql.sourceSides, Sql.whereSides, Sql.Pair.mapping]

end JoinCriteria

namespace Sql

variable {d : Dialect} {p : Pair} {c : JoinCriteria} {ls rs : List Row}

def joinKindItems : JoinKind → List Item
  | .inner => [.token (.keyword .inner), .token (.keyword .join)]
  | .leftOuter => [.token (.keyword .left), .token (.keyword .join)]
  | .rightOuter => [.token (.keyword .right), .token (.keyword .join)]
  | .outer => [.token (.keyword .full), .token (.keyword .outer), .token (.keyword .join)]

theorem joinKeyword_spells (common : d.Common) (kind : JoinKind) :
    Spells false [.text ("\n" ++ joinKeyword d kind ++ " ")] true (joinKindItems kind) := by
  cases kind <;> simp only [joinKeyword, common.fullJoin] <;> exact ⟨rfl, fun _ _ _ => rfl⟩

theorem joinKind?_joinKindItems (kind : JoinKind) (rest : List Item) :
    joinKind? (joinKindItems kind ++ rest) = some (kind, rest) := by
  cases kind <;> rfl

theorem checked_filter (accepted : c.Accepted p) {side : Side} {f : Criteria}
    (h : c.filter? side = some f) : Checked p side f := by
  obtain ⟨hf, nonempty⟩ := JoinCriteria.filter?_eq_some.mp h
  exact ⟨nonempty, accepted.filtered side f hf⟩

theorem checked_sourceFilter (accepted : c.Accepted p) {side : Side} :
    ∀ f ∈ c.sourceFilter? side, Checked p side f :=
  fun _ hf => checked_filter accepted (JoinCriteria.filter?_of_sourceFilter? hf)

theorem checked_onFilter (accepted : c.Accepted p) : ∀ s ∈ c.onFilter?, Checked p s.1 s.2 :=
  fun _ hs => checked_filter accepted (JoinCriteria.filter?_of_onFilter? hs)

theorem checked_whereFilters (accepted : c.Accepted p) :
    ∀ s ∈ c.whereFilters, Checked p s.1 s.2 :=
  fun _ hs => checked_filter accepted (JoinCriteria.filter?_of_whereFilters hs)

theorem keeps_eq (accepted : c.Accepted p) (row : JoinedRow) (side : Side) :
    c.keeps p row side = ((c.filter? side).map (side, ·)).all fun s =>
      sideTruth p s row == some true := by
  cases h : c.filter? side with
  | none => simp [JoinCriteria.keeps, h, admitted]
  | some f =>
    have checked := checked_filter accepted h
    rw [JoinCriteria.keeps, h]
    exact Criteria.passes_eq_truth checked.nonempty checked.valid _

theorem onFilter?_all (accepted : c.Accepted p) (row : JoinedRow) :
    c.onFilter?.all (fun s => sideTruth p s row == some true) =
      (onSide? c.kind).all (c.keeps p row) := by
  unfold JoinCriteria.onFilter?
  cases onSide? c.kind with
  | none => rfl
  | some side => exact (keeps_eq accepted row side).symm

theorem whereFilters_all (accepted : c.Accepted p) (row : JoinedRow) :
    c.whereFilters.all (fun s => sideTruth p s row == some true) =
      (whereSides c.kind).all (c.keeps p row) := by
  unfold JoinCriteria.whereFilters
  induction whereSides c.kind with
  | nil => rfl
  | cons side rest ih =>
    rw [List.all_cons, ← ih, keeps_eq accepted row side]
    cases h : c.filter? side <;> simp [h]

theorem related_eq (c : JoinCriteria) (p : Pair) (x y : Row) :
    (c.operator.kleene (c.expressions.map (comparison p · ⟨some x, some y⟩)) == some true) =
      c.related p x y := by
  have each (e : JoinExpression) : (comparison p e ⟨some x, some y⟩ == some true) =
      e.matchesCells (p.left.cellOf x e.left) (p.right.cellOf y e.right) := by
    simp only [comparison, JoinExpression.matchesCells, rowOf, Option.getD_some]
    cases (p.left.cellOf x e.left).compare (p.right.cellOf y e.right) <;> simp
  rw [← Connective.decided_true, Connective.decided_eq, JoinCriteria.related, List.map_map]
  cases c.operator <;> simp [← each, List.all_map, List.any_map, Function.comp_def]

/-- The text, put together of its parts. -/
theorem joinBody_eq {lps rps ofs : Pieces} {preds wfs : List Pieces} (valid : c.validate = .ok ())
    (left : joinSource d (.plain .join) p.left (aliasOf .left) (c.sourceFilter? .left) = .ok lps)
    (right : joinSource d (.plain .join) p.right (aliasOf .right) (c.sourceFilter? .right) =
      .ok rps)
    (predicates : c.expressions.mapM (joinExpression ((Context.plain .join).at .joinOn) p) =
      .ok preds)
    (on : behindOn ((Context.plain .join).at .joinOn) p c.onFilter? = .ok ofs)
    (filters : (c.whereFilters.mapM fun (side, f) => sideFilter ((Context.plain .join).at
      .selectWhere) p (decide (1 < c.whereFilters.length)) side f) = .ok wfs) :
    joinBody d p c = .ok (.text "\nFROM " :: lps ++
      .text ("\n" ++ joinKeyword d c.kind ++ " ") :: rps ++ .text " ON " ::
      (conjoined c.operator preds).parenthesizedIf
        (c.onFilter?.isSome && decide (1 < c.expressions.length)) ++ ofs ++ behindWhere wfs) := by
  unfold joinBody
  refine Outcome.bind_eq_ok.mpr ⟨(), valid, ?_⟩
  refine Outcome.bind_eq_ok.mpr ⟨lps, left, ?_⟩
  refine Outcome.bind_eq_ok.mpr ⟨rps, right, ?_⟩
  refine Outcome.bind_eq_ok.mpr ⟨preds, predicates, ?_⟩
  change c.whereFilters.mapM _ = _ at filters
  unfold JoinCriteria.onFilter? at on ⊢
  generalize ((onSide? c.kind).bind fun side => (c.filter? side).map (side, ·)) = filter at on ⊢
  cases filter with
  | none =>
    obtain rfl := Except.ok.inj on
    refine Outcome.bind_eq_ok.mpr ⟨[], rfl, ?_⟩
    exact Outcome.bind_eq_ok.mpr ⟨wfs, filters, rfl⟩
  | some s =>
    obtain ⟨fs, hfs, h⟩ := Outcome.bind_eq_ok.mp on
    obtain rfl := Except.ok.inj h
    refine Outcome.bind_eq_ok.mpr ⟨fs, hfs, ?_⟩
    refine Outcome.bind_eq_ok.mpr ⟨_, rfl, ?_⟩
    exact Outcome.bind_eq_ok.mpr ⟨wfs, filters, rfl⟩

/-- The items of the parts, one behind the other, are read as a join of the parts. -/
theorem body?_joined {l r : Source} {on : Condition} {filter : Option Condition}
    {lis ris ois wis : List Item} (kind : JoinKind)
    (left : ∀ rest, source? (lis ++ rest) = some (l, rest))
    (right : ∀ rest, source? (ris ++ rest) = some (r, rest))
    (condition : ∀ rest, Stops rest → condition? (ois ++ rest) = some (on, rest))
    (stops : Stops wis) (filtered : where? wis = some filter) :
    body? ([.token (.keyword .from)] ++ lis ++ joinKindItems kind ++
      (ris ++ [.token (.keyword .on)] ++ (ois ++ wis))) = some ⟨l, kind, r, on, filter⟩ := by
  simp [body?, left, joinKind?_joinKindItems, right, condition wis stops, filtered]

/-- A join selects the pairs of the rows that pass, where each filter means what it is in the place
it was put. -/
theorem rows?_paired (accepted : c.Accepted p) {tables : Tables} {b : Body}
    {truth : JoinedRow → Option Bool} (kind : b.kind = c.kind)
    (lname : b.left.name = leftAlias) (rname : b.right.name = rightAlias)
    (left : b.left.rows? tables =
      some (p.left, ls.filter (admitted (c.sourceFilter? .left) p.left)))
    (right : b.right.rows? tables =
      some (p.right, rs.filter (admitted (c.sourceFilter? .right) p.right)))
    (on : b.on.meaning? (both leftAlias rightAlias p) = some truth)
    (means : ∀ row, (truth row == some true) =
      ((c.operator.kleene (c.expressions.map (comparison p · row)) == some true) &&
        c.onFilter?.all fun s => sideTruth p s row == some true))
    (kept : ∀ rows, kept? (both leftAlias rightAlias p) rows b.filter =
      some (rows.filter fun row => c.whereFilters.all fun s => sideTruth p s row == some true)) :
    b.rows? tables =
      some (c.kind.paired (c.related p) (c.passing p .left ls) (c.passing p .right rs)) := by
  have related : (fun x y => truth ⟨some x, some y⟩ == some true) = fun x y =>
      c.related p x y && (onSide? c.kind).all (c.keeps p ⟨some x, some y⟩) := by
    funext x y
    rw [means, related_eq, onFilter?_all accepted]
  have passing : (fun row => c.whereFilters.all fun s => sideTruth p s row == some true) =
      fun row => (whereSides c.kind).all (c.keeps p row) :=
    funext fun row => whereFilters_all accepted row
  simp only [Body.rows?, left, right, lname, rname, on, kind, Option.bind_eq_bind,
    Option.bind_some, kept, related, passing, JoinCriteria.paired_filtered]

/-- The text of a join is read back as a join whose rows are the pairs of the rows that pass. -/
theorem joinBody_conveyed (common : d.Common) (distinct : ∀ side, (p.mapping side).labels.Nodup)
    (accepted : c.Accepted p) {tables : Tables} (left : tables p.left.table = some (p.left, ls))
    (right : tables p.right.table = some (p.right, rs)) :
    ∃ ps body, joinBody d p c = .ok ps ∧ readBody? ps.params (d.write ps) = some body ∧
      body.rows? tables =
        some (c.kind.paired (c.related p) (c.passing p .left ls) (c.passing p .right rs)) := by
  have valid : c.validate = .ok () := by
    simp [JoinCriteria.validate, accepted.nonempty]
  have checked (side : Side) (f : Criteria) (hf : f ∈ c.sourceFilter? side) :=
    checked_sourceFilter accepted f hf
  obtain ⟨lps, lis, l, hl, lspells, lread, lname, lrows⟩ := joinSource_conveyed common left
    (distinct .left) .left (fun f hf => (checked .left f hf).nonempty)
    fun f hf => (checked .left f hf).valid
  obtain ⟨rps, ris, r, hr, rspells, rread, rname, rrows⟩ := joinSource_conveyed common right
    (distinct .right) .right (fun f hf => (checked .right f hf).nonempty)
    fun f hf => (checked .right f hf).valid
  obtain ⟨preds, ofs, on, truth, hpreds, hofs, ⟨ois, ospells, oread⟩, omeans, otruth⟩ :=
    on_conveyed distinct ((Context.plain .join).at .joinOn) accepted.nonempty accepted.joined
      (checked_onFilter accepted)
  obtain ⟨wfs, wis, filter, hwfs, wspells, wstops, wread, wkept⟩ :=
    where_conveyed distinct ((Context.plain .join).at .selectWhere) (checked_whereFilters accepted)
  have written := joinBody_eq valid hl hr hpreds hofs hwfs
  have lead : Spells true [.text "\nFROM "] true [.token (.keyword .from)] :=
    ⟨rfl, fun _ _ _ => rfl⟩
  have before : Spells false [.text " ON "] true [.token (.keyword .on)] := ⟨rfl, fun _ _ _ => rfl⟩
  have spells := ((lead.append lspells).append (joinKeyword_spells common c.kind)).append
    ((rspells.append before).append ((ospells true).append wspells))
  have text := body?_joined c.kind lread rread oread wstops wread
  refine ⟨_, ⟨l, c.kind, r, on, filter⟩, written, ?_,
    rows?_paired accepted rfl lname rname lrows rrows omeans otruth wkept⟩
  have read := items?_write common spells
  rw [readBody?]
  simp only [List.append_assoc, List.cons_append, List.nil_append] at read text ⊢
  rw [read, Option.bind_some, text]

end Sql
end DataAccess
