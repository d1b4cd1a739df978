import DataAccess.Join.Execution
import DataAccess.Proofs.Memory.Fetch
import DataAccess.Scripted

/-!
Joined rows as an engine gives them: the cells of both sides, NULLs for a side left out. Whether a
side is there is told by its key cells alone.
-/
namespace DataAccess

namespace Column

/-- The cell an engine gives for another. A NULL need not know its kind where the column does. -/
def Gives (c : Column) (v cell : Value) : Prop :=
  cell = v ∨ v.isNull = true ∧ cell.isNull = true ∧ c.kind ≠ none

theorem Fits.of_gives {c : Column} {v cell : Value} (fits : c.Fits v) (gives : c.Gives v cell) :
    cell.coerce c.kind = .ok v ∧ cell.isNull = v.isNull := by
  rcases gives with rfl | ⟨null, nullCell, known⟩
  · exact ⟨fits.coerce, rfl⟩
  · refine ⟨?_, nullCell.trans null.symm⟩
    obtain ⟨k, hk⟩ := Option.ne_none_iff_exists'.mp known
    have kind := fits.kind k hk
    cases v with
    | of s => cases null
    | null kind' =>
      cases cell with
      | of s => cases nullCell
      | null other =>
        obtain rfl : kind' = some k := kind
        rw [hk]
        rfl

end Column

theorem isNull_cell {cells row : Row} (same : cells.map (·.isNull) = row.map (·.isNull)) (i : Nat) :
    (cells.cell i).isNull = (row.cell i).isNull := by
  have at' := congrArg (·[i]?) same
  simp only [List.getElem?_map] at at'
  rw [Row.cell, Row.cell, List.getD_eq_getElem?_getD, List.getD_eq_getElem?_getD]
  cases hc : cells[i]? <;> cases hr : row[i]? <;> simp_all

namespace Mapping

variable {m : Mapping} {row : Row}

/-- Whether a key cell tells that the row is there. -/
def tells (m : Mapping) (row : Row) : Bool := m.keyPositions.any fun i => !(row.cell i).isNull

/-- A key column that admits no NULL. -/
def Marked (m : Mapping) : Prop :=
  ∃ i ∈ m.keyPositions, ∃ c, m.columns[i]? = some c ∧ c.nullable = false

theorem Marked.tells (h : m.Marked) (fits : m.Fits row) : m.tells row = true := by
  obtain ⟨i, hi, c, hc, notNull⟩ := h
  refine List.any_eq_true.mpr ⟨i, hi, ?_⟩
  have := (fits_cell fits hc).nullable
  cases hn : (row.cell i).isNull <;> simp_all

end Mapping

namespace Join

/-- The cells an engine gives for a side. -/
def Shown (m : Mapping) : Option Row → Row → Prop
  | some row, cells => List.Forall₂ (fun (c, v) cell => c.Gives v cell) (m.columns.zip row) cells
  | none, cells => cells.length = m.columns.length ∧ ∀ v ∈ cells, v.isNull = true

theorem coerce_of_shown {columns : List Column} {row cells : Row}
    (fits : List.Forall₂ Column.Fits columns row)
    (shown : List.Forall₂ (fun (c, v) cell => c.Gives v cell) (columns.zip row) cells) :
    (cells.zip columns).mapM (fun (v, c) => v.coerce c.kind) = .ok row ∧
      cells.map (·.isNull) = row.map (·.isNull) := by
  induction fits generalizing cells with
  | nil =>
    cases shown
    exact ⟨rfl, rfl⟩
  | @cons c v columns row hv _ ih =>
    cases shown with
    | cons gives others =>
      obtain ⟨coerced, null⟩ := hv.of_gives gives
      obtain ⟨rest, nulls⟩ := ih others
      exact ⟨Outcome.mapM_cons.mpr ⟨v, row, coerced, rest, rfl⟩, by simp [null, nulls]⟩

/-- A side is read as it was, but without its row where no key cell tells of it. -/
theorem sideOf_shown {m : Mapping} {side : Option Row} {cells : Row} (shown : Shown m side cells)
    (fits : ∀ row ∈ side, m.Fits row) :
    cells.length = m.columns.length ∧
      sideOf Value.coerce m cells = .ok (side.filter m.tells) := by
  cases side with
  | none =>
    have null (i : Nat) : (cells.cell i).isNull = true := by
      rw [Row.cell, List.getD_eq_getElem?_getD]
      cases hv : cells[i]? with
      | none => rfl
      | some v => exact shown.2 v (List.mem_of_getElem? hv)
    exact ⟨shown.1, by simp [sideOf, null]⟩
  | some row =>
    obtain ⟨coerced, nulls⟩ := coerce_of_shown (fits row rfl) shown
    have length : cells.length = m.columns.length := by
      have := congrArg List.length nulls
      simpa [(fits row rfl).length_eq] using this
    refine ⟨length, ?_⟩
    have told : m.tells row = !m.keyPositions.all fun i => (cells.cell i).isNull := by
      simp only [Mapping.tells, List.not_all_eq_any_not, isNull_cell nulls]
    cases absent : m.keyPositions.all fun i => (cells.cell i).isNull with
    | true => simp [sideOf, absent, Option.filter, told]
    | false =>
      simp [sideOf, absent, Option.filter, told, coerced, Mapping.undecodable, Except.map,
        Except.mapError]

variable {p : Sql.Pair} {r : JoinedRow} {row : LabeledRow}

/-- The row an engine gives for a joined one, whatever its labels. -/
def ShownAs (p : Sql.Pair) (r : JoinedRow) (row : LabeledRow) : Prop :=
  ∃ left right, row.cells = left ++ right ∧ Shown p.left r.left left ∧ Shown p.right r.right right

/-- Both sides, where they are there, are rows of their tables. -/
structure Fits (p : Sql.Pair) (r : JoinedRow) : Prop where
  left : ∀ row ∈ r.left, p.left.Fits row
  right : ∀ row ∈ r.right, p.right.Fits row

instance (p : Sql.Pair) (r : JoinedRow) : Decidable (Fits p r) :=
  decidable_of_iff ((∀ row ∈ r.left, p.left.Fits row) ∧ ∀ row ∈ r.right, p.right.Fits row)
    ⟨fun h => ⟨h.1, h.2⟩, fun h => ⟨h.left, h.right⟩⟩

/-- Each row that is there has a key cell that tells so. -/
structure Tells (p : Sql.Pair) (r : JoinedRow) : Prop where
  left : ∀ row ∈ r.left, p.left.tells row = true
  right : ∀ row ∈ r.right, p.right.tells row = true

/-- What is known of a joined row from its key cells. -/
def told (p : Sql.Pair) (r : JoinedRow) : JoinedRow :=
  ⟨r.left.filter p.left.tells, r.right.filter p.right.tells⟩

theorem told_eq_iff : told p r = r ↔ Tells p r := by
  have kept (side : Option Row) (tells : Row → Bool) :
      side.filter tells = side ↔ ∀ row ∈ side, tells row = true := by
    cases side <;> simp [Option.filter]
  obtain ⟨left, right⟩ := r
  simp only [told, JoinResult.mk.injEq, kept]
  exact ⟨fun h => ⟨h.1, h.2⟩, fun h => ⟨h.left, h.right⟩⟩

theorem tells_of_marked (left : p.left.Marked) (right : p.right.Marked) (fits : Fits p r) :
    Tells p r :=
  ⟨fun row h => left.tells (fits.left row h), fun row h => right.tells (fits.right row h)⟩

/-- A joined row is cut where the left columns end. -/
theorem decode_shown (shown : ShownAs p r row) (fits : Fits p r) :
    decode Value.coerce p row = .ok (told p r) := by
  obtain ⟨left, right, cells, hl, hr⟩ := shown
  obtain ⟨ll, decoded⟩ := sideOf_shown hl fits.left
  obtain ⟨lr, decoded'⟩ := sideOf_shown hr fits.right
  have width : row.cells.length = p.left.columns.length + p.right.columns.length := by
    rw [cells, List.length_append, ll, lr]
  have before : row.cells.take p.left.columns.length = left := by simp [cells, ← ll]
  have behind : row.cells.drop p.left.columns.length = right := by simp [cells, ← ll]
  simp [decode, width, before, behind, decoded, decoded', told]

theorem mapM_decode {results : List JoinedRow} {rows : List LabeledRow}
    (shown : List.Forall₂ (ShownAs p) results rows) (fits : ∀ r ∈ results, Fits p r) :
    rows.mapM (decode Value.coerce p) = .ok (results.map (told p)) := by
  induction shown with
  | nil => rfl
  | cons hr _ ih =>
    obtain ⟨first, others⟩ := List.forall_mem_cons.mp fits
    exact Outcome.mapM_cons.mpr ⟨_, _, decode_shown hr first, ih others, rfl⟩

variable {σ : Type} {b : Backend σ} {joins : Joins σ} {c : JoinCriteria} {q : Query}
  {env env₁ : Env σ} {results : List JoinedRow} {rows : List LabeledRow}

/-- Rows that an engine delivers are decoded one by one. -/
theorem native_eq (compiled : joins.compile p c env = (.ok q, env₁))
    (delivered : ∀ {β : Type} (receive : Receiver β) (start : β),
      (b.execute q receive start env₁).1 = deliver receive start rows) :
    (native b joins p c env).1 = rows.mapM (decode b.coerce p) := by
  have compiled : native b joins p c env = b.collect q (decode b.coerce p) env₁ := by
    simp [native, bind, ExceptT.bind, ExceptT.mk, ExceptT.bindCont, StateT.bind, compiled]
  have collected : (b.collect q (decode b.coerce p) env₁).1 =
      (b.execute q (collecting (decode b.coerce p)) [] env₁).1.2.map fun _ =>
        (b.execute q (collecting (decode b.coerce p)) [] env₁).1.1 := rfl
  rw [compiled, collected, delivered]
  exact deliver_collecting_nil _ rows

/-- What an engine gives for joined rows is read back as these rows, but for those of which no key
cell tells: they are taken for absent. So all are read as they were exactly where each has a key
cell that is not NULL, as any row has where a key column admits none. -/
theorem native_decodes (coerces : b.coerce = Value.coerce)
    (compiled : joins.compile p c env = (.ok q, env₁))
    (delivered : ∀ {β : Type} (receive : Receiver β) (start : β),
      (b.execute q receive start env₁).1 = deliver receive start rows)
    (shown : List.Forall₂ (ShownAs p) results rows) (fits : ∀ r ∈ results, Fits p r) :
    (native b joins p c env).1 = .ok (results.map (told p)) ∧
      ((native b joins p c env).1 = .ok results ↔ ∀ r ∈ results, Tells p r) ∧
      (p.left.Marked → p.right.Marked → (native b joins p c env).1 = .ok results) := by
  have decoded : (native b joins p c env).1 = .ok (results.map (told p)) := by
    rw [native_eq compiled delivered, coerces, mapM_decode shown fits]
  have each : results.map (told p) = results ↔ ∀ r ∈ results, told p r = r := by
    simpa using List.map_inj_left (l := results) (f := told p) (g := id)
  have exact : (native b joins p c env).1 = .ok results ↔ ∀ r ∈ results, Tells p r := by
    rw [decoded, Except.ok.injEq, each]
    exact forall₂_congr fun r _ => told_eq_iff
  exact ⟨decoded, exact, fun left right =>
    exact.mpr fun r hr => tells_of_marked left right (fits r hr)⟩

/-- A table with a key, and one of which all columns stand in for a key. -/
def keyedAndKeyless : Sql.Pair :=
  ⟨⟨⟨"", "l"⟩, [.key "id" "id" .int64, .optional "note" "note" .varchar]⟩,
    ⟨⟨"", "r"⟩, [.optional "n" "n" .int64, .optional "s" "s" .varchar]⟩⟩

def sameNumber : JoinCriteria := (JoinCriteria.ofKind .outer).on ⟨.equal, "id", "n", true⟩

def scripted : Descriptor := ⟨Scripted.scheme, "joined", [], 4, 5000⟩

/-- An engine that gives certain rows, not knowing the kinds of NULLs. -/
def giving (rows : List Row) : Script := ⟨[], rows, 0, none, true, [.outer]⟩

def playing (rows : List Row) : Env Scripted :=
  ⟨⟨scripted, giving rows, .new "scripted query" 4, []⟩, []⟩

theorem execute_giving (rows : List Row) (q : Query) {β : Type} (receive : Receiver β) (start : β)
    (env : Env Scripted) :
    ((Scripted.backend scripted (giving rows)).execute q receive start env).1 =
      deliver receive start (rows.map (⟨[], ·⟩)) := by
  have ending (r : β × Outcome Unit) : (r.1, r.2.bind fun _ => Except.ok ()) = r := by
    obtain ⟨found, _ | _⟩ := r <;> rfl
  exact ending _

/-- A row on the left alone, a pair, and a row on the right alone that is NULL throughout. -/
def outerRows : List JoinedRow := [
  ⟨some [.of (.int64 1), .null (some .varchar)], none⟩,
  ⟨some [.of (.int64 2), .of (.varchar "x")], some [.of (.int64 2), .null (some .varchar)]⟩,
  ⟨none, some [.null (some .int64), .null (some .varchar)]⟩]

/-- As the engine gives them. -/
def outerCells : List Row := [
  [.of (.int64 1), .null none, .null none, .null none],
  [.of (.int64 2), .of (.varchar "x"), .of (.int64 2), .null none],
  [.null none, .null none, .null none, .null none]]

theorem native_decodes_outerRows :
    (native (Scripted.backend scripted (giving outerCells))
      (Scripted.joins scripted (giving outerCells)) keyedAndKeyless sameNumber
      (playing outerCells)).1 = .ok (outerRows.take 2 ++ [⟨none, none⟩]) := by
  obtain ⟨q, env₁, compiled⟩ : ∃ q env₁, (Scripted.joins scripted (giving outerCells)).compile
    keyedAndKeyless sameNumber (playing outerCells) = (.ok q, env₁) := ⟨_, _, rfl⟩
  have null (property name : String) (k : Kind) :
      (Column.optional property name k).Gives (.null (some k)) (.null none) :=
    .inr ⟨rfl, rfl, nofun⟩
  have first : ShownAs keyedAndKeyless outerRows[0] ⟨[], outerCells[0]⟩ :=
    ⟨[_, _], [_, _], rfl, .cons (.inl rfl) (.cons (null _ _ _) .nil), rfl, by decide⟩
  have second : ShownAs keyedAndKeyless outerRows[1] ⟨[], outerCells[1]⟩ :=
    ⟨[_, _], [_, _], rfl, .cons (.inl rfl) (.cons (.inl rfl) .nil),
      .cons (.inl rfl) (.cons (null _ _ _) .nil)⟩
  have third : ShownAs keyedAndKeyless outerRows[2] ⟨[], outerCells[2]⟩ :=
    ⟨[_, _], [_, _], rfl, ⟨rfl, by decide⟩, .cons (null _ _ _) (.cons (null _ _ _) .nil)⟩
  exact (native_decodes rfl compiled (fun receive start =>
    execute_giving outerCells q receive start env₁) (.cons first (.cons second (.cons third .nil)))
      (by decide)).1

/-- A right row that is NULL throughout is taken for none. -/
theorem native_ne_nulls :
    Fits keyedAndKeyless ⟨none, some [.null (some .int64), .null (some .varchar)]⟩ ∧
      ShownAs keyedAndKeyless ⟨none, some [.null (some .int64), .null (some .varchar)]⟩
        ⟨[], List.replicate 4 (.null none)⟩ ∧
      (native (Scripted.backend scripted (giving [List.replicate 4 (.null none)]))
        (Scripted.joins scripted (giving [List.replicate 4 (.null none)])) keyedAndKeyless
        sameNumber (playing [List.replicate 4 (.null none)])).1 = .ok [⟨none, none⟩] := by
  have nulls : Shown keyedAndKeyless.right (some [.null (some .int64), .null (some .varchar)])
      [.null none, .null none] :=
    .cons (.inr ⟨rfl, rfl, nofun⟩) (.cons (.inr ⟨rfl, rfl, nofun⟩) .nil)
  exact ⟨by decide, ⟨[.null none, .null none], _, rfl, ⟨rfl, by decide⟩, nulls⟩, rfl⟩

end Join
end DataAccess
