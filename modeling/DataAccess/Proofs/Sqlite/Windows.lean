import DataAccess.Proofs.Memory.Fetch
import DataAccess.Proofs.Text.Digits
import DataAccess.Proofs.Text.Form
import DataAccess.Sqlite.Database

/-!
Windows as the engine reads them behind a query. A limit and an offset are written as they are, and
read as signed words. So the window is the one that a list is cut by, and holds as many rows as are
counted, as far as such words reach. Beyond, the query is refused.
-/
namespace DataAccess.Sqlite

variable {α : Type}

/-- An integer in a text. One that is no signed word is of another type. -/
def literal (cs : List Char) : Answer Int :=
  match (Integer.signed? cs).filter fun n => (Integer.int64? n).isSome with
  | some n => .ok n
  | none => .error .mismatch

/-- The literals behind a query. -/
structure Limits where
  limit : Option (List Char)
  offset : Option (List Char)
deriving DecidableEq

namespace Limits

/-- What the words of a clause are, if it is one. -/
def ofWords? : List String → Option Limits
  | [""] => some ⟨none, none⟩
  | ["\nLIMIT", limit] => some ⟨some limit.toList, none⟩
  | ["\nLIMIT", limit, "OFFSET", offset] => some ⟨some limit.toList, some offset.toList⟩
  | _ => none

def ofText? (text : String) : Option Limits :=
  ofWords? ((Form.split ' ' text.toList).map String.ofList)

/-- A limit of none is not followed by an offset, a negative limit is no limit, and a negative
offset is none. -/
def take (l : Limits) (rows : List α) : Answer (List α) := do
  let limit ← l.limit.elim (.ok (-1)) literal
  if limit = 0 then pure []
  else
    let offset ← l.offset.elim (.ok 0) literal
    let rest := rows.drop offset.toNat
    pure (if limit < 0 then rest else rest.take limit.toNat)

/-- What is written of a window. -/
def ofWindow (w : Window) : Limits where
  limit := if w.isPaginated then some (w.limit.elim "-1" toString).toList else none
  offset := w.start.map fun n => (toString n).toList

end Limits

theorem blank_notMem_toString (n : Nat) : ' ' ∉ (toString n).toList := by
  intro mem
  rw [Nat.toString_eq_ofList_toDigits, String.toList_ofList] at mem
  exact absurd (AllDigits.toDigits n _ mem) (by decide)

theorem literal_toString (n : Nat) :
    literal (toString n).toList = if n < Nat.pow 2 63 then .ok (n : Int) else .error .mismatch := by
  have read : Integer.signed? (toString n).toList = some (n : Int) := Integer.signed?_toString n
  rw [literal, read, Option.filter_some]
  by_cases fits : n < Nat.pow 2 63
  · have word : (Integer.int64? n).isSome = true := by
      rw [Integer.int64?, if_pos ⟨by omega, by exact_mod_cast fits⟩]
      rfl
    rw [word, if_pos rfl, if_pos fits]
  · have wide : (Integer.int64? n).isSome = false := by
      rw [Integer.int64?, if_neg fun h => fits (by exact_mod_cast h.2)]
      rfl
    rw [wide, if_neg nofun, if_neg fits]

namespace Limits

theorem ofText?_limit {limit : String} (blank : ' ' ∉ limit.toList) :
    ofText? ("\nLIMIT " ++ limit) = some ⟨some limit.toList, none⟩ := by
  have lead : ' ' ∉ "\nLIMIT".toList := by decide
  have words : Form.split ' ' ("\nLIMIT " ++ limit).toList = ["\nLIMIT".toList, limit.toList] := by
    rw [← Form.split_eq_singleton blank, ← Form.split_append lead, String.toList_append]
    rfl
  simp only [ofText?, words, List.map_cons, List.map_nil, String.ofList_toList, ofWords?]

theorem ofText?_offset {limit offset : String} (blank : ' ' ∉ limit.toList)
    (blank' : ' ' ∉ offset.toList) :
    ofText? ("\nLIMIT " ++ limit ++ (" OFFSET " ++ offset)) =
      some ⟨some limit.toList, some offset.toList⟩ := by
  have lead : ' ' ∉ "\nLIMIT".toList := by decide
  have between : ' ' ∉ "OFFSET".toList := by decide
  have words : Form.split ' ' ("\nLIMIT " ++ limit ++ (" OFFSET " ++ offset)).toList =
      ["\nLIMIT".toList, limit.toList, "OFFSET".toList, offset.toList] := by
    rw [← Form.split_eq_singleton blank', ← Form.split_append between, ← Form.split_append blank,
      ← Form.split_append lead]
    simp only [String.toList_append, List.append_assoc]
    rfl
  simp only [ofText?, words, List.map_cons, List.map_nil, String.ofList_toList, ofWords?]

/-- What is written of a window is a clause, with its literals. -/
theorem ofText?_window (w : Window) :
    ofText? (Sql.Dialect.sqlite.window w) = some (ofWindow w) := by
  have limited (limit : Nat) :
      Sql.limitBeforeOffset ⟨none, some limit⟩ = "\nLIMIT " ++ toString limit := by
    simp [Sql.limitBeforeOffset, Window.isPaginated]
  have shifted (limit : Option Nat) (start : Nat) : Sql.limitBeforeOffset ⟨some start, limit⟩ =
      "\nLIMIT " ++ limit.elim "-1" toString ++ (" OFFSET " ++ toString start) := by
    simp [Sql.limitBeforeOffset, Window.isPaginated]
  change ofText? (Sql.limitBeforeOffset w) = _
  obtain ⟨_ | start, _ | limit⟩ := w
  · rfl
  · rw [limited, ofText?_limit (blank_notMem_toString limit)]
    rfl
  · rw [shifted, ofText?_offset (by decide) (blank_notMem_toString start)]
    rfl
  · rw [shifted, Option.elim_some,
      ofText?_offset (blank_notMem_toString limit) (blank_notMem_toString start)]
    rfl

theorem limit_ofWindow (w : Window) : (ofWindow w).limit.elim (.ok (-1)) literal =
    if w.limit.getD 0 < Nat.pow 2 63 then .ok (w.limit.elim (-1) Int.ofNat)
    else .error .mismatch := by
  obtain ⟨_ | start, _ | limit⟩ := w
  · rfl
  · exact literal_toString limit
  · have negative : literal "-1".toList = .ok (-1) := by decide +kernel
    simpa [ofWindow, Window.isPaginated] using negative
  · exact literal_toString limit

theorem offset_ofWindow (w : Window) : (ofWindow w).offset.elim (.ok 0) literal =
    if w.start.getD 0 < Nat.pow 2 63 then .ok (w.start.getD 0 : Int) else .error .mismatch := by
  cases hs : w.start with
  | none => simp [ofWindow, hs]
  | some start => simpa [ofWindow, hs] using literal_toString start

/-- The engine refuses a window where it cannot read it, and otherwise cuts as a list is cut. -/
theorem take_ofWindow (w : Window) (rows : List α) :
    (ofWindow w).take rows = (checkWindow w).map fun _ => w.take rows := by
  have checked : checkWindow w = if w.limit = some 0 ∨ w.start.getD 0 < Nat.pow 2 63 ∧
      w.limit.getD 0 < Nat.pow 2 63 then .ok () else .error .mismatch := rfl
  rw [take, limit_ofWindow, offset_ofWindow, checked]
  by_cases nothing : w.limit = some 0
  · rw [if_pos (Or.inl nothing), Window.take, nothing]
    rfl
  by_cases narrow : w.limit.getD 0 < Nat.pow 2 63
  · have some_limit : w.limit.elim (-1) Int.ofNat ≠ 0 := by
      cases hl : w.limit with
      | none => decide
      | some limit => exact fun h => nothing (hl.trans (congrArg some (Int.ofNat.inj h)))
    simp only [nothing, narrow, false_or, and_true, if_true, Outcome.ok_bind, if_neg some_limit]
    by_cases near : w.start.getD 0 < Nat.pow 2 63
    · simp only [near, if_true, Except.map, Outcome.ok_bind, Outcome.pure_eq, Int.toNat_natCast,
        Window.take]
      cases hl : w.limit with
      | none => rfl
      | some limit => rfl
    · simp only [near, if_false, Except.map, Outcome.error_bind]
  · simp only [nothing, narrow, and_false, or_false, if_false, Outcome.error_bind, Except.map]

/-- The clause written of a window cuts what the window cuts, which is as much as it counts, where
its numbers are signed words or no row is wanted; otherwise it is refused. -/
theorem take_written (w : Window) (rows : List α) :
    ∃ limits, ofText? (Sql.Dialect.sqlite.window w) = some limits ∧
      (limits.take rows = if w.limit = some 0 ∨ w.start.getD 0 < Nat.pow 2 63 ∧
        w.limit.getD 0 < Nat.pow 2 63 then .ok (w.take rows) else .error .mismatch) ∧
      (w.take rows).length = w.count rows.length := by
  refine ⟨ofWindow w, ofText?_window w, ?_, w.length_take rows⟩
  rw [take_ofWindow, checkWindow]
  split <;> rfl

/-- The row is counted but the query for it is refused. -/
theorem take_refused : ∃ limits,
    ofText? (Sql.Dialect.sqlite.window ⟨none, some (Nat.pow 2 63)⟩) = some limits ∧
      limits.take [7] = .error .mismatch ∧
      Window.take ⟨none, some (Nat.pow 2 63)⟩ [7] = [7] ∧
      Window.count ⟨none, some (Nat.pow 2 63)⟩ 1 = 1 :=
  ⟨ofWindow ⟨none, some (Nat.pow 2 63)⟩, by decide +kernel, by decide +kernel, rfl, rfl⟩

end Limits
end DataAccess.Sqlite
