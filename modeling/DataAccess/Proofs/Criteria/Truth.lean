import DataAccess.Evaluation.Filter
import DataAccess.Proofs.Outcome

/-!
Truth with a third value, `none`, for what NULLs leave open. A filter lets a row pass when it is
true for the row, and its inverse does when it is false.
-/
namespace DataAccess

namespace Connective

/-- Kleene's connectives: one deciding term is enough, and an open one leaves the others in
doubt. -/
def kleene (c : Connective) (terms : List (Option Bool)) : Option Bool :=
  if some (!c.neutral) ∈ terms then some (!c.neutral)
  else if none ∈ terms then none
  else some c.neutral

/-- The truth of terms none of which fails. -/
def decided (c : Connective) (terms : List Bool) : Bool :=
  if (!c.neutral) ∈ terms then !c.neutral else c.neutral

theorem combine_ok (c : Connective) (terms : List Bool) :
    c.combine (terms.map .ok) = .ok (c.decided terms) := by
  induction terms with
  | nil => rfl
  | cons b rest ih =>
    have step : c.combine ((b :: rest).map .ok) =
        if b = c.neutral then c.combine (rest.map .ok) else .ok !c.neutral := rfl
    rw [step, ih]
    by_cases h : b = c.neutral
    · simp [decided, h]
    · have hb : b = !c.neutral := by simpa using Bool.eq_not.mpr h
      simp [decided, hb]

theorem decided_true (c : Connective) (terms : List (Option Bool)) :
    c.decided (terms.map (· == some true)) = (c.kleene terms == some true) := by
  cases c with
  | and =>
    simp only [decided, kleene, neutral]
    by_cases hf : some false ∈ terms
    · have hb : false ∈ terms.map (· == some true) := List.mem_map.mpr ⟨_, hf, rfl⟩
      simp [hb, hf]
    · by_cases hn : none ∈ terms
      · have hb : false ∈ terms.map (· == some true) := List.mem_map.mpr ⟨_, hn, rfl⟩
        simp [hb, hf, hn]
      · have hb : false ∉ terms.map (· == some true) := by
          intro h
          obtain ⟨t, ht, he⟩ := List.mem_map.mp h
          cases t with
          | none => exact hn ht
          | some b => cases b <;> simp_all
        simp [hb, hf, hn]
  | or =>
    have hb : true ∈ terms.map (· == some true) ↔ some true ∈ terms := by simp
    by_cases ht : some true ∈ terms
    · simp [decided, kleene, neutral, ht]
    · by_cases hn : none ∈ terms <;> simp [decided, kleene, neutral, ht, hn]

/-- De Morgan's law holds with the third value too. -/
theorem kleene_dual (c : Connective) (terms : List (Option Bool)) :
    c.dual.kleene (terms.map (·.map (!·))) = (c.kleene terms).map (!·) := by
  have hs (b : Bool) : some (!b) ∈ terms.map (·.map (!·)) ↔ some b ∈ terms := by
    constructor
    · intro h
      obtain ⟨t, ht, he⟩ := List.mem_map.mp h
      cases t with
      | none => simp at he
      | some a => simp_all
    · exact fun h => List.mem_map.mpr ⟨_, h, rfl⟩
  have hn : none ∈ terms.map (·.map (!·)) ↔ none ∈ terms := by simp
  have hd : c.dual.neutral = !c.neutral := by cases c <;> rfl
  simp only [kleene, hd, hs, hn]
  split
  · rfl
  · split <;> rfl

theorem kleene_ne_none (c : Connective) (terms : List (Option Bool)) (h : none ∉ terms) :
    c.kleene terms ≠ none := by
  simp only [kleene, if_neg h]
  split <;> simp

end Connective

namespace Expression

variable {m : Mapping} {row : Row}

/-- Expressions nest through lists, so the hypothesis of a group is about each of its members. -/
@[elab_as_elim]
theorem byMembers {motive : Expression → Prop}
    (test : ∀ property clause positive, motive (.test property clause positive))
    (group : ∀ operator expressions orders window,
      (∀ e ∈ expressions, motive e) → motive (.group operator expressions orders window))
    (raw : ∀ clause params, motive (.raw clause params)) (e : Expression) : motive e :=
  @Expression.rec motive (fun es => ∀ e ∈ es, motive e) test group raw (by simp)
    (fun _ _ he hes => List.forall_mem_cons.mpr ⟨he, hes⟩) e

/-- Whether the row passes. -/
def admits (m : Mapping) (row : Row) (e : Expression) : Bool :=
  (e.holds m row).toOption == some true

/-- True where the expression holds, false where its inverse does. -/
def leafTruth (m : Mapping) (row : Row) (leaf : Expression) : Option Bool :=
  if leaf.admits m row then some true
  else if leaf.invert.toOption.any (·.admits m row) then some false
  else none

mutual

/-- The leaves' truths, joined by Kleene's connectives at every depth. -/
def truth (m : Mapping) (row : Row) : Expression → Option Bool
  | .group operator expressions _ _ => operator.kleene (truths m row expressions)
  | leaf => leafTruth m row leaf

def truths (m : Mapping) (row : Row) : List Expression → List (Option Bool)
  | [] => []
  | e :: rest => truth m row e :: truths m row rest

end

mutual

/-- What is left of an expression without its groups. -/
def leaves : Expression → List Expression
  | .group _ expressions _ _ => leavesOfAll expressions
  | leaf => [leaf]

def leavesOfAll : List Expression → List Expression
  | [] => []
  | e :: rest => leaves e ++ leavesOfAll rest

end

theorem truths_eq_map (es : List Expression) : truths m row es = es.map (truth m row) := by
  induction es with
  | nil => rfl
  | cons e rest ih => rw [truths, ih, List.map_cons]

theorem verdicts_eq_map (es : List Expression) : verdicts m row es = es.map (holds m row) := by
  induction es with
  | nil => rfl
  | cons e rest ih => rw [verdicts, ih, List.map_cons]

theorem leavesOfAll_eq_flatMap (es : List Expression) : leavesOfAll es = es.flatMap leaves := by
  induction es with
  | nil => rfl
  | cons e rest ih => rw [leavesOfAll, ih, List.flatMap_cons]

theorem checkAll_eq_ok (es : List Expression) :
    checkAll m es = .ok () ↔ ∀ e ∈ es, check m e = .ok () := by
  induction es with
  | nil => simp [checkAll]
  | cons e rest ih =>
    rw [List.forall_mem_cons, ← ih, checkAll]
    cases he : check m e with
    | error f => simp
    | ok u => simp

theorem check_group {operator : Connective} {es : List Expression} {orders : List SortKey}
    {window : Window} :
    check m (.group operator es orders window) = .ok () ↔
      es ≠ [] ∧ ∀ e ∈ es, check m e = .ok () := by
  rw [check, ← checkAll_eq_ok]
  cases es <;> simp

/-- A test that passes the check is on a column of the mapping. -/
theorem check_test {property : String} {clause : Clause} {positive : Bool} :
    check m (.test property clause positive) = .ok () ↔
      (∃ found, m.find property = .ok found) ∧ clause.check property = .ok () := by
  rw [check]
  cases m.find property <;> simp

theorem holds_test {property : String} {clause : Clause} {i : Nat} {column : Column}
    (found : m.find property = .ok (i, column)) (positive : Bool) :
    holds m row (.test property clause positive) =
      .ok (clause.truth column.kind (row.cell i) == some positive) := by
  simp [holds, found, Clause.matchesCell]

theorem truth_test {property : String} {clause : Clause} {i : Nat} {column : Column}
    (found : m.find property = .ok (i, column)) (positive : Bool) :
    truth m row (.test property clause positive) =
      (clause.truth column.kind (row.cell i)).map (· == positive) := by
  simp only [truth, leafTruth, admits, invert, holds_test found, Except.toOption, Option.any]
  cases clause.truth column.kind (row.cell i) with
  | none => rfl
  | some b => cases b <;> cases positive <;> rfl

/-- An expression that passes the check holds exactly where it is true. -/
theorem holds_eq_truth {e : Expression} (checked : e.check m = .ok ()) :
    e.holds m row = .ok (e.truth m row == some true) := by
  induction e using byMembers with
  | test property clause positive =>
    obtain ⟨⟨found, hf⟩, -⟩ := check_test.mp checked
    rw [holds_test hf, truth_test hf]
    cases clause.truth found.2.kind (row.cell found.1) with
    | none => rfl
    | some b => cases b <;> cases positive <;> rfl
  | group operator es orders window ih =>
    obtain ⟨hne, hes⟩ := check_group.mp checked
    have members : es.map (holds m row) =
        (((es.map (truth m row)).map (· == some true)).map .ok) := by
      rw [List.map_map, List.map_map]
      exact List.map_congr_left fun e he => ih e he (hes e he)
    rw [holds, if_neg (by simpa using hne), verdicts_eq_map, members, Connective.combine_ok,
      Connective.decided_true, truth, truths_eq_map]
  | raw clause params => simp [check] at checked

/-- What inverting keeps and what it turns around. -/
def Complements (m : Mapping) (row : Row) (e inverse : Expression) : Prop :=
  e.invert = .ok inverse ∧ inverse.check m = .ok () ∧
    inverse.truth m row = (e.truth m row).map (!·)

theorem invertAll_complements {es : List Expression}
    (each : ∀ e ∈ es, ∃ inverse, Complements m row e inverse) :
    ∃ inverses, invertAll es = .ok inverses ∧ (∀ i ∈ inverses, i.check m = .ok ()) ∧
      inverses.map (truth m row) = (es.map (truth m row)).map (·.map (!·)) := by
  induction es with
  | nil => exact ⟨[], rfl, by simp, rfl⟩
  | cons e rest ih =>
    obtain ⟨⟨inverse, he, hc, ht⟩, hrest⟩ := List.forall_mem_cons.mp each
    obtain ⟨inverses, hi, hcs, hts⟩ := ih hrest
    refine ⟨inverse :: inverses, ?_, List.forall_mem_cons.mpr ⟨hc, hcs⟩, ?_⟩
    · simp [invertAll, he, hi]
    · rw [List.map_cons, ht, hts, List.map_cons, List.map_cons]

/-- Each expression that passes the check has an inverse that passes it too, and is false where
the expression is true. -/
theorem exists_complement {e : Expression} (checked : e.check m = .ok ()) :
    ∃ inverse, Complements m row e inverse := by
  induction e using byMembers with
  | test property clause positive =>
    obtain ⟨⟨found, hf⟩, hc⟩ := check_test.mp checked
    refine ⟨.test property clause !positive, rfl, check_test.mpr ⟨⟨found, hf⟩, hc⟩, ?_⟩
    rw [truth_test hf, truth_test hf, Option.map_map]
    cases clause.truth found.2.kind (row.cell found.1) with
    | none => rfl
    | some b => cases b <;> cases positive <;> rfl
  | group operator es orders window ih =>
    obtain ⟨hne, hes⟩ := check_group.mp checked
    obtain ⟨inverses, hi, hcs, hts⟩ :=
      invertAll_complements fun e he => ih e he (hes e he)
    have hne' : inverses ≠ [] := by
      intro h
      obtain rfl := h
      exact hne (by simpa using hts.symm)
    refine ⟨.group operator.dual inverses orders window, ?_, check_group.mpr ⟨hne', hcs⟩, ?_⟩
    · simp [invert, hi]
    · rw [truth, truths_eq_map, hts, Connective.kleene_dual, truth, truths_eq_map]
  | raw clause params => simp [check] at checked

theorem truth_ne_none {e : Expression} (known : ∀ leaf ∈ e.leaves, leaf.truth m row ≠ none) :
    e.truth m row ≠ none := by
  induction e using byMembers with
  | test property clause positive => exact known _ (by simp [leaves])
  | group operator es orders window ih =>
    rw [truth, truths_eq_map]
    refine Connective.kleene_ne_none operator _ fun h => ?_
    obtain ⟨e, he, ht⟩ := List.mem_map.mp h
    refine ih e he (fun leaf hl => known leaf ?_) ht
    rw [leaves, leavesOfAll_eq_flatMap]
    exact List.mem_flatMap.mpr ⟨e, he, hl⟩
  | raw clause params => exact known _ (by simp [leaves])

/-- An expression and its inverse are never both admitted, and one of them is where the truth is
known. -/
theorem admitted_once {e inverse : Expression} (checked : e.check m = .ok ())
    (inverted : e.invert = .ok inverse) :
    ¬(e.holds m row = .ok true ∧ inverse.holds m row = .ok true) := by
  obtain ⟨other, ho, hc, ht⟩ : ∃ other, Complements m row e other := exists_complement checked
  obtain rfl : other = inverse := Except.ok.inj (ho.symm.trans inverted)
  rw [holds_eq_truth checked, holds_eq_truth hc, ht]
  cases e.truth m row with
  | none => simp
  | some b => cases b <;> simp

theorem check_of_mem_leaves {e leaf : Expression} (checked : e.check m = .ok ())
    (mem : leaf ∈ e.leaves) : leaf.check m = .ok () := by
  induction e using byMembers with
  | test property clause positive => simp_all [leaves]
  | group operator es orders window ih =>
    rw [leaves, leavesOfAll_eq_flatMap] at mem
    obtain ⟨e, he, hl⟩ := List.mem_flatMap.mp mem
    exact ih e he ((check_group.mp checked).2 e he) hl
  | raw clause params => simp [check] at checked

end Expression

namespace Criteria

theorem check_of_validate {m : Mapping} {c : Criteria} (valid : c.validate m = .ok ()) :
    ∀ e ∈ c.expressions, e.check m = .ok () := by
  rw [← Expression.checkAll_eq_ok]
  cases h : Expression.checkAll m c.expressions with
  | ok u => rfl
  | error f => simp [validate, h] at valid

end Criteria

namespace Expression

/-- Filtering is three-valued and inverting negates: for each expression of valid criteria no leaf
is both true and false, the expression passes a row exactly when it is true and its inverse exactly
when it is false. So never do both pass, and one of them does where every leaf is known. -/
theorem holds_and_inverse {m : Mapping} {c : Criteria} {e : Expression}
    (valid : c.validate m = .ok ()) (member : e ∈ c.expressions) (row : Row) :
    (∀ leaf ∈ e.leaves, ∃ inverse, leaf.invert = .ok inverse ∧
      ¬(leaf.holds m row = .ok true ∧ inverse.holds m row = .ok true)) ∧
    ∃ inverse, e.invert = .ok inverse ∧
      e.holds m row = .ok (decide (e.truth m row = some true)) ∧
      inverse.holds m row = .ok (decide (e.truth m row = some false)) ∧
      ¬(e.holds m row = .ok true ∧ inverse.holds m row = .ok true) ∧
      ((∀ leaf ∈ e.leaves, leaf.truth m row ≠ none) →
        e.holds m row = .ok true ∨ inverse.holds m row = .ok true) := by
  have checked := Criteria.check_of_validate valid e member
  constructor
  · intro leaf hl
    have hc := check_of_mem_leaves checked hl
    obtain ⟨inverse, hi, -⟩ : ∃ inverse, Complements m row leaf inverse := exists_complement hc
    exact ⟨inverse, hi, admitted_once hc hi⟩
  obtain ⟨inverse, hi, hc, ht⟩ : ∃ inverse, Complements m row e inverse :=
    exists_complement checked
  have he : e.holds m row = _ := holds_eq_truth checked
  have hn : inverse.holds m row = _ := holds_eq_truth hc
  rw [ht] at hn
  refine ⟨inverse, hi, ?_, ?_, admitted_once checked hi, ?_⟩
  · rw [he]
    cases e.truth m row with
    | none => rfl
    | some b => cases b <;> rfl
  · rw [hn]
    cases e.truth m row with
    | none => rfl
    | some b => cases b <;> rfl
  · intro known
    have hk := truth_ne_none known
    rw [he, hn]
    cases h : e.truth m row with
    | none => exact absurd h hk
    | some b => cases b <;> simp

/-- Neither one on the list nor missing: a list with NULL on it, negated, inside a group. -/
def openList : Expression := .group .or
  [.test "n" (.inList [.of (.int32 1), .null none]) false, .test "n" (.equal (.null none)) true]
  [] .all

/-- On two, the group and its inverse both fail: the list with NULL leaves it open. -/
theorem holds_and_inverse_openList :
    ∃ inverse, openList.invert = .ok inverse ∧
      openList.holds ⟨⟨"", "t"⟩, [.optional "n" "n" .int32]⟩ [.of (.int32 2)] = .ok false ∧
      inverse.holds ⟨⟨"", "t"⟩, [.optional "n" "n" .int32]⟩ [.of (.int32 2)] = .ok false := by
  obtain ⟨-, inverse, hi, he, hn, -⟩ := holds_and_inverse
    (m := ⟨⟨"", "t"⟩, [.optional "n" "n" .int32]⟩) (c := .allOf [openList]) rfl
    (List.mem_singleton.mpr rfl) [.of (.int32 2)]
  exact ⟨inverse, hi, he, hn⟩

end Expression
end DataAccess
