import DataAccess.Proofs.Sql.Meaning
import DataAccess.Proofs.Sql.Spelling
import DataAccess.Proofs.Sql.Written

/-!
Filters are read back with the truth they have for a row: groups stand in parentheses, so what
connects their members reaches no further.
-/
namespace DataAccess

namespace Connective

theorem kleene_singleton (op : Connective) (t : Option Bool) : op.kleene [t] = t := by
  cases op <;> rcases t with _ | _ | _ <;> rfl

/-- Terms may be connected two by two. -/
theorem kleene_kleene (op : Connective) (a b : Option Bool) (rest : List (Option Bool)) :
    op.kleene (op.kleene [a, b] :: rest) = op.kleene (a :: b :: rest) := by
  cases op <;> rcases a with _ | _ | _ <;> rcases b with _ | _ | _ <;> simp [kleene, neutral]

theorem decided_eq (op : Connective) (terms : List Bool) :
    op.decided terms = match op with
      | .and => terms.all id
      | .or => terms.any id := by
  cases op with
  | and => by_cases h : false ∈ terms <;> simp [decided, neutral, h] 
  | or => by_cases h : true ∈ terms <;> simp [decided, neutral, h]

end Connective

namespace Sql

variable {ps qs : Pieces} {c : Condition} {apart after : Bool}

/-- Pieces are silent only where nothing is read. -/
theorem Spells.not_silent {i : Item} {items : List Item} (h : Spells apart ps after (i :: items)) :
    ps.isSilent = false := by
  by_contra silent
  rw [Bool.not_eq_false, Pieces.isSilent, List.all_eq_true] at silent
  have none : ps.tokens = [] := by
    refine List.flatMap_eq_nil_iff.mpr fun p hp => ?_
    have := silent p hp
    cases p with
    | text s =>
      obtain rfl : s = "" := by simpa [Piece.isSilent] using this
      rfl
    | bound v => rfl
    | _ => cases this
  have := h.read [] [] []
  rw [none] at this
  simp [pure] at this

/-- Pieces that are read as one item, a condition. -/
def Tight (ps : Pieces) (c : Condition) : Prop :=
  ∀ apart, Spells apart ps true [.condition c]

/-- What is read next does not belong to a condition before it. -/
def Stops (items : List Item) : Prop := ∀ op rest, items ≠ .token (.connective op) :: rest

/-- Pieces that are read as a condition, where nothing else belongs to it. -/
def Conveys (ps : Pieces) (c : Condition) : Prop :=
  ∃ items, (∀ apart, Spells apart ps true items) ∧
    ∀ rest, Stops rest → condition? (items ++ rest) = some (c, rest)

theorem conditionFrom_of_stops {rest : List Item} (h : Stops rest) (before : Option Condition)
    (c : Condition) : conditionFrom before c rest = (disjoined before c, rest) := by
  unfold conditionFrom
  split
  · exact absurd rfl (h _ _)
  · exact absurd rfl (h _ _)
  · rfl

/-- Conditions one after the other, connected. -/
def chained (op : Connective) (cs : List Condition) : List Item :=
  cs.flatMap fun c => [.token (.connective op), .condition c]

def gathered (op : Connective) (c : Condition) (cs : List Condition) : Condition :=
  cs.foldl (.connected op) c

theorem conditionFrom_chained_and {rest : List Item} (h : Stops rest) (before : Option Condition)
    (c : Condition) (cs : List Condition) :
    conditionFrom before c (chained .and cs ++ rest) =
      (disjoined before (gathered .and c cs), rest) := by
  induction cs generalizing c with
  | nil => exact conditionFrom_of_stops h before c
  | cons d cs ih => exact ih (.connected .and c d)

theorem conditionFrom_chained_or {rest : List Item} (h : Stops rest) (before : Option Condition)
    (c : Condition) (cs : List Condition) :
    conditionFrom before c (chained .or cs ++ rest) =
      (gathered .or (disjoined before c) cs, rest) := by
  induction cs generalizing before c with
  | nil => exact conditionFrom_of_stops h before c
  | cons d cs ih => exact ih (some (disjoined before c)) d

theorem condition?_chained (op : Connective) (c : Condition) (cs : List Condition)
    {rest : List Item} (h : Stops rest) :
    condition? (.condition c :: chained op cs ++ rest) = some (gathered op c cs, rest) := by
  cases op with
  | and => exact congrArg some (conditionFrom_chained_and h none c cs)
  | or => exact congrArg some (conditionFrom_chained_or h none c cs)

theorem Conveys.whole (h : Conveys ps c) :
    ∃ items, (∀ apart, Spells apart ps true items) ∧ condition? items = some (c, []) := by
  obtain ⟨items, spells, read⟩ := h
  exact ⟨items, spells, by simpa using read [] (by simp [Stops])⟩

theorem Conveys.parenthesized (h : Conveys ps c) : Tight ps.parenthesized c := by
  obtain ⟨items, spells, whole⟩ := h.whole
  have leaf : leaf? items = none := by
    cases items with
    | nil => simp [condition?] at whole
    | cons i rest => cases i <;> first | rfl | simp [condition?] at whole
  exact fun apart => (spells true).parenthesized (by simp [group?, leaf, whole, whole?])

theorem connective_spells (op : Connective) :
    Spells true [.text (" " ++ op.display ++ " ")] true [.token (.connective op)] := by
  cases op <;> exact ⟨rfl, fun _ _ _ => rfl⟩

theorem conjoined_spells (op : Connective) {p : Pieces} {ps : List Pieces} {c : Condition}
    {cs : List Condition} (h : Tight p c) (hs : List.Forall₂ Tight ps cs) (apart : Bool) :
    Spells apart (conjoined op (p :: ps)) true (.condition c :: chained op cs) := by
  induction hs generalizing p c apart with
  | nil => exact h apart
  | cons hq _ ih =>
    have between := ((h apart).append (connective_spells op)).append (ih hq true)
    have sounds := (h apart).not_silent
    simpa [conjoined, separated_cons_cons, sounds, chained] using between

theorem conjoined_conveys (op : Connective) {p : Pieces} {ps : List Pieces} {c : Condition}
    {cs : List Condition} (h : Tight p c) (hs : List.Forall₂ Tight ps cs) :
    Conveys (conjoined op (p :: ps)) (gathered op c cs) :=
  ⟨_, conjoined_spells op h hs, fun _ stops => condition?_chained op c cs stops⟩

theorem and_conveys {c' : Condition} (h : Tight ps c) (h' : Tight qs c') :
    Conveys (ps ++ .text " AND " :: qs) (.connected .and c c') := by
  have parts : conjoined .and [ps, qs] = ps ++ .text " AND " :: qs := by
    rw [conjoined, separated_cons_cons, (h true).not_silent]
    simp [separated]
    rfl
  exact parts ▸ conjoined_conveys .and h (.cons h' .nil)

/-- One condition needs no parentheses. -/
theorem conjoined_tight (op : Connective) {p : Pieces} {ps : List Pieces} {c : Condition}
    {cs : List Condition} (h : Tight p c) (hs : List.Forall₂ Tight ps cs) :
    Tight ((conjoined op (p :: ps)).parenthesizedIf (decide (1 < (p :: ps).length)))
      (gathered op c cs) := by
  cases hs with
  | nil => simpa [conjoined, separated, Pieces.parenthesizedIf, gathered] using h
  | cons hq hs =>
    have := (conjoined_conveys op h (.cons hq hs)).parenthesized
    simpa [Pieces.parenthesizedIf] using this

variable {ρ : Type} {scope : Scope ρ} {row : ρ → Row} {ctx : Context} {m : Mapping}

/-- Connected conditions are connected in meaning. -/
theorem meaning?_gathered {α : Type} {truth : α → ρ → Option Bool} (op : Connective)
    {c : Condition} {cs : List Condition} {a : α} {as : List α}
    (h : c.meaning? scope = some (truth a))
    (hs : List.Forall₂ (fun c a => c.meaning? scope = some (truth a)) cs as) :
    (gathered op c cs).meaning? scope = some fun r => op.kleene ((a :: as).map (truth · r)) := by
  have general {cs : List Condition} {as : List α}
      (hs : List.Forall₂ (fun c a => c.meaning? scope = some (truth a)) cs as) :
      ∀ {c : Condition} {f : ρ → Option Bool}, c.meaning? scope = some f →
        (gathered op c cs).meaning? scope =
          some fun r => op.kleene (f r :: as.map (truth · r)) := by
    induction hs with
    | nil =>
      intro c f hf
      simpa [gathered, Connective.kleene_singleton] using hf
    | @cons d b _ _ hd _ ih =>
      intro c f hf
      have pair : (Condition.connected op c d).meaning? scope =
          some fun r => op.kleene [f r, truth b r] := by
        simp [Condition.meaning?, hf, hd]
      have := ih pair
      simp only [Connective.kleene_kleene] at this
      exact this
  simpa using general hs h

/-- The columns of the table have their names in the context. -/
def Sees (scope : Scope ρ) (ctx : Context) (m : Mapping) (row : ρ → Row) : Prop :=
  ∀ c : Column, scope (reference ctx c) = cells m row c.name

theorem meaning?_test (distinct : m.labels.Nodup) (sees : Sees scope ctx m row) {property : String}
    {i : Nat} {c : Column} (found : m.find property = .ok (i, c)) (clause : Clause)
    (positive : Bool) :
    (Condition.test (reference ctx c) (standing clause) positive).meaning? scope =
      some fun r => (Expression.test property clause positive).truth m (row r) := by
  simp [Condition.meaning?, sees c, cells, Mapping.named?_of_find distinct found, truth_standing,
    Expression.truth_test found]

variable {α : Type} {written : α → Outcome Pieces} {truth : α → ρ → Option Bool}

/-- What is written of one term is read back as one condition, with its truth. -/
def Conveyed (scope : Scope ρ) (written : Outcome Pieces) (truth : ρ → Option Bool) : Prop :=
  ∃ ps c, written = .ok ps ∧ Tight ps c ∧ c.meaning? scope = some truth

theorem exists_conveyed {as : List α} (each : ∀ a ∈ as, Conveyed scope (written a) (truth a)) :
    ∃ ps cs, as.mapM written = .ok ps ∧ List.Forall₂ Tight ps cs ∧
      List.Forall₂ (fun c a => c.meaning? scope = some (truth a)) cs as := by
  induction as with
  | nil => exact ⟨[], [], rfl, .nil, .nil⟩
  | cons a rest ih =>
    obtain ⟨⟨p, c, hp, tight, means⟩, hrest⟩ := List.forall_mem_cons.mp each
    obtain ⟨ps, cs, hps, tights, meanings⟩ := ih hrest
    exact ⟨p :: ps, c :: cs, Outcome.mapM_cons.mpr ⟨p, ps, hp, hps, rfl⟩, .cons tight tights,
      .cons means meanings⟩

/-- Connected terms are read back as a condition that connects their truths. -/
theorem connected_conveyed {as : List α} (nonempty : as ≠ []) (op : Connective)
    (each : ∀ a ∈ as, Conveyed scope (written a) (truth a)) :
    ∃ ps c, as.mapM written = .ok ps ∧ Conveys (conjoined op ps) c ∧
      Tight ((conjoined op ps).parenthesizedIf (decide (1 < as.length))) c ∧
      c.meaning? scope = some fun r => op.kleene (as.map (truth · r)) := by
  obtain ⟨ps, cs, hps, tights, meanings⟩ := exists_conveyed each
  cases meanings with
  | nil => exact absurd rfl nonempty
  | cons means meanings =>
    cases tights with
    | cons tight tights =>
      refine ⟨_, _, hps, conjoined_conveys op tight tights, ?_, meaning?_gathered op means meanings⟩
      have := conjoined_tight op tight tights
      rwa [List.length_cons, tights.length_eq, meanings.length_eq] at this

/-- An expression is read back as one condition, with its truth. -/
theorem expression_conveyed (distinct : m.labels.Nodup) (known : ctx.qualifier ∈ qualifiers)
    (sees : Sees scope ctx m row) {e : Expression} (checked : e.check m = .ok ()) :
    Conveyed scope (expression ctx m e) fun r => e.truth m (row r) := by
  induction e using Expression.byMembers with
  | test property clause positive =>
    obtain ⟨⟨⟨i, c⟩, found⟩, hc⟩ := Expression.check_test.mp checked
    refine ⟨_, _, ?_, fun apart => test_spells known hc positive,
      meaning?_test distinct sees found clause positive⟩
    simp [expression, found, hc]
  | group operator es orders window ih =>
    obtain ⟨nonempty, hes⟩ := Expression.check_group.mp checked
    obtain ⟨ps, c, hps, conveys, -, means⟩ :=
      connected_conveyed nonempty operator fun e he => ih e he (hes e he)
    have hps := expressionList_eq_ok.mpr hps
    refine ⟨_, c, ?_, conveys.parenthesized, ?_⟩
    · simp [expression, nonempty, hps]
    · rw [means]
      simp only [Expression.truth, Expression.truths_eq_map]
  | raw clause params => simp [Expression.check] at checked

/-- A filter is read back as a condition with its truth. -/
theorem filter_conveyed (distinct : m.labels.Nodup) (known : ctx.qualifier ∈ qualifiers)
    (sees : Sees scope ctx m row) {f : Criteria} (nonempty : f.isEmpty = false)
    (valid : ∀ e ∈ f.expressions, e.check m = .ok ()) :
    ∃ ps c, filter ctx m f = .ok ps ∧ Conveys ps c ∧
      Tight (ps.parenthesizedIf (decide (1 < f.expressions.length))) c ∧
      c.meaning? scope = some fun r => f.truth m (row r) := by
  have terms : f.expressions ≠ [] := by simpa [Criteria.isEmpty] using nonempty
  obtain ⟨ps, c, hps, conveys, tight, means⟩ := connected_conveyed terms f.operator fun e he =>
    expression_conveyed distinct known sees (valid e he)
  have hps := expressionList_eq_ok.mpr hps
  refine ⟨_, c, ?_, conveys, tight, means⟩
  simp [filter, expressions, hps]

end Sql
end DataAccess
