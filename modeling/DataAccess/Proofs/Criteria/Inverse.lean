import DataAccess.Proofs.Criteria.Truth
import DataAccess.Proofs.Outcome

/-!
Inverting expressions and criteria. An engine's own clause cannot be inverted, and the first one is
told. Everything else can, and inverting again gives it back.
-/
namespace DataAccess

theorem Connective.dual_dual (c : Connective) : c.dual.dual = c := by cases c <;> rfl

namespace Expression

/-- The text of an engine's own clause. -/
def ownText? : Expression → Option String
  | .raw clause _ => some clause
  | _ => none

/-- The engines' own clauses at any depth, from left to right. -/
def ownTexts (e : Expression) : List String := e.leaves.filterMap ownText?

mutual

/-- The properties referred to at any depth, from left to right; sort keys follow what they sort. -/
def mentions : Expression → List String
  | .test property _ _ => [property]
  | .group _ expressions orders _ => mentionsOfAll expressions ++ orders.map (·.property)
  | .raw .. => []

def mentionsOfAll : List Expression → List String
  | [] => []
  | e :: rest => mentions e ++ mentionsOfAll rest

end

mutual

/-- Every test and every connective turned around, at any depth. -/
def opposite : Expression → Expression
  | .test property clause positive => .test property clause !positive
  | .group operator expressions orders window =>
    .group operator.dual (oppositeOfAll expressions) orders window
  | .raw clause params => .raw clause params

def oppositeOfAll : List Expression → List Expression
  | [] => []
  | e :: rest => opposite e :: oppositeOfAll rest

end

variable {operator : Connective} {es : List Expression} {orders : List SortKey} {window : Window}

theorem mentionsOfAll_eq_flatMap (es : List Expression) :
    mentionsOfAll es = es.flatMap mentions := by
  induction es with
  | nil => rfl
  | cons e rest ih => rw [mentionsOfAll, ih, List.flatMap_cons]

theorem oppositeOfAll_eq_map (es : List Expression) : oppositeOfAll es = es.map opposite := by
  induction es with
  | nil => rfl
  | cons e rest ih => rw [oppositeOfAll, ih, List.map_cons]

theorem ownTexts_group : ownTexts (.group operator es orders window) = es.flatMap ownTexts := by
  rw [ownTexts, leaves, leavesOfAll_eq_flatMap, List.filterMap_flatMap]
  rfl

theorem opposite_opposite (e : Expression) : e.opposite.opposite = e := by
  induction e using byMembers with
  | test property clause positive => simp [opposite]
  | group operator es orders window ih =>
    have members : (es.map opposite).map opposite = es := by
      rw [List.map_map]
      exact (List.map_congr_left ih).trans (List.map_id es)
    rw [opposite, opposite, oppositeOfAll_eq_map, oppositeOfAll_eq_map, members, operator.dual_dual]
  | raw clause params => simp [opposite]

theorem ownTexts_opposite (e : Expression) : e.opposite.ownTexts = e.ownTexts := by
  induction e using byMembers with
  | test property clause positive => rfl
  | group operator es orders window ih =>
    rw [opposite, oppositeOfAll_eq_map, ownTexts_group, ownTexts_group, List.flatMap_map]
    exact List.flatMap_congr ih
  | raw clause params => simp [opposite]

theorem mentions_opposite (e : Expression) : e.opposite.mentions = e.mentions := by
  induction e using byMembers with
  | test property clause positive => simp [opposite, mentions]
  | group operator es orders window ih =>
    have members : (es.map opposite).flatMap mentions = es.flatMap mentions := by
      rw [List.flatMap_map]
      exact List.flatMap_congr ih
    rw [opposite, mentions, mentions, mentionsOfAll_eq_flatMap, mentionsOfAll_eq_flatMap,
      oppositeOfAll_eq_map, members]
  | raw clause params => simp [opposite]

/-- The result, unless there are engines' own clauses: the first one is told. -/
def unlessOwn {α : Type} (result : α) : List String → Outcome α
  | [] => .ok result
  | clause :: _ => .error (.unsupportedInvert clause)

theorem invertAll_eq (each : ∀ e ∈ es, e.invert = unlessOwn e.opposite e.ownTexts) :
    invertAll es = unlessOwn (es.map opposite) (es.flatMap ownTexts) := by
  induction es with
  | nil => rfl
  | cons e rest ih =>
    obtain ⟨first, others⟩ := List.forall_mem_cons.mp each
    rw [invertAll, first, ih others, List.flatMap_cons, List.map_cons]
    cases e.ownTexts with
    | cons clause more => rfl
    | nil => cases rest.flatMap ownTexts <;> rfl

theorem invert_eq (e : Expression) : e.invert = unlessOwn e.opposite e.ownTexts := by
  induction e using byMembers with
  | test property clause positive => rfl
  | group operator es orders window ih =>
    rw [invert, invertAll_eq ih, ownTexts_group, opposite, oppositeOfAll_eq_map]
    cases es.flatMap ownTexts <;> rfl
  | raw clause params => rfl

end Expression

namespace Criteria

def ownTexts (c : Criteria) : List String := c.grouped.ownTexts
def mentions (c : Criteria) : List String := c.grouped.mentions

def opposite (c : Criteria) : Criteria :=
  { c with expressions := c.expressions.map .opposite, operator := c.operator.dual }

theorem grouped_opposite (c : Criteria) : c.opposite.grouped = c.grouped.opposite := by
  rw [grouped, grouped, Expression.opposite, Expression.oppositeOfAll_eq_map]
  rfl

theorem opposite_opposite (c : Criteria) : c.opposite.opposite = c := by
  have members : (c.expressions.map Expression.opposite).map .opposite = c.expressions := by
    rw [List.map_map]
    exact List.map_id'' Expression.opposite_opposite c.expressions
  rw [opposite, opposite, members, c.operator.dual_dual]

theorem invert_eq (c : Criteria) : c.invert = Expression.unlessOwn c.opposite c.ownTexts := by
  have members := Expression.invertAll_eq fun e (_ : e ∈ c.expressions) => e.invert_eq
  rw [invert, members, ownTexts, grouped, Expression.ownTexts_group]
  cases c.expressions.flatMap Expression.ownTexts <;> rfl

end Criteria

/-- Inverting fails just where an engine's own clause is in the way, and tells the first one.
Otherwise it is undone by inverting again, and the same properties are referred to. -/
structure Invertible {α : Type} (invert : α → Outcome α) (ownTexts mentions : α → List String)
    (a : α) : Prop where
  fails_iff : (∃ f, invert a = .error f) ↔ ownTexts a ≠ []
  first : ∀ clause rest, ownTexts a = clause :: rest →
    invert a = .error (.unsupportedInvert clause)
  undone : ∀ inverse, invert a = .ok inverse →
    invert inverse = .ok a ∧ mentions inverse = mentions a

theorem Invertible.of_opposite {α : Type} {invert : α → Outcome α}
    {ownTexts mentions : α → List String} {opposite : α → α}
    (inverted : ∀ a, invert a = Expression.unlessOwn (opposite a) (ownTexts a))
    (back : ∀ a, opposite (opposite a) = a) (own : ∀ a, ownTexts (opposite a) = ownTexts a)
    (mentioned : ∀ a, mentions (opposite a) = mentions a) (a : α) :
    Invertible invert ownTexts mentions a where
  fails_iff := by
    rw [inverted]
    cases ownTexts a <;> simp [Expression.unlessOwn]
  first clause rest h := by rw [inverted, h, Expression.unlessOwn]
  undone inverse h := by
    rw [inverted] at h
    cases none : ownTexts a with
    | cons clause rest => simp [none, Expression.unlessOwn] at h
    | nil =>
      rw [none] at h
      obtain rfl := Except.ok.inj h
      refine ⟨?_, mentioned a⟩
      rw [inverted, own, none, back, Expression.unlessOwn]

/-- Expressions and criteria are inverted at every depth, or not at all. -/
theorem invert_twice :
    (∀ e, Invertible Expression.invert Expression.ownTexts Expression.mentions e) ∧
      ∀ c, Invertible Criteria.invert Criteria.ownTexts Criteria.mentions c := by
  constructor
  · exact .of_opposite Expression.invert_eq Expression.opposite_opposite
      Expression.ownTexts_opposite Expression.mentions_opposite
  · refine .of_opposite Criteria.invert_eq Criteria.opposite_opposite (fun c => ?_) fun c => ?_
    · exact (congrArg _ c.grouped_opposite).trans c.grouped.ownTexts_opposite
    · exact (congrArg _ c.grouped_opposite).trans c.grouped.mentions_opposite

example : Expression.invert (.group .and [.test "flags" (.hasBits 6) true,
    .group .or [.raw "a = b" [], .raw "c = d" []] [] .all] [] .all) =
      .error (.unsupportedInvert "a = b") := rfl

end DataAccess
