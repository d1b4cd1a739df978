import DataAccess.Evaluation.Clause
import DataAccess.Proofs.Sql.Reading
import DataAccess.Sql.Filter
import DataAccess.Sql.Join

/-! Clauses are read back from what is written of them, NULLs and cases apart. -/
namespace DataAccess.Sql

/-- Pieces that are read as certain items, whatever is around them. -/
structure Spells (apart : Bool) (ps : Pieces) (after : Bool) (items : List Item) : Prop where
  spaced : ps.spaced apart = some after
  read : ∀ params frame outer, ps.tokens.foldlM Reader.push ⟨ps.params ++ params, frame :: outer⟩ =
    some ⟨params, (items.reverse ++ frame) :: outer⟩

namespace Pieces

/-- Pieces that make no difference to a reader, such as a text in one piece or in two. -/
structure Same (ps qs : Pieces) : Prop where
  spaced : ∀ apart, ps.spaced apart = qs.spaced apart
  tokens : ps.tokens = qs.tokens
  params : ps.params = qs.params

theorem Same.refl (ps : Pieces) : Same ps ps := ⟨fun _ => rfl, rfl, rfl⟩

theorem Same.append {ps ps' qs qs' : Pieces} (h : Same ps ps') (h' : Same qs qs') :
    Same (ps ++ qs) (ps' ++ qs') where
  spaced apart := by
    rw [spaced_append, spaced_append, h.spaced]
    exact congrArg _ (funext h'.spaced)
  tokens := by rw [tokens_append, tokens_append, h.tokens, h'.tokens]
  params := by rw [params_append, params_append, h.params, h'.params]

end Pieces

namespace Spells

variable {ps qs : Pieces} {apart mid after : Bool} {xs ys : List Item}

theorem append (h : Spells apart ps mid xs) (h' : Spells mid qs after ys) :
    Spells apart (ps ++ qs) after (xs ++ ys) where
  spaced := by rw [Pieces.spaced_append, h.spaced, Option.bind_some, h'.spaced]
  read params frame outer := by
    rw [Pieces.tokens_append, Pieces.params_append, List.foldlM_append, List.append_assoc, h.read]
    simp [h'.read]

theorem congr (h : Spells apart ps after xs) (same : qs.Same ps) : Spells apart qs after xs where
  spaced := (same.spaced apart).trans h.spaced
  read := by
    rw [same.tokens, same.params]
    exact h.read

/-- What stands in parentheses is read as one item. -/
theorem parenthesized (h : Spells true ps after xs) {i : Item} (group : group? xs = some i) :
    Spells apart ps.parenthesized true [i] where
  spaced := by
    have opened : Pieces.spaced apart [.text "("] = some true := by cases apart <;> rfl
    have closed : Pieces.spaced after [.text ")"] = some true := by cases after <;> rfl
    have parts : ps.parenthesized = [.text "("] ++ ps ++ [.text ")"] := rfl
    rw [parts, Pieces.spaced_append, Pieces.spaced_append, opened, Option.bind_some, h.spaced,
      Option.bind_some, closed]
  read params frame outer := by
    have parts : ps.parenthesized.tokens = .opening :: (ps.tokens ++ [.closing]) := by
      simp [Pieces.parenthesized, Pieces.tokens, Piece.tokens]
      rfl
    have same : ps.parenthesized.params = ps.params := by
      simp [Pieces.parenthesized, Pieces.params, Piece.value?]
    rw [parts, same, List.foldlM_cons]
    simp [Reader.push, h.read, group, Reader.add]

end Spells

/-- The contexts of conditions: a table by itself, or a side of a join. -/
def qualifiers : List String := ["", leftAlias, rightAlias]

def reference (ctx : Context) (c : Column) : ColumnRef :=
  ⟨if ctx.qualifier = "" then none else some ctx.qualifier, c.name⟩

def referenceItems (r : ColumnRef) : List Item :=
  match r.qualifier with
  | none => [.token (.name r.name)]
  | some q => [.token (.word q), .token .dot, .token (.name r.name)]

variable {ctx : Context} {c : Column} {apart after : Bool}

theorem column_cases (known : ctx.qualifier ∈ qualifiers) (c : Column) :
    (column ctx c = [.name c.name] ∧ reference ctx c = ⟨none, c.name⟩) ∨
      (column ctx c = [.text "la.", .name c.name] ∧ reference ctx c = ⟨some "la", c.name⟩) ∨
      (column ctx c = [.text "rb.", .name c.name] ∧ reference ctx c = ⟨some "rb", c.name⟩) := by
  obtain ⟨part, q⟩ := ctx
  simp only [qualifiers, List.mem_cons, List.not_mem_nil, or_false] at known
  rcases known with rfl | rfl | rfl
  · exact .inl ⟨rfl, rfl⟩
  · exact .inr (.inl ⟨rfl, rfl⟩)
  · exact .inr (.inr ⟨rfl, rfl⟩)

theorem column_spells (known : ctx.qualifier ∈ qualifiers) :
    Spells true (column ctx c) false (referenceItems (reference ctx c)) := by
  rcases column_cases known c with ⟨hc, hr⟩ | ⟨hc, hr⟩ | ⟨hc, hr⟩ <;> rw [hc, hr] <;>
    exact ⟨rfl, fun _ _ _ => rfl⟩

theorem column?_reference (r : ColumnRef) (items : List Item) :
    column? (referenceItems r ++ items) = some (r, items) := by
  obtain ⟨q, name⟩ := r
  cases q <;> rfl

theorem asked_spells (known : ctx.qualifier ∈ qualifiers) {ps : Pieces} (items : List Item)
    (h : Spells false ps after items) {condition : Condition}
    (asked : asked? (reference ctx c) items = some condition) :
    Spells apart (column ctx c ++ ps).parenthesized true [.condition condition] := by
  refine ((column_spells known).append h).parenthesized ?_
  simp [group?, leaf?, column?_reference, asked]

/-- The clause that is read back. All NULLs are one, and have no case. -/
def standing : Clause → Clause
  | .equal v => if v.isNull then .equal (.null none) else .equal v
  | .equalIgnoringCase v => if v.isNull then .equal (.null none) else .equalIgnoringCase v
  | clause => clause

theorem truth_standing (clause : Clause) (kind : Option Kind) (cell : Value) :
    (standing clause).truth kind cell = clause.truth kind cell := by
  cases clause with
  | equal v => cases v <;> rfl
  | equalIgnoringCase v => cases v <;> rfl
  | _ => rfl

theorem nullTest_spells (known : ctx.qualifier ∈ qualifiers) (positive : Bool) :
    Spells apart (column ctx c ++ nullTest positive).parenthesized true
      [.condition (.test (reference ctx c) (.equal (.null none)) positive)] := by
  cases positive with
  | true =>
    exact asked_spells known [.token (.keyword .is), .token (.keyword .null)]
      ⟨rfl, fun _ _ _ => rfl⟩ rfl
  | false =>
    exact asked_spells known
      [.token (.keyword .is), .token (.keyword .not), .token (.keyword .null)]
      ⟨rfl, fun _ _ _ => rfl⟩ rfl

theorem relation_spells (r : Relation) (positive : Bool) :
    Spells false [.text (relation r positive)] true [.token (.comparison r positive)] := by
  cases r <;> cases positive <;> exact ⟨rfl, fun _ _ _ => rfl⟩

theorem parameter_spells (v : Value) : Spells true [.parameter v] true [.value v] :=
  ⟨rfl, fun _ _ _ => rfl⟩

theorem compared_spells (known : ctx.qualifier ∈ qualifiers) (r : Relation) {positive : Bool}
    {s : String} (hs : relation r positive = s) {v : Value} (h : r = .equal → v.isNull = false) :
    Spells apart (column ctx c ++ [Piece.text s, .parameter v]).parenthesized true
      [.condition (.test (reference ctx c) (relationClause r v) positive)] := by
  subst hs
  refine asked_spells known [.token (.comparison r positive), .value v]
    ((relation_spells r positive).append (parameter_spells v)) ?_
  have : ¬(r = .equal ∧ v.isNull = true) := fun ⟨hr, hv⟩ => by simp [h hr] at hv
  simp [asked?, compared?, this]

theorem between_spells (known : ctx.qualifier ∈ qualifiers) (low high : Value) (positive : Bool) :
    Spells apart (clause (column ctx c) positive (.between low high)).parenthesized true
      [.condition (.test (reference ctx c) (.between low high) positive)] := by
  have lower : Spells false [.text (if positive then " >= " else " < "), .parameter low,
      .text (if positive then " AND " else " OR ")] true [.token (.comparison .lesser !positive),
        .value low, .token (.connective (if positive then .and else .or))] := by
    cases positive <;> exact ⟨rfl, fun _ _ _ => rfl⟩
  have upper : Spells false [.text (if positive then " <= " else " > "), .parameter high] true
      [.token (.comparison .greater !positive), .value high] := by
    cases positive <;> exact ⟨rfl, fun _ _ _ => rfl⟩
  rw [clause, List.append_assoc, List.append_assoc]
  refine asked_spells known _ (lower.append ((column_spells known).append upper)) ?_
  cases positive <;> simp [asked?, compared?, column?_reference]

theorem like_spells (known : ctx.qualifier ∈ qualifiers) (pattern : String) (positive : Bool) :
    Spells apart (clause (column ctx c) positive (.like pattern)).parenthesized true
      [.condition (.test (reference ctx c) (.like pattern) positive)] := by
  cases positive with
  | true =>
    exact asked_spells known [.token (.keyword .like), .value (.of (.varchar pattern))]
      ⟨rfl, fun _ _ _ => rfl⟩ rfl
  | false =>
    exact asked_spells known
      [.token (.keyword .not), .token (.keyword .like), .value (.of (.varchar pattern))]
      ⟨rfl, fun _ _ _ => rfl⟩ rfl

theorem equalIgnoringCase_spells (known : ctx.qualifier ∈ qualifiers) {v : Value}
    (h : v.isNull = false) (positive : Bool) :
    Spells apart (clause (column ctx c) positive (.equalIgnoringCase v)).parenthesized true
      [.condition (.test (reference ctx c) (.equalIgnoringCase v) positive)] := by
  have content : Spells true (clause (column ctx c) positive (.equalIgnoringCase v)) true
      [.token (.keyword .lower), .column (reference ctx c), .token (.comparison .equal positive),
        .token (.keyword .lower), .values [v]] := by
    simp only [clause, h, Bool.false_eq_true, if_false]
    rcases column_cases known c with ⟨hc, hr⟩ | ⟨hc, hr⟩ | ⟨hc, hr⟩ <;> rw [hc, hr] <;>
      cases positive <;> exact ⟨rfl, fun _ _ _ => rfl⟩
  refine content.parenthesized ?_
  simp [group?, leaf?, column?, folded?, h]

theorem likeIgnoringCase_spells (known : ctx.qualifier ∈ qualifiers) (pattern : String)
    (positive : Bool) :
    Spells apart (clause (column ctx c) positive (.likeIgnoringCase pattern)).parenthesized true
      [.condition (.test (reference ctx c) (.likeIgnoringCase pattern) positive)] := by
  have content : Spells true (clause (column ctx c) positive (.likeIgnoringCase pattern)) true
      ([.token (.keyword .lower), .column (reference ctx c)] ++
        (if positive then [] else [.token (.keyword .not)]) ++
        [.token (.keyword .like), .token (.keyword .lower), .values [.of (.varchar pattern)]]) := by
    rw [clause]
    rcases column_cases known c with ⟨hc, hr⟩ | ⟨hc, hr⟩ | ⟨hc, hr⟩ <;> rw [hc, hr] <;>
      cases positive <;> exact ⟨rfl, fun _ _ _ => rfl⟩
  refine content.parenthesized ?_
  cases positive <;> rfl

theorem hasBits_spells (known : ctx.qualifier ∈ qualifiers) (mask : Int64) (positive : Bool) :
    Spells apart (clause (column ctx c) positive (.hasBits mask)).parenthesized true
      [.condition (.test (reference ctx c) (.hasBits mask) positive)] := by
  have content : Spells true (clause (column ctx c) positive (.hasBits mask)) true
      [.masked (reference ctx c) (.of (.int64 mask)), .token (.comparison .equal positive),
        .value (.of (.int64 mask))] := by
    rw [clause]
    rcases column_cases known c with ⟨hc, hr⟩ | ⟨hc, hr⟩ | ⟨hc, hr⟩ <;> rw [hc, hr] <;>
      cases positive <;> exact ⟨rfl, fun _ _ _ => rfl⟩
  refine content.parenthesized ?_
  simp [group?, leaf?, column?, folded?]

def valueItems : List Value → List Item
  | [] => []
  | [v] => [.value v]
  | v :: rest => .value v :: .token .comma :: valueItems rest

theorem values?_valueItems {vs : List Value} (h : vs ≠ []) : values? (valueItems vs) = some vs := by
  induction vs with
  | nil => exact absurd rfl h
  | cons v rest ih =>
    cases rest with
    | nil => rfl
    | cons w rest => simp [valueItems, values?, ih]

theorem values_spells (vs : List Value) :
    Spells true (separated ", " (vs.map fun v => [.parameter v])) true (valueItems vs) := by
  induction vs with
  | nil => exact ⟨rfl, fun _ _ _ => rfl⟩
  | cons v rest ih =>
    cases rest with
    | nil => exact parameter_spells v
    | cons w rest =>
      have comma : Spells true [.text ", "] true [.token .comma] := ⟨rfl, fun _ _ _ => rfl⟩
      exact ((parameter_spells v).append comma).append ih

theorem group?_valueItems {vs : List Value} (h : vs ≠ []) :
    group? (valueItems vs) = some (.values vs) := by
  obtain ⟨v, rest, rfl⟩ := List.exists_cons_of_ne_nil h
  obtain ⟨items, hi⟩ : ∃ items, valueItems (v :: rest) = .value v :: items := by
    cases rest <;> exact ⟨_, rfl⟩
  have read := values?_valueItems h
  rw [hi] at read ⊢
  simp [group?, leaf?, column?, folded?, condition?, whole?, read]

theorem inList_spells (known : ctx.qualifier ∈ qualifiers) {operands : List Value}
    (h : operands ≠ []) (positive : Bool) :
    Spells apart (clause (column ctx c) positive (.inList operands)).parenthesized true
      [.condition (.test (reference ctx c) (.inList operands) positive)] := by
  have lead : Spells false [.text (if positive then " IN " else " NOT IN ")] true
      ((if positive then [] else [.token (.keyword .not)]) ++ [.token (.keyword .in)]) := by
    cases positive <;> exact ⟨rfl, fun _ _ _ => rfl⟩
  have values : Spells true _ true [.values operands] :=
    (values_spells operands).parenthesized (group?_valueItems h)
  have opened : Pieces.Same [.text (if positive then " IN (" else " NOT IN (")]
      [.text (if positive then " IN " else " NOT IN "), .text "("] := by
    cases positive <;> exact ⟨fun apart => by cases apart <;> rfl, rfl, rfl⟩
  have list := (lead.append values).congr (opened.append (.refl (_ ++ [.text ")"])))
  rw [clause, List.append_assoc, List.append_assoc]
  refine asked_spells known _ list ?_
  cases positive <;> rfl

theorem test_spells (known : ctx.qualifier ∈ qualifiers) {cl : Clause} {property : String}
    (checked : cl.check property = .ok ()) (positive : Bool) :
    Spells apart (clause (column ctx c) positive cl).parenthesized true
      [.condition (.test (reference ctx c) (standing cl) positive)] := by
  cases cl with
  | equal v =>
    by_cases h : v.isNull
    · simp only [clause, standing, if_pos h]
      exact nullTest_spells known positive
    · simp only [clause, standing, if_neg h]
      exact compared_spells known .equal (by cases positive <;> rfl) fun _ => by simpa using h
  | equalIgnoringCase v =>
    by_cases h : v.isNull
    · simp only [clause, standing, if_pos h]
      exact nullTest_spells known positive
    · simp only [standing, if_neg h]
      exact equalIgnoringCase_spells known (by simpa using h) positive
  | greater v => exact compared_spells known .greater (by cases positive <;> rfl) nofun
  | lesser v => exact compared_spells known .lesser (by cases positive <;> rfl) nofun
  | between low high => exact between_spells known low high positive
  | like pattern => exact like_spells known pattern positive
  | likeIgnoringCase pattern => exact likeIgnoringCase_spells known pattern positive
  | hasBits mask => exact hasBits_spells known mask positive
  | inList operands =>
    refine inList_spells known ?_ positive
    intro h
    obtain rfl := h
    simp [Clause.check] at checked

end DataAccess.Sql
