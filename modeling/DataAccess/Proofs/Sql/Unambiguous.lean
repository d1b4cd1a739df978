import DataAccess.Proofs.Criteria.Portable
import DataAccess.Proofs.Sql.JoinParts
import DataAccess.Proofs.Sql.Qualified

/-!
Filters with the same text and the same parameters admit the same rows: the text is read back as a
condition, and the condition has their truth.
-/
namespace DataAccess

namespace Sql

variable {d : Dialect} {ctx : Context} {m : Mapping}

/-- What can be written can be evaluated, an engine's own text apart. -/
theorem check_of_written {e : Expression} (rawFree : e.RawFree) {ps : Pieces}
    (written : expression ctx m e = .ok ps) : e.check m = .ok () := by
  induction e using Expression.byMembers generalizing ps with
  | test property cl positive =>
    obtain ⟨i, c, found, checked, -⟩ := expression_test.mp written
    exact Expression.check_test.mpr ⟨⟨(i, c), found⟩, checked⟩
  | group operator es orders window ih =>
    obtain ⟨nonempty, items, hitems, -⟩ := expression_group.mp written
    refine Expression.check_group.mpr ⟨nonempty, fun e he => ?_⟩
    obtain ⟨p, hp⟩ := Outcome.exists_mapM_eq_ok.mp ⟨items, hitems⟩ e he
    exact ih e he (rawFree.member e he) hp
  | raw cl params => exact absurd rawFree (Expression.not_rawFree_raw cl params)

theorem separated_plain {separator : String} (plain : (Piece.text separator).isPlain = true)
    {items : List Pieces} (each : ∀ ps ∈ items, ps.isPlain = true) :
    Pieces.isPlain (separated separator items) = true := by
  induction items with
  | nil => rfl
  | cons item rest ih =>
    obtain ⟨first, others⟩ := List.forall_mem_cons.mp each
    cases rest with
    | nil => exact first
    | cons next rest =>
      have between : Pieces.isPlain (if item.isSilent then [] else [.text separator]) = true := by
        split
        · rfl
        · simp [Pieces.isPlain, plain]
      simp only [separated_cons_cons, Pieces.isPlain_append, first, between, ih others,
        Bool.and_self]

theorem clause_plain {col : Pieces} (plain : col.isPlain = true) (positive : Bool) (cl : Clause) :
    Pieces.isPlain (clause col positive cl) = true := by
  cases cl with
  | equal v =>
    by_cases null : v.isNull <;> cases positive <;>
      simp only [clause, null, Bool.false_eq_true, if_true, if_false, Pieces.isPlain_append,
        plain] <;> rfl
  | equalIgnoringCase v =>
    by_cases null : v.isNull <;> cases positive <;>
      simp only [clause, null, Bool.false_eq_true, if_true, if_false, Pieces.isPlain_append,
        Pieces.isPlain_cons, plain] <;> rfl
  | inList operands =>
    have listed : Pieces.isPlain (separated ", " (operands.map fun v => [.parameter v])) = true :=
      separated_plain (by decide) (by simp [Pieces.isPlain, Piece.isPlain])
    cases positive <;> simp only [clause, Pieces.isPlain_append, plain, listed] <;> rfl
  | _ =>
    cases positive <;>
      simp only [clause, Pieces.isPlain_append, Pieces.isPlain_cons, plain] <;> rfl

theorem parenthesized_plain {ps : Pieces} (plain : ps.isPlain = true) :
    ps.parenthesized.isPlain = true := by
  rw [Pieces.parenthesized, List.cons_append, Pieces.isPlain_cons, Pieces.isPlain_append, plain]
  decide

theorem conjoined_plain (operator : Connective) {items : List Pieces}
    (each : ∀ ps ∈ items, ps.isPlain = true) : Pieces.isPlain (conjoined operator items) = true :=
  separated_plain (by cases operator <;> decide) each

theorem expression_plain (part : Part) {e : Expression} (rawFree : e.RawFree) {ps : Pieces}
    (written : expression (.plain part) m e = .ok ps) : ps.isPlain = true := by
  induction e using Expression.byMembers generalizing ps with
  | test property cl positive =>
    obtain ⟨i, c, -, -, rfl⟩ := expression_test.mp written
    exact parenthesized_plain (clause_plain rfl positive cl)
  | group operator es orders window ih =>
    obtain ⟨-, items, hitems, rfl⟩ := expression_group.mp written
    refine parenthesized_plain (conjoined_plain operator fun p hp => ?_)
    obtain ⟨e, he, hep⟩ := Outcome.mem_of_mapM_eq_ok hitems hp
    exact ih e he (rawFree.member e he) hep
  | raw cl params => exact absurd rawFree (Expression.not_rawFree_raw cl params)

/-- The condition behind a text, if it is nothing else. -/
def readFilter? (params : List Value) (text : String) : Option Condition :=
  (items? params text).bind fun items => whole? (condition? items)

/-- Whether a row passes what was read; where nothing was, every row does. -/
def verdict? (m : Mapping) (row : Row) : Option Condition → Option Bool
  | none => some true
  | some c => (c.meaning? (bare m)).map fun truth => truth row == some true

variable {f g : Criteria} {ps qs : Pieces} {part : Part}

theorem valid_of_written (rawFree : f.RawFree) (written : filter ctx m f = .ok ps) :
    ∀ e ∈ f.expressions, e.check m = .ok () := by
  intro e he
  obtain ⟨items, hitems, -⟩ := filter_eq_ok.mp written
  obtain ⟨p, hp⟩ := Outcome.exists_mapM_eq_ok.mp ⟨items, hitems⟩ e he
  exact check_of_written (rawFree e he) hp

theorem filter_plain (rawFree : f.RawFree) (written : filter (.plain part) m f = .ok ps) :
    ps.isPlain = true := by
  obtain ⟨items, hitems, rfl⟩ := filter_eq_ok.mp written
  refine conjoined_plain f.operator fun p hp => ?_
  obtain ⟨e, he, hep⟩ := Outcome.mem_of_mapM_eq_ok hitems hp
  exact expression_plain part (rawFree e he) hep

/-- A filter's pieces come apart, and whether a row is admitted is told from what they write. -/
theorem filter_read (common : d.Common) (distinct : m.labels.Nodup) (rawFree : f.RawFree)
    (written : filter (.plain part) m f = .ok ps) :
    (∃ after, ps.spaced true = some after) ∧ ∀ row, ∃ b, f.admits m row = .ok b ∧
      verdict? m row (readFilter? ps.params (d.write ps)) = some b := by
  have valid := valid_of_written rawFree written
  cases empty : f.isEmpty with
  | true =>
    obtain ⟨items, hitems, rfl⟩ := filter_eq_ok.mp written
    obtain rfl : items = [] := by
      rw [List.isEmpty_iff.mp empty] at hitems
      exact (Outcome.pure_eq_ok.mp hitems).symm
    exact ⟨⟨true, rfl⟩, fun row => ⟨true, if_pos empty, rfl⟩⟩
  | false =>
    have known : (Context.plain part).qualifier ∈ qualifiers := by
      simp [Context.plain, qualifiers]
    obtain ⟨ps', c, hps', conveys, -, means⟩ :=
      filter_conveyed distinct known (sees_bare part m) empty valid
    obtain rfl : ps' = ps := Except.ok.inj (hps'.symm.trans written)
    obtain ⟨items, spells, whole⟩ := conveys.whole
    have read : readFilter? ps'.params (d.write ps') = some c := by
      simp [readFilter?, items?_write common (spells true), whole, whole?]
    refine ⟨⟨true, (spells true).spaced⟩, fun row => ⟨_, Criteria.admits_eq_passes valid row, ?_⟩⟩
    rw [read, verdict?, means, Criteria.passes_eq_truth empty valid]
    rfl

/-- Filters that have the same text and the same parameters in the same context admit the same
rows, whatever names columns have and whatever the qualifier is. -/
theorem filter_unambiguous (common : d.Common) (distinct : m.labels.Nodup)
    (rawFree : f.RawFree) (rawFree' : g.RawFree) (written : filter ctx m f = .ok ps)
    (written' : filter ctx m g = .ok qs) (text : d.write ps = d.write qs)
    (params : ps.params = qs.params) (row : Row) :
    ∃ b, f.admits m row = .ok b ∧ g.admits m row = .ok b := by
  obtain ⟨ps, hps, rfl⟩ := filter_qualified written
  obtain ⟨qs, hqs, rfl⟩ := filter_qualified written'
  rw [Pieces.params_qualified, Pieces.params_qualified] at params
  obtain ⟨⟨_, spaced⟩, reads⟩ := filter_read common distinct rawFree hps
  obtain ⟨⟨_, spaced'⟩, reads'⟩ := filter_read common distinct rawFree' hqs
  have same := write_of_qualified common (filter_plain rawFree hps) (filter_plain rawFree' hqs)
    spaced spaced' text
  obtain ⟨b, admits, hb⟩ := reads row
  obtain ⟨b', admits', hb'⟩ := reads' row
  rw [same, params, hb'] at hb
  obtain rfl := Option.some.inj hb
  exact ⟨b', admits, admits'⟩

/-- A column with a quote, a placeholder and a parenthesis in its name. -/
def oddlyNamed : Mapping :=
  ⟨⟨"", "t"⟩, [.optional "n" "a\"?)" .int32, .optional "s" "a\"\".b" .varchar]⟩

def emptyOrUnlike : Criteria := .allOf [.group .or
  [.test "n" (.equal (.null none)) true, .test "s" (.like "x%") false] [] .all]

/-- The same, NULL having a kind and the group an order. -/
def emptyOrUnlike' : Criteria := .anyOf [.group .or
  [.test "n" (.equalIgnoringCase (.null (some .int32))) true, .test "s" (.like "x%") false]
  [⟨"n", .descending⟩] .all]

/-- A qualifier that looks like the end of a name. -/
def oddlyQualified : Context := ⟨.joinOn, "q\"."⟩

theorem filter_unambiguous_oddlyNamed : ∃ ps qs,
    filter oddlyQualified oddlyNamed emptyOrUnlike = .ok ps ∧
    filter oddlyQualified oddlyNamed emptyOrUnlike' = .ok qs ∧
    Dialect.sqlite.write ps = Dialect.sqlite.write qs ∧ ps.params = qs.params ∧
    ∀ row, ∃ b, emptyOrUnlike.admits oddlyNamed row = .ok b ∧
      emptyOrUnlike'.admits oddlyNamed row = .ok b := by
  have written : filter oddlyQualified oddlyNamed emptyOrUnlike = .ok _ := rfl
  exact ⟨_, _, written, rfl, rfl, rfl, filter_unambiguous Dialect.common_sqlite (by decide)
    (by decide) (by decide) written rfl rfl rfl⟩

end Sql
end DataAccess
