import DataAccess.Proofs.Memory.Evaluated

/-!
Who counts, deletes or updates in process is told of a mistake in the criteria where an engine
would be told of one, and of sort keys without a place besides.
-/
namespace DataAccess

open Outcome

variable {m : Mapping} {c : Criteria}

def Misconfigured (f : Failure) : Prop := f.kind? = some .configuration

theorem Mapping.find_failsAs (m : Mapping) (property : String) :
    FailsAs Misconfigured (m.find property) := by
  unfold find
  split
  · exact .ok _
  · exact .error rfl

theorem Clause.check_failsAs (property : String) (clause : Clause) :
    FailsAs Misconfigured (clause.check property) := by
  unfold check
  split
  case h_5 => exact .ok ()
  all_goals
    split
    · exact .error rfl
    · exact .ok ()

namespace Expression

theorem checkAll_failsAs {es : List Expression}
    (each : ∀ e ∈ es, FailsAs Misconfigured (e.check m)) :
    FailsAs Misconfigured (checkAll m es) := by
  induction es with
  | nil => exact .ok ()
  | cons e rest ih =>
    obtain ⟨first, others⟩ := List.forall_mem_cons.mp each
    exact first.bind fun _ _ => ih others

theorem check_failsAs (m : Mapping) (e : Expression) : FailsAs Misconfigured (e.check m) := by
  induction e using byMembers with
  | test property clause positive =>
    exact (m.find_failsAs property).bind fun _ _ => clause.check_failsAs property
  | group operator es orders window ih =>
    rw [check]
    split
    · exact .error rfl
    · exact checkAll_failsAs ih
  | raw clause params => exact .error rfl

end Expression

theorem SortKey.place_failsAs (m : Mapping) (k : SortKey) : FailsAs Misconfigured (k.place m) := by
  unfold place
  split
  · exact .error rfl
  · exact ((m.find_failsAs k.property).map _).map _

namespace Criteria

/-- Criteria are refused as a mistake of the caller. -/
theorem validate_failsAs (m : Mapping) (c : Criteria) :
    FailsAs Misconfigured (c.validate m) :=
  (Expression.checkAll_failsAs fun e _ => e.check_failsAs m).bind fun _ _ =>
    (FailsAs.mapM fun k _ => k.place_failsAs m).bind fun _ _ => .ok ()

end Criteria

namespace Memory

variable {t : Tables} {α : Type} {a : Action Memory α} {st : Statement} {env : Env Memory}

/-- The operations whose criteria select rows without handing them out, with the statement each is
written as. Properties to group by are known, and what is assigned has a form in its column. -/
inductive Asks (m : Mapping) (c : Criteria) : {α : Type} → Action Memory α → Statement → Prop
  | count : Asks m c (count m c) (.count m c)
  | countGrouped {groupBy : List String} (known : ∀ p ∈ groupBy, ∃ i, m.position p = .ok i) :
    Asks m c (countGrouped m c groupBy) (.countGrouped m c groupBy)
  | delete : Asks m c (delete m c) (.delete m c)
  | update {values : Assignments} (fitting : ∀ a ∈ values, ∃ i column v,
      m.find a.1 = .ok (i, column) ∧ a.2.coerce column.kind = .ok v) :
    Asks m c (update m c values) (.update m c values)

/-- The text is refused for the filter, or as an update that assigns nothing. -/
theorem Asks.pieces_verdict (asks : Asks m c a st) (rawFree : c.RawFree)
    (nonempty : c.isEmpty = false) :
    (∀ d, verdict (st.pieces d) = Expression.checkAll m c.expressions) ∨
      ∀ d, verdict (st.pieces d) = .error .emptyAssignment := by
  cases asks with
  | count => exact .inl fun d => Sql.count_verdict d rawFree
  | countGrouped known => exact .inl fun d => Sql.countGrouped_verdict d rawFree known
  | delete => exact .inl fun d => Sql.delete_verdict d rawFree nonempty
  | @update values fitting =>
    cases values with
    | nil =>
      refine .inr fun d => ?_
      rw [Statement.pieces, Sql.update, nonempty]
      rfl
    | cons first rest =>
      refine .inl fun d => Sql.update_verdict d rawFree nonempty (by simp) fun a ha => ?_
      obtain ⟨i, column, -, found, -⟩ := fitting a ha
      exact ⟨_, found⟩

/-- A check that is made first is what its caller is told of. -/
theorem checked_iff {u : Outcome Unit} (fails : FailsAs Misconfigured u)
    {g : Except (Option FailureKind) α} :
    (u.mapError Failure.kind? >>= fun _ => g) = .error (some .configuration) ↔
      u ≠ .ok () ∨ g = .error (some .configuration) := by
  cases u with
  | ok _ => simp [Except.mapError]
  | error f => simpa [Except.mapError, Misconfigured] using fails f rfl

theorem Asks.writing_iff (asks : Asks m c a st) (rawFree : c.RawFree)
    (nonempty : c.isEmpty = false) {g : Except (Option FailureKind) α} :
    (writing st >>= fun _ => g) = .error (some .configuration) ↔
      verdict (st.pieces .generic) ≠ .ok () ∨ g = .error (some .configuration) := by
  refine checked_iff ?_
  obtain h | h := asks.pieces_verdict rawFree nonempty
  · exact h .generic ▸ Expression.checkAll_failsAs fun e _ => e.check_failsAs m
  · exact h .generic ▸ FailsAs.error rfl

/-- Not as a mistake of the caller. -/
def Spared (k : Option FailureKind) : Prop := k ≠ some .configuration

theorem ne_of_spared {x : Except (Option FailureKind) α} (h : FailsAs Spared x) :
    x ≠ .error (some .configuration) :=
  fun hx => h _ hx rfl

namespace Tables

end Tables

/-- Rows that are read are looked at once both checks are made. -/
theorem Asks.read_iff (asks : Asks m c a st) (rawFree : c.RawFree) (nonempty : c.isEmpty = false)
    {g : Except (Option FailureKind) α} (spared : c.validate m = .ok () → FailsAs Spared g) :
    (do (c.validate m).mapError Failure.kind?; writing st; g) = .error (some .configuration) ↔
      c.validate m ≠ .ok () ∨ verdict (st.pieces .generic) ≠ .ok () := by
  refine (checked_iff (c.validate_failsAs m)).trans ?_
  rw [asks.writing_iff rawFree nonempty]
  by_cases valid : c.validate m = .ok ()
  · have tail := ne_of_spared (spared valid)
    simp [valid, tail]
  · simp [valid]

end Memory
end DataAccess
