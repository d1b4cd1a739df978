import DataAccess.Proofs.Columns
import DataAccess.Proofs.Criteria.Portable
import DataAccess.Proofs.Sql.Contained
import DataAccess.Proofs.Sql.Qualified

/-!
Statements are laid out piece by piece: each writer closes the parentheses it opens, and lets a
name follow only where none has just been written.
-/
namespace DataAccess.Sql

variable {names : List String} {a b c : Nat} {t : String} {ps qs : Pieces}

/-- Pieces that lead from one depth to another, further in as well, where a name may follow. -/
def Lays (names : List String) (a b : Nat) (ps : Pieces) : Prop :=
  ∀ n, ∃ free, ps.seam names ⟨true, a + n⟩ = some ⟨free, b + n⟩

/-- The same behind a name too. -/
def Seals (names : List String) (a b : Nat) (ps : Pieces) : Prop :=
  ∀ free n, ∃ free', ps.seam names ⟨free, a + n⟩ = some ⟨free', b + n⟩

/-- Text that leads from one depth to another. -/
def Spans (a b : Nat) (t : String) : Prop := (Seam.mk false a).text t.toList = some ⟨true, b⟩

theorem nested_add {a b : Nat} {ts : List Token} (h : nested a ts = some b) (n : Nat) :
    nested (a + n) ts = some (b + n) := by
  induction ts generalizing a with
  | nil =>
    obtain rfl := Option.some.inj h
    rfl
  | cons t rest ih =>
    obtain ⟨mid, first, others⟩ := Option.bind_eq_some_iff.mp h
    have step : t.deeper (a + n) = some (mid + n) := by
      cases t <;> simp only [Token.deeper, Option.some.injEq, Option.ite_none_left_eq_some]
        at first ⊢ <;> omega
    exact Option.bind_eq_some_iff.mpr ⟨_, step, ih others⟩

theorem Seam.text_add {s s' : Seam} {cs : List Char} (h : s.text cs = some s') (free : Bool)
    (n : Nat) : (Seam.mk (free || s.free) (s.depth + n)).text cs =
      some ⟨free || s'.free, s'.depth + n⟩ := by
  induction cs generalizing s with
  | nil =>
    obtain rfl := Option.some.inj h
    rfl
  | cons c rest ih =>
    obtain ⟨mid, first, others⟩ := Option.bind_eq_some_iff.mp h
    obtain ⟨plain, first⟩ := Option.ite_none_left_eq_some.mp first
    obtain ⟨k, depth, rfl⟩ := Option.map_eq_some_iff.mp first
    have step : (Seam.mk (free || s.free) (s.depth + n)).char c = some ⟨true, k + n⟩ := by
      rw [char, if_neg plain]
      exact Option.map_eq_some_iff.mpr ⟨_, nested_add depth n, rfl⟩
    have tail := ih others
    rw [Bool.or_true] at tail
    exact Option.bind_eq_some_iff.mpr ⟨_, step, tail⟩

theorem Spans.text (h : Spans a b t) (free : Bool) (n : Nat) :
    (Seam.mk free (a + n)).text t.toList = some ⟨true, b + n⟩ := by
  simpa using Seam.text_add h free n

namespace Seals

theorem lays (h : Seals names a b ps) : Lays names a b ps := h true

theorem nil : Seals names a a [] := fun free _ => ⟨free, rfl⟩

theorem text (spans : Spans a b t) (h : Lays names b c ps) : Seals names a c (.text t :: ps) := by
  intro free n
  obtain ⟨free', rest⟩ := h n
  exact ⟨free', Option.bind_eq_some_iff.mpr ⟨_, spans.text free n, rest⟩⟩

theorem columnAlias (known : t ∈ names) (h : Seals names a b ps) :
    Seals names a b (.columnAlias t :: ps) := by
  intro free n
  obtain ⟨free', rest⟩ := h false n
  exact ⟨free', Option.bind_eq_some_iff.mpr ⟨⟨false, a + n⟩, if_pos known, rest⟩⟩

theorem parameter (v : Value) (h : Lays names a b ps) :
    Seals names a b (.parameter v :: ps) := by
  intro free n
  obtain ⟨free', rest⟩ := h n
  exact ⟨free', rest⟩

theorem append (h : Seals names a b ps) (h' : Seals names b c qs) :
    Seals names a c (ps ++ qs) := by
  intro free n
  obtain ⟨free', first⟩ := h free n
  obtain ⟨free'', last⟩ := h' free' n
  exact ⟨free'', by rw [Pieces.seam_append, first, Option.bind_some, last]⟩

end Seals

namespace Lays

theorem nil : Lays names a a [] := Seals.nil.lays

theorem name (known : t ∈ names) (h : Seals names a b ps) : Lays names a b (.name t :: ps) := by
  intro n
  obtain ⟨free', rest⟩ := h false n
  exact ⟨free', Option.bind_eq_some_iff.mpr ⟨⟨false, a + n⟩, if_pos ⟨rfl, known⟩, rest⟩⟩

theorem text (spans : Spans a b t) (h : Lays names b c ps) : Lays names a c (.text t :: ps) :=
  (Seals.text spans h).lays

theorem parameter (v : Value) (h : Lays names a b ps) : Lays names a b (.parameter v :: ps) :=
  (Seals.parameter v h).lays

theorem kind (k : Option Kind) (h : Lays names a b ps) : Lays names a b (.kind k :: ps) := h

theorem append (h : Lays names a b ps) (h' : Seals names b c qs) :
    Lays names a c (ps ++ qs) := by
  intro n
  obtain ⟨free, first⟩ := h n
  obtain ⟨free', last⟩ := h' free n
  exact ⟨free', by rw [Pieces.seam_append, first, Option.bind_some, last]⟩

/-- What closes all it opens may stand anywhere. -/
theorem within (h : Lays names 0 0 ps) (k : Nat) : Lays names k k ps := by
  intro n
  obtain ⟨free, rest⟩ := h (k + n)
  exact ⟨free, by simpa using rest⟩

theorem parenthesized (h : Lays names 0 0 ps) : Seals names 0 0 ps.parenthesized :=
  .append (.text (b := 1) rfl (h.within 1)) (.text rfl .nil)

theorem parenthesizedIf (h : Lays names 0 0 ps) (p : Bool) :
    Lays names 0 0 (ps.parenthesizedIf p) := by
  cases p with
  | true => exact h.parenthesized.lays
  | false => exact h

end Lays

theorem seam_of_isSilent {s s' : Seam} (silent : ps.isSilent = true)
    (h : ps.seam names s = some s') : s' = s := by
  induction ps generalizing s with
  | nil => exact (Option.some.inj h).symm
  | cons p rest ih =>
    obtain ⟨mid, first, others⟩ := Option.bind_eq_some_iff.mp h
    obtain ⟨quiet, silent⟩ := Pieces.isSilent_cons.mp silent
    cases p with
    | text t =>
      obtain rfl : t = "" := by simpa [Piece.isSilent] using quiet
      obtain rfl := Option.some.inj first
      exact ih silent others
    | bound v => cases first
    | _ => cases quiet

/-- Items that are laid out each, with a separator between them. -/
theorem separated_lays {separator : String} (spans : Spans 0 0 separator) {items : List Pieces}
    (each : ∀ ps ∈ items, Lays names 0 0 ps) : Lays names 0 0 (separated separator items) := by
  induction items with
  | nil => exact .nil
  | cons item rest ih =>
    obtain ⟨first, others⟩ := List.forall_mem_cons.mp each
    cases rest with
    | nil => exact first
    | cons next rest =>
      have tail := ih others
      intro n
      obtain ⟨free, lead⟩ := first n
      rw [separated_cons_cons]
      by_cases silent : item.isSilent
      · have same := seam_of_isSilent silent lead
        obtain ⟨free', last⟩ := tail n
        refine ⟨free', ?_⟩
        rw [if_pos silent, List.append_nil, Pieces.seam_append, lead, Option.bind_some, same]
        exact last
      · obtain ⟨free', last⟩ := (Seals.text spans tail) free n
        refine ⟨free', ?_⟩
        rw [if_neg silent, List.append_assoc, Pieces.seam_append, lead, Option.bind_some]
        exact last

theorem conjoined_lays (operator : Connective) {items : List Pieces}
    (each : ∀ ps ∈ items, Lays names 0 0 ps) : Lays names 0 0 (conjoined operator items) :=
  separated_lays (by cases operator <;> rfl) each

variable {ctx : Context} {m : Mapping} {d : Dialect}

theorem column_lays (known : ctx.qualifier ∈ qualifiers) {col : Column}
    (named : col.name ∈ names) : Lays names 0 0 (column ctx col) := by
  rcases column_cases known col with ⟨h, -⟩ | ⟨h, -⟩ | ⟨h, -⟩ <;> rw [h]
  · exact .name named .nil
  · exact .text rfl (.name named .nil)
  · exact .text rfl (.name named .nil)

theorem nullTest_seals (positive : Bool) : Seals names 0 0 (nullTest positive) := by
  cases positive <;> exact .text rfl .nil

theorem parameters_lay (vs : List Value) :
    Lays names 0 0 (separated ", " (vs.map fun v => [.parameter v])) := by
  refine separated_lays (by rfl) fun ps hps => ?_
  obtain ⟨v, -, rfl⟩ := List.mem_map.mp hps
  exact .parameter v .nil

theorem clause_lays {col : Pieces} (h : Lays names 0 0 col) (positive : Bool) (cl : Clause) :
    Lays names 0 0 (clause col positive cl) := by
  have inner : Lays names 1 1 col := h.within 1
  cases cl with
  | equal v =>
    rw [clause]
    split
    · exact h.append (nullTest_seals positive)
    · cases positive <;> exact h.append (.text rfl (.parameter v .nil))
  | equalIgnoringCase v =>
    rw [clause]
    split
    · exact h.append (nullTest_seals positive)
    · cases positive <;>
        exact .append (.text rfl inner) (.text rfl (.text rfl (.parameter v (.text rfl .nil))))
  | greater v => cases positive <;> exact h.append (.text rfl (.parameter v .nil))
  | lesser v => cases positive <;> exact h.append (.text rfl (.parameter v .nil))
  | between low high =>
    simp only [clause, List.append_assoc, List.cons_append, List.nil_append]
    cases positive <;>
      exact h.append (.text rfl (.parameter low (.text rfl
        (h.append (.text rfl (.parameter high .nil))))))
  | like pattern => cases positive <;> exact h.append (.text rfl (.parameter _ .nil))
  | likeIgnoringCase pattern =>
    cases positive <;>
      exact .append (.text rfl inner) (.text rfl (.parameter _ (.text rfl .nil)))
  | hasBits mask =>
    cases positive <;>
      exact .append (.text rfl inner) (.text rfl (.parameter _ (.text rfl (.parameter _ .nil))))
  | inList operands =>
    have listed : Lays names 0 0 (separated ", " (operands.map fun v => [.parameter v])) :=
      parameters_lay operands
    simp only [clause, List.append_assoc, List.cons_append, List.nil_append]
    cases positive <;>
      exact h.append (.text rfl ((listed.within 1).append (.text rfl .nil)))

theorem find_mem {property : String} {i : Nat} {col : Column}
    (found : m.find property = .ok (i, col)) : col ∈ m.columns :=
  List.mem_of_getElem? (Mapping.getElem?_of_find found)

theorem column_mem {property : String} {col : Column} (found : m.column property = .ok col) :
    col ∈ m.columns := by
  obtain ⟨⟨i, c⟩, h, rfl⟩ := Outcome.map_eq_ok.mp found
  exact find_mem h

theorem expression_seals (known : ctx.qualifier ∈ qualifiers) (labels : m.labels ⊆ names)
    {e : Expression} (rawFree : e.RawFree) {ps : Pieces} (written : expression ctx m e = .ok ps) :
    Seals names 0 0 ps := by
  induction e using Expression.byMembers generalizing ps with
  | test property cl positive =>
    obtain ⟨i, col, found, -, rfl⟩ := expression_test.mp written
    have named : col.name ∈ names := labels (List.mem_map_of_mem (find_mem found))
    exact (clause_lays (column_lays known named) positive cl).parenthesized
  | group operator es orders window ih =>
    obtain ⟨-, items, hitems, rfl⟩ := expression_group.mp written
    refine (conjoined_lays operator fun p hp => ?_).parenthesized
    obtain ⟨e, he, hep⟩ := Outcome.mem_of_mapM_eq_ok hitems hp
    exact (ih e he (rawFree.member e he) hep).lays
  | raw cl params => exact absurd rawFree (Expression.not_rawFree_raw cl params)

theorem filter_lays (known : ctx.qualifier ∈ qualifiers) (labels : m.labels ⊆ names)
    {f : Criteria} (rawFree : f.RawFree) {ps : Pieces} (written : filter ctx m f = .ok ps) :
    Lays names 0 0 ps := by
  obtain ⟨items, hitems, rfl⟩ := filter_eq_ok.mp written
  refine conjoined_lays f.operator fun p hp => ?_
  obtain ⟨e, he, hep⟩ := Outcome.mem_of_mapM_eq_ok hitems hp
  exact (expression_seals known labels (rawFree e he) hep).lays

theorem plain_known (part : Part) : (Context.plain part).qualifier ∈ qualifiers := by
  simp [Context.plain, qualifiers]

theorem whereClause_seals {part : Part} (labels : m.labels ⊆ names) {f : Criteria}
    (rawFree : f.RawFree) {ps : Pieces} (written : whereClause (.plain part) m f = .ok ps) :
    Seals names 0 0 ps := by
  unfold whereClause at written
  split at written
  · obtain rfl := Except.ok.inj written
    exact .nil
  · obtain ⟨fs, hfs, h⟩ := Outcome.bind_eq_ok.mp written
    obtain rfl := Outcome.pure_eq_ok.mp h
    exact .text rfl (filter_lays (plain_known .selectWhere) labels rawFree hfs)

theorem sortKey_lays (known : ctx.qualifier ∈ qualifiers) (labels : m.labels ⊆ names)
    {property : String} {direction : Direction} (uncomputed : direction ≠ .computed)
    {ps : Pieces} (written : sortKey ctx m property direction = .ok ps) : Lays names 0 0 ps := by
  have uncomputed : sortKey ctx m property direction = (do
      let col ← m.column property
      pure (column ctx col ++ [.text (if direction = .descending then " DESC" else " ASC")])) := by
    cases direction with
    | computed => exact absurd rfl uncomputed
    | _ => rfl
  rw [uncomputed] at written
  obtain ⟨col, found, h⟩ := Outcome.bind_eq_ok.mp written
  obtain rfl := Outcome.pure_eq_ok.mp h
  have named : col.name ∈ names := labels (List.mem_map_of_mem (column_mem found))
  cases direction <;> exact (column_lays known named).append (.text rfl .nil)

theorem orderedBy_seals {κ : Type} {keys : List κ} {key : κ → Outcome Pieces} {ps : Pieces}
    (each : ∀ k ∈ keys, ∀ written, key k = .ok written → Lays names 0 0 written)
    (written : (do let ks ← keys.mapM key; pure (orderedBy ks)) = .ok ps) : Seals names 0 0 ps := by
  obtain ⟨ks, hks, h⟩ := Outcome.bind_eq_ok.mp written
  obtain rfl := Outcome.pure_eq_ok.mp h
  unfold orderedBy
  split
  · exact .nil
  · refine .text rfl (separated_lays (by rfl) fun qs hqs => ?_)
    obtain ⟨k, hk, hkey⟩ := Outcome.mem_of_mapM_eq_ok hks hqs
    exact each k hk qs hkey

theorem orderBy_seals {part : Part} (labels : m.labels ⊆ names) {orders : List SortKey}
    (uncomputed : ∀ k ∈ orders, k.direction ≠ .computed) {ps : Pieces}
    (written : orderBy (.plain part) m orders = .ok ps) : Seals names 0 0 ps :=
  orderedBy_seals (fun k hk _ hkey =>
    sortKey_lays (plain_known .selectOrderBy) labels (uncomputed k hk) hkey) written

end DataAccess.Sql
