import DataAccess.Evaluation.Like
import Mathlib.Data.List.Forall2
import Mathlib.Data.List.Infix

/-!
A scan tells whether a text can be cut into pieces that the characters of a pattern take. To come
back to the last `%` is enough: what is behind it can then start at any later place, and what an
earlier `%` could still take would only make it start at one of these.
-/
namespace DataAccess.Like

/-- What a character of a pattern stands for. -/
inductive Takes : Char → List Char → Prop where
  | any (piece : List Char) : Takes '%' piece
  | one (c : Char) : Takes '_' [c]
  | itself (c : Char) : Takes c [c]

/-- The text can be cut into pieces, one for each character of the pattern. -/
def Covers (pattern text : List Char) : Prop :=
  ∃ pieces : List (List Char), pieces.flatten = text ∧ List.Forall₂ Takes pattern pieces

section Covers

variable {c d : Char} {p q t u piece : List Char}

theorem takes_iff (h : c ≠ '%') : Takes c piece ↔ ∃ d, piece = [d] ∧ (c = '_' ∨ c = d) := by
  constructor
  · intro takes
    cases takes with
    | any => exact absurd rfl h
    | one d => exact ⟨d, rfl, .inl rfl⟩
    | itself => exact ⟨c, rfl, .inr rfl⟩
  · rintro ⟨d, rfl, rfl | rfl⟩
    · exact .one d
    · exact .itself c

theorem covers_nil : Covers [] t ↔ t = [] := by
  constructor
  · rintro ⟨pieces, rfl, takes⟩
    cases takes
    rfl
  · rintro rfl
    exact ⟨[], rfl, .nil⟩

theorem covers_cons : Covers (c :: p) t ↔ ∃ u v, u ++ v = t ∧ Takes c u ∧ Covers p v := by
  constructor
  · rintro ⟨pieces, rfl, takes⟩
    cases takes with
    | cons first rest => exact ⟨_, _, rfl, first, _, rfl, rest⟩
  · rintro ⟨u, v, rfl, first, pieces, rfl, rest⟩
    exact ⟨u :: pieces, rfl, .cons first rest⟩

theorem covers_percent : Covers ('%' :: p) t ↔ ∃ u, u <:+ t ∧ Covers p u := by
  rw [covers_cons]
  constructor
  · rintro ⟨u, v, rfl, -, rest⟩
    exact ⟨v, List.suffix_append u v, rest⟩
  · rintro ⟨v, ⟨u, rfl⟩, rest⟩
    exact ⟨u, v, rfl, .any u, rest⟩

/-- What comes after a `%` can start at once, or later. -/
theorem covers_percent_cons :
    Covers ('%' :: p) (c :: t) ↔ Covers p (c :: t) ∨ Covers ('%' :: p) t := by
  simp only [covers_percent, List.suffix_cons_iff, or_and_right, exists_or, exists_eq_left]

theorem Covers.more (h : Covers ('%' :: p) u) (suffix : u <:+ t) : Covers ('%' :: p) t := by
  obtain ⟨v, hv, rest⟩ := covers_percent.mp h
  exact covers_percent.mpr ⟨v, hv.trans suffix, rest⟩

/-- Any other character takes one. -/
theorem covers_character (h : c ≠ '%') :
    Covers (c :: p) (d :: t) ↔ (c = '_' ∨ c = d) ∧ Covers p t := by
  simp only [covers_cons, takes_iff h]
  constructor
  · rintro ⟨u, v, same, ⟨e, rfl, stands⟩, rest⟩
    obtain ⟨rfl, rfl⟩ := List.cons.inj same
    exact ⟨stands, rest⟩
  · rintro ⟨stands, rest⟩
    exact ⟨[d], t, rfl, ⟨d, rfl, stands⟩, rest⟩

theorem covers_empty : Covers p [] ↔ p.all (· == '%') = true := by
  induction p with
  | nil => simp [covers_nil]
  | cons c p ih =>
    by_cases h : c = '%'
    · subst h
      simp [covers_percent, ih]
    · simp [covers_cons, takes_iff h, h]

/-- Characters other than `%` take as many. -/
theorem exists_covers_of_append (none : '%' ∉ p) (h : Covers (p ++ q) t) :
    ∃ u v, u ++ v = t ∧ u.length = p.length ∧ Covers q v := by
  induction p generalizing t with
  | nil => exact ⟨[], t, rfl, rfl, h⟩
  | cons c p ih =>
    obtain ⟨other, none⟩ := not_or.mp (List.mem_cons.not.mp none)
    rw [List.cons_append] at h
    obtain ⟨piece, rest, rfl, takes, covers⟩ := covers_cons.mp h
    obtain ⟨d, rfl, -⟩ := (takes_iff (Ne.symm other)).mp takes
    obtain ⟨u, v, rfl, length, h⟩ := ih none covers
    exact ⟨d :: u, v, rfl, congrArg (· + 1) length, h⟩

end Covers

namespace Scan

/-- What is left of the text may be taken by what is left of the pattern, or by what is behind the
last `%` if that takes more. -/
def Open (s : Scan) : Prop :=
  Covers s.pattern s.text ∨ ∃ p c t, s.retry = some (p, c :: t) ∧ Covers ('%' :: p) t

/-- Since the last `%`, characters of the pattern have met as many of the text, and were no `%`. -/
def Abreast (s : Scan) : Prop :=
  ∀ p t, s.retry = some (p, t) → ∃ chars met, p = chars ++ s.pattern ∧ t = met ++ s.text ∧
    chars.length = met.length ∧ '%' ∉ chars

variable {s next : Scan} {c d : Char} {p t : List Char} {retry : Option (List Char × List Char)}

theorem abreast_percent : Abreast ⟨p, t, some (p, t)⟩ := by
  rintro p t ⟨⟩
  exact ⟨[], [], rfl, rfl, rfl, nofun⟩

theorem Abreast.character (abreast : Abreast ⟨c :: p, d :: t, retry⟩) (h : c ≠ '%') :
    Abreast ⟨p, t, retry⟩ := by
  intro q u hr
  obtain ⟨chars, met, rfl, rfl, length, none⟩ := abreast q u hr
  refine ⟨chars ++ [c], met ++ [d], by simp, by simp, by simp [length], ?_⟩
  simp [none, Ne.symm h]

/-- What the last `%` would come to by taking more starts further on in the text. -/
theorem Abreast.later (abreast : s.Abreast) {q u : List Char} (hr : s.retry = some (q, c :: u))
    (h : Covers ('%' :: q) u) :
    ∃ v, v <:+ s.text ∧ v.length < s.text.length ∧ Covers s.pattern v := by
  obtain ⟨chars, met, rfl, split, length, none⟩ := abreast q (c :: u) hr
  obtain ⟨w, suffix, h⟩ := covers_percent.mp h
  obtain ⟨u', v, rfl, length', h⟩ := exists_covers_of_append none h
  have whole : v <:+ c :: u :=
    ((List.suffix_append u' v).trans suffix).trans (List.suffix_cons c u)
  have left : s.text <:+ c :: u := split ▸ List.suffix_append met s.text
  have long := suffix.length_le
  have total := congrArg List.length split
  simp only [List.length_append, List.length_cons] at long total
  have short : v.length < s.text.length := by omega
  exact ⟨v, List.suffix_of_suffix_length_le whole left short.le, short, h⟩

/-- At the end of the text nothing can be gained by taking more. -/
theorem Abreast.open_nil (abreast : Abreast ⟨p, [], retry⟩) :
    Open ⟨p, [], retry⟩ ↔ p.all (· == '%') = true := by
  rw [← covers_empty]
  refine or_iff_left ?_
  rintro ⟨q, c, u, hr, h⟩
  obtain ⟨v, -, short, -⟩ := abreast.later hr h
  exact absurd short (Nat.not_lt_zero _)

/-- At a `%` those before it are settled. -/
theorem Abreast.open_percent (abreast : Abreast ⟨'%' :: p, c :: t, retry⟩) :
    Open ⟨p, c :: t, some (p, c :: t)⟩ ↔ Open ⟨'%' :: p, c :: t, retry⟩ := by
  have here : Open ⟨p, c :: t, some (p, c :: t)⟩ ↔ Covers ('%' :: p) (c :: t) := by
    simp [Open, covers_percent_cons]
  refine here.trans (or_iff_left_of_imp ?_).symm
  rintro ⟨q, e, u, hr, h⟩
  obtain ⟨v, suffix, -, h⟩ := abreast.later hr h
  exact h.more suffix

theorem open_character (h : c ≠ '%') (stands : c = '_' ∨ c = d) :
    Open ⟨p, t, retry⟩ ↔ Open ⟨c :: p, d :: t, retry⟩ := by
  simp [Open, covers_character h, stands]

/-- What one step has to do: to tell the verdict, or to leave it open as it was. -/
def Keeps (s : Scan) : Bool ⊕ Scan → Prop
  | .inl verdict => verdict = true ↔ s.Open
  | .inr next => next.Abreast ∧ (next.Open ↔ s.Open)

/-- Where pattern and text do not fit, only the last `%` can help. -/
theorem again_keeps (stuck : ¬Covers s.pattern s.text) : s.Keeps (again s.retry) := by
  obtain ⟨p, t, _ | ⟨q, _ | ⟨c, u⟩⟩⟩ := s
  · simp [again, Keeps, Open, stuck]
  · simp [again, Keeps, Open, stuck]
  · refine ⟨abreast_percent, ?_⟩
    have taken : Open ⟨q, u, some (q, u)⟩ ↔ Covers ('%' :: q) u := by
      cases u with
      | nil => simp [Open, covers_percent]
      | cons d u => simp [Open, covers_percent_cons]
    rw [taken]
    simp [Open, stuck]

theorem step_keeps (abreast : s.Abreast) : s.Keeps s.step := by
  obtain ⟨p, t, retry⟩ := s
  cases t with
  | nil => exact abreast.open_nil.symm
  | cons c t =>
    cases p with
    | nil => exact again_keeps (by simp [covers_nil])
    | cons d p =>
      rw [step]
      split
      · rename_i percent
        subst percent
        exact ⟨abreast_percent, abreast.open_percent⟩
      · rename_i other
        split
        · rename_i stands
          exact ⟨abreast.character other, open_character other stands⟩
        · rename_i differs
          exact again_keeps fun h => differs ((covers_character other).mp h).1

/-- The verdict in the end is whether the text could be taken at the start. -/
theorem run_iff_open (abreast : s.Abreast) : s.run = true ↔ s.Open := by
  induction s using run.induct with
  | case1 s verdict ends =>
    have keeps := step_keeps abreast
    rw [ends] at keeps
    rw [run, ends]
    exact keeps
  | case2 s next goesOn ih =>
    have keeps := step_keeps abreast
    rw [goesOn] at keeps
    rw [run, goesOn]
    exact (ih keeps.1).trans keeps.2

/-- A scan that goes on for some steps and ends in a verdict. -/
inductive Ends : Scan → Nat → Bool → Prop where
  | now {s : Scan} {verdict : Bool} (ends : s.step = .inl verdict) : Ends s 0 verdict
  | after {s next : Scan} {n : Nat} {verdict : Bool} (goesOn : s.step = .inr next)
      (rest : Ends next n verdict) : Ends s (n + 1) verdict

theorem exists_ends (s : Scan) : ∃ n ≤ s.budget, s.Ends n s.run := by
  induction s using run.induct with
  | case1 s verdict ends =>
    rw [run, ends]
    exact ⟨0, Nat.zero_le _, .now ends⟩
  | case2 s next goesOn ih =>
    obtain ⟨n, few, rest⟩ := ih
    rw [run, goesOn]
    exact ⟨n + 1, Nat.lt_of_le_of_lt few (budget_step goesOn), .after goesOn rest⟩

end Scan

/-- Matching ends, after a number of steps that is known beforehand, and tells whether the text can
be cut into consecutive pieces, one for each character of the pattern: any for a `%`, a single
character for an underscore, itself for any other. -/
theorem like_iff_pieces (pattern text : String) :
    (∃ n ≤ text.length * (pattern.length + 1) + pattern.length,
      (Scan.start pattern text).Ends n (like pattern text)) ∧
    (like pattern text = true ↔ ∃ pieces : List (List Char),
      pieces.flatten = text.toList ∧ List.Forall₂ Takes pattern.toList pieces) := by
  have abreast : (Scan.start pattern text).Abreast := nofun
  constructor
  · have few : (Scan.start pattern text).budget =
        text.length * (pattern.length + 1) + pattern.length := by
      simp [Scan.start, Scan.budget, String.length_toList]
    exact few ▸ Scan.exists_ends (Scan.start pattern text)
  · refine (Scan.run_iff_open abreast).trans ?_
    simp [Scan.Open, Scan.start, Covers]

end DataAccess.Like
