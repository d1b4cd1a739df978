/-!
Patterns: `%` stands for any text, `_` for any one character, others for themselves. Pattern and
text are read from the front. Where that does not go on, the last `%` that was met takes one
character more, and what is behind it is tried again.
-/
namespace DataAccess.Like

/-- What is left of the pattern and of the text. If there was a `%`, also what is behind the last
one in the pattern, and the text it is tried on. -/
structure Scan where
  pattern : List Char
  text : List Char
  retry : Option (List Char × List Char)

namespace Scan

def start (pattern text : String) : Scan := ⟨pattern.toList, text.toList, none⟩

/-- On with one character more for the last `%`, or no match. -/
def again : Option (List Char × List Char) → Bool ⊕ Scan
  | some (pattern, _ :: text) => .inr ⟨pattern, text, some (pattern, text)⟩
  | _ => .inl false

/-- The verdict, or where the scan goes on. -/
def step : Scan → Bool ⊕ Scan
  | ⟨pattern, [], _⟩ => .inl (pattern.all (· == '%'))
  | ⟨[], _ :: _, retry⟩ => again retry
  | ⟨p :: pattern, c :: text, retry⟩ =>
    if p = '%' then .inr ⟨pattern, c :: text, some (pattern, c :: text)⟩
    else if p = '_' ∨ p = c then .inr ⟨pattern, text, retry⟩
    else again retry

/-- How many steps there can be: for each character that a `%` may take, the pattern once more. -/
def budget (s : Scan) : Nat :=
  max (s.text.length * (s.pattern.length + 1))
    (s.retry.elim 0 fun (pattern, text) => text.length * (pattern.length + 1)) + s.pattern.length

theorem budget_again {retry : Option (List Char × List Char)} {next : Scan}
    (h : again retry = .inr next) (pattern text : List Char) :
    next.budget < budget ⟨pattern, text, retry⟩ := by
  obtain _ | ⟨q, _ | ⟨u, us⟩⟩ := retry
  · cases h
  · cases h
  · obtain rfl := Sum.inr.inj h
    simp only [budget, Option.elim_some, List.length_cons, Nat.add_mul]
    omega

theorem budget_step {s next : Scan} (h : s.step = .inr next) : next.budget < s.budget := by
  obtain ⟨pattern, text, retry⟩ := s
  cases text with
  | nil => cases h
  | cons c text =>
    cases pattern with
    | nil => exact budget_again h [] (c :: text)
    | cons p pattern =>
      rw [step] at h
      split at h
      · obtain rfl := Sum.inr.inj h
        simp only [budget, Option.elim_some, List.length_cons, Nat.mul_add]
        omega
      · split at h
        · obtain rfl := Sum.inr.inj h
          simp only [budget, List.length_cons, Nat.mul_add, Nat.add_mul]
          omega
        · exact budget_again h (p :: pattern) (c :: text)

/-- The verdict in the end. -/
def run (s : Scan) : Bool :=
  match _ : s.step with
  | .inl verdict => verdict
  | .inr next => next.run
termination_by s.budget
decreasing_by exact budget_step ‹_›

end Scan

def like (pattern text : String) : Bool := (Scan.start pattern text).run

end DataAccess.Like
