import DataAccess.Proofs.Value.Integers

/-!
What numbers count as when cells of unlike kinds are compared. Words, doubles and decimals without
fraction count as the numbers they are, decimals with a fraction as their doubles.
-/
namespace DataAccess

namespace Decimal

variable {d : Decimal} {n : Int}

/-- The number that a decimal counts as beside words and doubles. -/
def met (d : Decimal) : ℚ := if d.integer? = none then d.rounded else d.value

theorem met_error (d : Decimal) : |d.met - d.value| ≤ |d.value| / 2 ^ 47 := by
  rw [met]
  split
  · exact d.rounded_error
  · rw [sub_self, abs_zero]
    positivity

/-- The integer is overstepped where it is on another side of what the decimal counts as. -/
theorem oversteps_iff_met : d.Oversteps n ↔ cmp d.met n ≠ cmp d.value n := by
  have mirrored : cmp d.met n = cmp d.value n ↔ cmp (n : ℚ) d.met = cmp (n : ℚ) d.value := by
    rw [← cmp_swap, ← cmp_swap (n : ℚ) d.value, Ordering.swap_inj]
  rw [Ne, mirrored, met, Scalar.cmp_rounded_iff, not_not]

end Decimal

namespace Scalar

variable {s t : Scalar} {n : Int}

/-- The number that a numeric cell counts as beside one of another kind. -/
def met : Scalar → Option Extended
  | .decimal d => some (d.met : Extended)
  | s => s.number

theorem met_of_word (word : s.word? = some n) : s.met = some ((n : ℚ) : Extended) := by
  cases s <;> cases word <;> rfl

theorem met_of_whole? (whole : s.whole? = some n) : s.met = some ((n : ℚ) : Extended) := by
  cases s with
  | decimal d =>
    have whole : d.integer? = some n := whole
    rw [met, Decimal.met, if_neg (by simp [whole]), Decimal.value_eq_iff.mpr whole]
  | _ => exact number_eq_int_iff.mpr whole

theorem whole?_of_integer? (integer : s.integer? = some n) : s.whole? = some n := by
  cases s with
  | float64 x => cases integer
  | _ => exact integer

theorem numeric_cases (numeric : s.kind.rank = 2) :
    (∃ n, s.word? = some n) ∨ (∃ x, s = .float64 x) ∨ ∃ d, s = .decimal d := by
  cases s with
  | int32 n => exact .inl ⟨_, rfl⟩
  | int64 n => exact .inl ⟨_, rfl⟩
  | float64 x => exact .inr (.inl ⟨x, rfl⟩)
  | decimal d => exact .inr (.inr ⟨d, rfl⟩)
  | _ => cases numeric

theorem compare_decimal_double (d : Decimal) (y : Binary64) :
    (decimal d).compare (.float64 y) = y.denoted.map (cmp (d.met : Extended)) := by
  cases whole : d.integer? with
  | some n =>
    have exact : (decimal d).compare (.float64 y) = Binary64.compareWide n y := by
      simp [compare, compareNumbers, integer?, double?, whole]
    have met : (decimal d).met = some ((n : ℚ) : Extended) := met_of_whole? whole
    rw [exact, compareWide_of_integer? (a := .decimal d) whole, Binary64.compareInt_eq_cmp,
      Option.some.inj met]
  | none =>
    have double : (decimal d).compare (.float64 y) = d.toBinary64.compare y := by
      simp [compare, compareNumbers, integer?, double?, whole]
    rw [double, Binary64.compare_eq_cmp, Decimal.denoted_toBinary64 whole, Option.bind_some,
      Decimal.met, if_pos whole]

theorem swap_bind_cmp {p q : Option Extended} :
    (p.bind fun a => q.map (cmp a)).map Ordering.swap = q.bind fun b => p.map (cmp b) := by
  cases p with
  | none => cases q <;> rfl
  | some a =>
    cases q with
    | none => rfl
    | some b => exact congrArg some (cmp_swap a b)

/-- Numbers of unlike kinds compare as what they count as. -/
theorem compare_eq_met (hs : s.kind.rank = 2) (ht : t.kind.rank = 2)
    (unlike : s.kind ≠ .decimal ∨ t.kind ≠ .decimal) :
    s.compare t = s.met.bind fun p => t.met.map (cmp p) := by
  rcases numeric_cases hs with ⟨m, hm⟩ | ⟨x, rfl⟩ | ⟨d, rfl⟩ <;>
    rcases numeric_cases ht with ⟨n, hn⟩ | ⟨y, rfl⟩ | ⟨e, rfl⟩
  · rw [compare_words hm hn, met_of_word hm, met_of_word hn]
    rfl
  · rw [compare_word_double hm, met_of_word hm]
    rfl
  · rw [compare_word_decimal hm, met_of_word hm, ← Extended.cmp_rat]
    rfl
  · rw [compare_swap t, compare_word_double hn, ← swap_bind_cmp, met_of_word hn]
    rfl
  · exact Binary64.compare_eq_cmp x y
  · rw [compare_swap (.decimal e), compare_decimal_double, ← swap_bind_cmp]
    rfl
  · rw [compare_swap t, compare_word_decimal hn, ← swap_bind_cmp, met_of_word hn,
      ← Extended.cmp_rat]
    rfl
  · exact compare_decimal_double d y
  · simp [kind] at unlike

theorem compare_eq_map_met (hs : s.kind.rank = 2) (ht : t.kind.rank = 2)
    (unlike : s.kind ≠ .decimal ∨ t.kind ≠ .decimal) {q : Extended} (hq : t.met = some q) :
    s.compare t = s.met.map (cmp · q) := by
  rw [compare_eq_met hs ht unlike, hq]
  cases s.met <;> rfl

theorem kind_ne_decimal_of_word (word : s.word? = some n) : s.kind ≠ .decimal := by
  cases s <;> cases word <;> exact nofun

theorem kind_ne_decimal_of_double (x : Binary64) : (float64 x).kind ≠ .decimal := nofun

theorem compare_decimals (d e : Decimal) :
    (Value.of (.decimal d)).compare (.of (.decimal e)) = some (cmp d.value e.value) :=
  congrArg some (Decimal.compare_eq_cmp d e)

theorem compare_decimal_word (d : Decimal) (word : t.word? = some n) :
    (decimal d).compare t = some (cmp d.met n) := by
  have numeric : t.kind.rank = 2 := by cases t <;> cases word <;> rfl
  rw [compare_eq_map_met rfl numeric (.inr (kind_ne_decimal_of_word word)) (met_of_word word),
    ← Extended.cmp_rat]
  rfl

end Scalar
end DataAccess
