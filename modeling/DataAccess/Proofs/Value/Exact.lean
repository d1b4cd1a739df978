import DataAccess.Proofs.Numeric.Nearest
import DataAccess.Proofs.Value.JoinKey
import Mathlib.Order.WithBotTop

/-!
Machine words and doubles as the numbers they are. A word is compared with a double as it is, without
becoming a double itself, so words and doubles stand on one line, the infinities at its ends. NaN
alone is not on it.
-/
namespace DataAccess

/-- The rational numbers with an infinity at either end. -/
abbrev Extended := WithBotTop ℚ

theorem Extended.cmp_rat (p q : ℚ) : cmp (p : Extended) q = cmp p q :=
  WithBotTop.coe_strictMono.cmp_map_eq p q

theorem isLE_cmp_iff {α : Type} [LinearOrder α] {a b : α} : (cmp a b).isLE ↔ a ≤ b := by
  rw [Ordering.isLE_iff_ne_gt, ← not_lt, ← cmp_eq_gt_iff]

namespace Binary64

/-- The number that a double denotes. -/
def denoted : Binary64 → Option Extended
  | .nan => none
  | .infinite s => some (if s then ⊥ else ⊤)
  | .finite s a => some ((signed s a.steps / one : ℚ) : Extended)

theorem denoted_eq_none_iff {x : Binary64} : x.denoted = none ↔ x = .nan := by
  cases x with
  | nan => exact iff_of_true rfl rfl
  | infinite s => exact iff_of_false (Option.some_ne_none _) nofun
  | finite s a => exact iff_of_false (Option.some_ne_none _) nofun

/-- Counted in steps, numbers compare as the numbers they are. -/
theorem compare_steps (m k : Int) :
    Ord.compare m k = cmp ((m / one : ℚ) : Extended) ((k / one : ℚ) : Extended) := by
  have hone := Magnitude.one_pos_rat
  rw [Extended.cmp_rat, ← cmp_mul_pos_right hone, div_mul_cancel₀ _ hone.ne',
    div_mul_cancel₀ _ hone.ne', Int.cast_strictMono.cmp_map_eq, cmp_eq_compare]

theorem compareInt_eq_cmp (n : Int) (x : Binary64) :
    compareInt n x = x.denoted.map (cmp ((n : ℚ) : Extended)) := by
  cases x with
  | nan => rfl
  | infinite s => cases s <;> rfl
  | finite s a =>
    have steps : ((n * one : Int) / one : ℚ) = n := by
      rw [Int.cast_mul, Int.cast_natCast, mul_div_cancel_right₀ _ Magnitude.one_pos_rat.ne']
    rw [compareInt, compare_steps, steps, denoted, Option.map_some]

theorem compare_eq_cmp (x y : Binary64) :
    x.compare y = x.denoted.bind fun p => y.denoted.map (cmp p) := by
  cases x with
  | nan => rfl
  | infinite s =>
    cases y with
    | nan => rfl
    | infinite t => cases s <;> cases t <;> rfl
    | finite t b => cases s <;> rfl
  | finite s a =>
    cases y with
    | nan => rfl
    | infinite t => cases t <;> rfl
    | finite t b => exact congrArg some (compare_steps _ _)

end Binary64

namespace Scalar

/-- The integer that a machine word is. -/
def word? : Scalar → Option Int
  | .int32 n => some n.toInt
  | .int64 n => some n.toInt
  | _ => none

variable {s t : Scalar} {m n : Int}

theorem integer?_of_word (hs : s.word? = some n) : s.integer? = some n := by
  cases s <;> cases hs <;> rfl

theorem compare_words (hs : s.word? = some m) (ht : t.word? = some n) :
    s.compare t = some (cmp ((m : ℚ) : Extended) ((n : ℚ) : Extended)) := by
  have exact : s.compare t = some (Ord.compare m n) := by
    cases s <;> cases hs <;> cases t <;> cases ht <;> rfl
  rw [exact, Extended.cmp_rat, Int.cast_strictMono.cmp_map_eq, cmp_eq_compare]

theorem compare_word_double (hs : s.word? = some n) (x : Binary64) :
    s.compare (.float64 x) = x.denoted.map (cmp ((n : ℚ) : Extended)) := by
  have wide : s.compare (.float64 x) = Binary64.compareWide n x := by
    cases s <;> cases hs <;> rfl
  rw [wide, compareWide_of_integer? (integer?_of_word hs), Binary64.compareInt_eq_cmp]

theorem compare_double_word (hs : s.word? = some n) (x : Binary64) :
    (float64 x).compare s = x.denoted.map (cmp · ((n : ℚ) : Extended)) := by
  rw [compare_swap s, compare_word_double hs, Option.map_map]
  exact Option.map_congr fun p _ => cmp_swap _ p

end Scalar

namespace Value

/-- The number that a machine word or a double denotes. -/
def denoted : Value → Option Extended
  | .of (.float64 x) => x.denoted
  | .of s => s.word?.map fun n => ((n : ℚ) : Extended)
  | .null _ => none

variable {u v w : Value}

theorem denoted_cases {p : Extended} (h : v.denoted = some p) :
    (∃ s n, v = .of s ∧ s.word? = some n ∧ p = ((n : ℚ) : Extended)) ∨
      ∃ x, v = .of (.float64 x) ∧ x.denoted = some p := by
  cases v with
  | null k => cases h
  | of s =>
    cases s with
    | float64 x => exact .inr ⟨x, rfl, h⟩
    | int32 n => exact .inl ⟨_, _, rfl, rfl, (Option.some.inj h).symm⟩
    | int64 n => exact .inl ⟨_, _, rfl, rfl, (Option.some.inj h).symm⟩
    | _ => cases h

/-- Where numbers are denoted, they decide. -/
theorem compare_denoted {p q : Extended} (hv : v.denoted = some p) (hw : w.denoted = some q) :
    v.compare w = some (cmp p q) := by
  rcases denoted_cases hv with ⟨s, m, rfl, hs, rfl⟩ | ⟨x, rfl, hx⟩ <;>
    rcases denoted_cases hw with ⟨t, n, rfl, ht, rfl⟩ | ⟨y, rfl, hy⟩
  · exact Scalar.compare_words hs ht
  · exact (Scalar.compare_word_double hs y).trans (by rw [hy, Option.map_some])
  · exact (Scalar.compare_double_word ht x).trans (by rw [hx, Option.map_some])
  · exact (Binary64.compare_eq_cmp x y).trans (by rw [hx, hy, Option.bind_some, Option.map_some])

/-- Less, or a tie. -/
def AtMost (v w : Value) : Prop := ∃ o, v.compare w = some o ∧ o.isLE

theorem atMost_iff {o : Ordering} (verdict : v.compare w = some o) : v.AtMost w ↔ o.isLE := by
  rw [AtMost, verdict]
  simp

/-- Any two of the cells compare, and ties and what is less are in order. -/
structure Lined (S : Value → Prop) : Prop where
  decided : ∀ v w, S v → S w → (v.compare w).isSome
  refl : ∀ v, S v → v.compare v = some .eq
  swap : ∀ v w, S v → S w → w.compare v = (v.compare w).map Ordering.swap
  trans : ∀ u v w, S u → S v → S w → u.AtMost v → v.AtMost w → u.AtMost w

/-- Cells that compare as members of a linear order do. -/
theorem Lined.of_cmp {α : Type} [LinearOrder α] {S : Value → Prop} (number : Value → α)
    (exact : ∀ v w, S v → S w → v.compare w = some (cmp (number v) (number w))) : Lined S where
  decided v w hv hw := by rw [exact v w hv hw]; rfl
  refl v hv := by rw [exact v v hv hv, cmp_self_eq_eq]
  swap v w hv hw := by rw [exact v w hv hw, exact w v hw hv, Option.map_some, cmp_swap]
  trans u v w hu hv hw huv hvw := by
    have atMost {a b : Value} (ha : S a) (hb : S b) : a.AtMost b ↔ number a ≤ number b :=
      (atMost_iff (exact a b ha hb)).trans isLE_cmp_iff
    rw [atMost hu hv] at huv
    rw [atMost hv hw] at hvw
    exact (atMost hu hw).mpr (huv.trans hvw)

/-- A machine word, or a double other than NaN. -/
def MachineNumber (v : Value) : Prop :=
  (∃ s n, v = .of s ∧ s.word? = some n) ∨ ∃ x, v = .of (.float64 x) ∧ x ≠ .nan

theorem MachineNumber.denoted (h : v.MachineNumber) : v.denoted ≠ none := by
  rcases h with ⟨s, n, rfl, word⟩ | ⟨x, rfl, number⟩
  · cases s <;> cases word <;> exact Option.some_ne_none _
  · exact fun none => number (Binary64.denoted_eq_none_iff.mp none)

theorem lined_machineNumbers : Lined MachineNumber :=
  .of_cmp (fun v => v.denoted.getD ⊥) fun v w hv hw => by
    obtain ⟨p, hp⟩ := Option.ne_none_iff_exists'.mp hv.denoted
    obtain ⟨q, hq⟩ := Option.ne_none_iff_exists'.mp hw.denoted
    rw [compare_denoted hp hq, hp, hq, Option.getD_some, Option.getD_some]

/-- From either side a machine word is compared with a double as its integer is with the number that
the double denotes. Only NaN denotes none, and only the integer itself is equal to it. So machine
words and doubles other than NaN are in one line. -/
theorem words_among_doubles :
    (∀ (s : Scalar) (n : Int) (x : Binary64), s.word? = some n →
      (Value.of s).compare (.of (.float64 x)) = x.denoted.map (cmp ((n : ℚ) : Extended)) ∧
      (Value.of (.float64 x)).compare (.of s) = x.denoted.map (cmp · ((n : ℚ) : Extended)) ∧
      (x.denoted = none ↔ x = .nan) ∧
      ((Value.of s).compare (.of (.float64 x)) = some .eq ↔
        x.denoted = some ((n : ℚ) : Extended))) ∧
    Lined MachineNumber := by
  refine ⟨fun s n x word => ?_, lined_machineNumbers⟩
  have exact : (Value.of s).compare (.of (.float64 x)) = _ := Scalar.compare_word_double word x
  refine ⟨exact, Scalar.compare_double_word word x, Binary64.denoted_eq_none_iff, ?_⟩
  rw [exact, Option.map_eq_some_iff]
  constructor
  · rintro ⟨p, number, tie⟩
    rw [number, (cmp_eq_eq_iff _ _).mp tie]
  · exact fun number => ⟨_, number, cmp_self_eq_eq _⟩

/-- The greatest integer below which all are doubles. -/
def evenLimit : Binary64 := .finite false ⟨Nat.pow 2 52, 1075, by decide, by decide, .inl (by decide)⟩

/-- The next integer is no double. It is greater, though a double of its own would be the same. -/
theorem words_among_doubles_odd :
    (Value.of (.int64 9007199254740993)).compare (.of (.float64 evenLimit)) = some .gt ∧
      (Value.of (.float64 evenLimit)).compare (.of (.int64 9007199254740993)) = some .lt := by
  obtain ⟨above, below, -, -⟩ :=
    words_among_doubles.1 (.int64 9007199254740993) 9007199254740993 evenLimit (by decide)
  have number : evenLimit.denoted = some ((9007199254740992 : ℚ) : Extended) := by decide +kernel
  have more : (9007199254740992 : ℚ) < (9007199254740993 : Int) := by norm_num
  rw [above, below, number, Option.map_some, Option.map_some, Extended.cmp_rat, Extended.cmp_rat,
    (cmp_eq_gt_iff _ _).mpr more, (cmp_eq_lt_iff _ _).mpr more]
  exact ⟨rfl, rfl⟩

end Value
end DataAccess
