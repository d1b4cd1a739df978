import DataAccess.Proofs.Value.Fractions

/-!
Numbers turned into machine words. A cell becomes a word just where it denotes an integer that the
word has room for, and then the word is that integer.
-/
namespace DataAccess

namespace Integer

theorem int64?_eq_some_iff {m : Int} {n : Int64} : int64? m = some n ↔ n.toInt = m :=
  ⟨toInt_of_int64?, fun same => same ▸ int64?_toInt n⟩

theorem int32?_eq_some_iff {m : Int} {n : Int32} : int32? m = some n ↔ n.toInt = m := by
  constructor
  · intro h
    rw [int32?] at h
    split at h
    · next bounds => rw [← Option.some.inj h, Int32.toInt_ofInt_of_le bounds.1 bounds.2]
    · cases h
  · exact fun same => same ▸ int32?_toInt n

/-- What fits thirty-two bits is not lost on the way through sixty-four. -/
theorem int64?_bind_int32? (m : Int) : ((int64? m).bind fun n => int32? n.toInt) = int32? m := by
  cases wide : int64? m with
  | some n => rw [Option.bind_some, toInt_of_int64? wide]
  | none =>
    rw [int64?] at wide
    split at wide
    · cases wide
    · next outside =>
      simp only [Nat.pow_eq] at outside
      rw [Option.bind_none, int32?, if_neg]
      simp only [Nat.pow_eq]
      omega

end Integer

namespace Extended

theorem some_rat_iff {p q : ℚ} : some (p : Extended) = some (q : Extended) ↔ p = q :=
  ⟨fun h => WithBotTop.coe_injective (Option.some.inj h), fun h => by rw [h]⟩

theorem some_int_iff {m n : Int} :
    some ((m : ℚ) : Extended) = some ((n : ℚ) : Extended) ↔ m = n :=
  some_rat_iff.trans Int.cast_inj

end Extended

namespace Binary64

variable {x y : Binary64} {m n : Int}

theorem denoted_eq_int_iff : x.denoted = some ((n : ℚ) : Extended) ↔ x.integer? = some n := by
  cases x with
  | nan => exact iff_of_false nofun nofun
  | infinite s =>
    refine iff_of_false (fun h => ?_) nofun
    cases s <;> exact nomatch (Option.some.inj h : _ = ((n : ℚ) : Extended))
  | finite s a =>
    have counted : (signed s a.steps / one : ℚ) = n ↔ signed s a.steps = n * one := by
      rw [div_eq_iff Magnitude.one_pos_rat.ne']
      exact_mod_cast Iff.rfl
    rw [denoted, Extended.some_rat_iff, counted, signed_eq_mul_iff one_pos, integer?]
    simp

theorem isWhole_eq (x : Binary64) : x.isWhole = x.integer?.isSome := by
  cases x with
  | finite s a => by_cases h : a.steps % one = 0 <;> simp [isWhole, integer?, h]
  | _ => rfl

theorem compare_integers (hx : x.integer? = some m) (hy : y.integer? = some n) :
    x.compare y = some (Ord.compare m n) := by
  rw [compare_eq_cmp, denoted_eq_int_iff.mpr hx, denoted_eq_int_iff.mpr hy, Option.bind_some,
    Option.map_some, Extended.cmp_rat, Int.cast_strictMono.cmp_map_eq, cmp_eq_compare]

/-- Inside the range the nearest word is the integer itself. -/
theorem toInt64_of_integer? (whole : x.integer? = some n) (low : -2 ^ 63 ≤ n) (high : n < 2 ^ 63) :
    x.toInt64 = Int64.ofInt n := by
  cases x with
  | finite s a =>
    have before : signed s (a.steps / one) = n := by
      rw [integer?] at whole
      split at whole
      · exact Option.some.inj whole
      · cases whole
    have least : Int64.minValue.toInt = -2 ^ 63 := by decide
    have greatest : Int64.maxValue.toInt = 2 ^ 63 - 1 := by decide
    rw [toInt64, before, least, greatest, min_eq_left (by omega), max_eq_right low]
  | _ => cases whole

/-- Though the upper bound is rounded to one past the greatest word, no word is missed or added. -/
theorem int64?_eq (x : Binary64) : x.int64? = x.integer?.bind Integer.int64? := by
  cases whole : x.integer? with
  | none => simp [int64?, isWhole_eq, whole]
  | some n =>
    have least := compare_integers (n := -2 ^ 63) whole
      (show (ofInt Int64.minValue.toInt).integer? = some (-2 ^ 63) by decide +kernel)
    have beyond := compare_integers (n := 2 ^ 63) whole
      (show (ofInt Int64.maxValue.toInt).integer? = some (2 ^ 63) by decide +kernel)
    have guarded : ((Ord.compare n (-2 ^ 63)).isGE && some (Ord.compare n (2 ^ 63)) == some .lt) ↔
        -2 ^ 63 ≤ n ∧ n < 2 ^ 63 := by
      rw [Bool.and_eq_true, beq_iff_eq, Option.some_inj, Std.isGE_compare, Int.compare_eq_lt]
    simp only [int64?, isWhole_eq, whole, least, beyond, Option.isSome_some, Option.any_some,
      Bool.true_and, guarded, Option.bind_some, Integer.int64?]
    by_cases inside : -2 ^ 63 ≤ n ∧ n < 2 ^ 63
    · rw [if_pos inside, toInt64_of_integer? whole inside.1 inside.2]
      exact (if_pos inside).symm
    · rw [if_neg inside]
      exact (if_neg inside).symm

end Binary64

/-- The bits of a word beside its sign. -/
def Kind.bits? : Kind → Option Nat
  | .int32 => some 31
  | .int64 => some 63
  | _ => none

namespace Scalar

/-- The number that a numeric cell denotes. NaN denotes none. -/
def number : Scalar → Option Extended
  | .float64 x => x.denoted
  | .decimal d => some (d.value : Extended)
  | s => s.word?.map fun n : Int => ((n : ℚ) : Extended)

/-- The integer that a numeric cell denotes. -/
def whole? : Scalar → Option Int
  | .float64 x => x.integer?
  | s => s.integer?

variable {s t : Scalar} {kind : Kind} {n : Int} {bits : Nat}

theorem number_eq_int_iff : s.number = some ((n : ℚ) : Extended) ↔ s.whole? = some n := by
  cases s with
  | float64 x => exact Binary64.denoted_eq_int_iff
  | decimal d =>
    rw [number, Extended.some_rat_iff]
    exact Decimal.value_eq_iff
  | int32 k => exact Extended.some_int_iff.trans Option.some_inj.symm
  | int64 k => exact Extended.some_int_iff.trans Option.some_inj.symm
  | _ => exact iff_of_false nofun nofun

/-- An integer has a word if there is room for it, and the word is the integer. -/
theorem ofInteger?_eq_some_iff (width : kind.bits? = some bits) :
    ofInteger? n kind = some t ↔ t.kind = kind ∧ t.word? = some n := by
  cases kind <;> cases width
  · cases t <;> simp [ofInteger?, Scalar.kind, word?, Integer.int32?_eq_some_iff]
  · cases t <;> simp [ofInteger?, Scalar.kind, word?, Integer.int64?_eq_some_iff]

theorem ofInteger?_isSome_iff (width : kind.bits? = some bits) :
    (ofInteger? n kind).isSome ↔ -2 ^ bits ≤ n ∧ n ≤ 2 ^ bits - 1 := by
  cases kind <;> cases width <;> simp [ofInteger?, Integer.int32?, Integer.int64?] <;> omega

/-- What was made, or the failure that shows a cell. -/
def madeOr (made : Option Scalar) (shown : Scalar) (kind : Kind) : Outcome Value :=
  match made with
  | some t => .ok (.of t)
  | none => .error (.typeCoercion shown.display kind.name)

theorem coerce_eq_convert? (plain : s.coerce kind = s.convert kind) :
    (Value.of s).coerce (some kind) = madeOr (s.convert? kind) s kind := by
  cases h : s.convert? kind with
  | none => exact Value.coerce_error_of_convert? h plain
  | some t => exact Value.coerce_ok_of_convert? h plain

/-- A decimal becomes a narrow word by way of a wide one, which is what a failure shows. -/
theorem coerce_int32_decimal (d : Decimal) : ∃ shown, shown.number = (decimal d).number ∧
    (Value.of (decimal d)).coerce (some .int32) =
      madeOr (d.integer?.bind (ofInteger? · .int32)) shown .int32 := by
  cases wide : d.integer?.bind Integer.int64? with
  | none =>
    have narrow : d.integer?.bind (ofInteger? · .int32) = none := by
      cases whole : d.integer? with
      | none => rfl
      | some m =>
        rw [whole, Option.bind_some] at wide
        simp [ofInteger?, ← Integer.int64?_bind_int32? m, wide]
    have plain : (decimal d).coerce .int32 = (decimal d).convert .int32 := by
      simp [coerce, wide, Scalar.kind]
    refine ⟨_, rfl, ?_⟩
    rw [coerce_eq_convert? plain, narrow]
    rfl
  | some k =>
    obtain ⟨m, whole, fits⟩ := Option.bind_eq_some_iff.mp wide
    have exact := Integer.toInt_of_int64? fits
    have through : (decimal d).coerce .int32 = (int64 k).convert .int32 := by
      simp [coerce, wide, Scalar.kind]
    refine ⟨.int64 k, ?_, ?_⟩
    · have same : (decimal d).number = some ((m : ℚ) : Extended) := number_eq_int_iff.mpr whole
      have word : (int64 k).number = some ((k.toInt : ℚ) : Extended) := rfl
      rw [same, word, exact]
    · have narrowed : (Value.of (int64 k)).coerce (some .int32) =
          madeOr (ofInteger? k.toInt .int32) (int64 k) .int32 := coerce_eq_convert? rfl
      rw [whole, Option.bind_some, ← exact, ← narrowed]
      simp only [Value.coerce, through]
      rfl

/-- The word of its integer is what a numeric cell becomes. Where there is none, the failure shows
a cell of the number. -/
theorem coerce_word (numeric : s.kind.rank = 2) (width : kind.bits? = some bits)
    (way : s.kind = .float64 → kind = .int64) :
    ∃ shown, shown.number = s.number ∧ (Value.of s).coerce (some kind) =
      madeOr (s.whole?.bind (ofInteger? · kind)) shown kind := by
  cases s with
  | int32 k =>
    refine ⟨_, rfl, ?_⟩
    cases kind <;> cases width
    · have own : (int32 k).whole?.bind (ofInteger? · .int32) = some (.int32 k) := by
        simp [whole?, integer?, ofInteger?, Integer.int32?_toInt]
      rw [own]
      rfl
    · exact coerce_eq_convert? rfl
  | int64 k =>
    refine ⟨_, rfl, ?_⟩
    cases kind <;> cases width
    · exact coerce_eq_convert? rfl
    · have own : (int64 k).whole?.bind (ofInteger? · .int64) = some (.int64 k) := by
        simp [whole?, integer?, ofInteger?, Integer.int64?_toInt]
      rw [own]
      rfl
  | float64 x =>
    obtain rfl := way rfl
    refine ⟨_, rfl, (coerce_eq_convert? rfl).trans ?_⟩
    rw [convert?, Binary64.int64?_eq, Option.map_bind]
    rfl
  | decimal d =>
    cases kind <;> cases width
    · exact coerce_int32_decimal d
    · refine ⟨_, rfl, (coerce_eq_convert? rfl).trans ?_⟩
      rw [convert?, Option.map_bind]
      rfl
  | _ => cases numeric

/-- The cell becomes the integer it denotes just where a word of the kind has room for it. Else the
failure names the kind and shows a cell of the number. -/
structure Exactly (s : Scalar) (kind : Kind) (bits : Nat) : Prop where
  succeeds : (∃ v, (Value.of s).coerce (some kind) = .ok v) ↔
    ∃ n : Int, s.number = some ((n : ℚ) : Extended) ∧ -2 ^ bits ≤ n ∧ n ≤ 2 ^ bits - 1
  result : ∀ v, (Value.of s).coerce (some kind) = .ok v → ∃ (t : Scalar) (n : Int),
    v = .of t ∧ t.kind = kind ∧ t.word? = some n ∧ s.number = some ((n : ℚ) : Extended)
  failure : ∀ f, (Value.of s).coerce (some kind) = .error f →
    ∃ shown : Scalar, shown.number = s.number ∧ f = .typeCoercion shown.display kind.name

theorem madeOr_eq_ok {made : Option Scalar} {v : Value} :
    madeOr made s kind = .ok v ↔ ∃ t, made = some t ∧ v = .of t := by
  cases made <;> simp [madeOr, eq_comm]

theorem madeOr_eq_error {made : Option Scalar} {f : Failure} :
    madeOr made s kind = .error f ↔ made = none ∧ f = .typeCoercion s.display kind.name := by
  cases made <;> simp [madeOr, eq_comm]

theorem exactly (numeric : s.kind.rank = 2) (width : kind.bits? = some bits)
    (way : s.kind = .float64 → kind = .int64) : s.Exactly kind bits := by
  obtain ⟨shown, same, coerced⟩ := coerce_word numeric width way
  refine ⟨?_, fun v h => ?_, fun f h => ?_⟩
  · simp only [coerced, madeOr_eq_ok, number_eq_int_iff, ← ofInteger?_isSome_iff width,
      Option.isSome_iff_exists]
    constructor
    · rintro ⟨v, t, made, -⟩
      exact (Option.bind_eq_some_iff.mp made).imp fun n h => ⟨h.1, t, h.2⟩
    · rintro ⟨n, whole, t, word⟩
      exact ⟨_, t, Option.bind_eq_some_iff.mpr ⟨n, whole, word⟩, rfl⟩
  · rw [coerced, madeOr_eq_ok] at h
    obtain ⟨t, made, rfl⟩ := h
    obtain ⟨n, whole, word⟩ := Option.bind_eq_some_iff.mp made
    obtain ⟨kind, word⟩ := (ofInteger?_eq_some_iff width).mp word
    exact ⟨t, n, rfl, kind, word, number_eq_int_iff.mpr whole⟩
  · rw [coerced, madeOr_eq_error] at h
    exact ⟨shown, same, h.2⟩

/-- A numeric cell becomes a word of sixty-four bits just where it denotes an integer that these
have room for, and the word is that integer. It is the same with thirty-two bits, which no double
becomes. An infinity or NaN becomes nothing but text. -/
theorem numbers_into_words (numeric : s.kind.rank = 2) :
    s.Exactly .int64 63 ∧ (s.kind ≠ .float64 → s.Exactly .int32 31) ∧
      ∀ x, s = .float64 x →
        (Value.of s).coerce (some .int32) = .error (.typeCoercion s.display Kind.int32.name) ∧
        ((x = .nan ∨ ∃ negative, x = .infinite negative) → ∀ kind, kind ≠ .float64 →
          kind ≠ .varchar →
          (Value.of s).coerce (some kind) = .error (.typeCoercion s.display kind.name)) := by
  refine ⟨exactly numeric rfl fun _ => rfl,
    fun other => exactly numeric rfl fun double => absurd double other, ?_⟩
  rintro x rfl
  refine ⟨rfl, fun unbounded kind other notText => ?_⟩
  have nothing : (float64 x).convert? kind = none := by
    rcases unbounded with rfl | ⟨negative, rfl⟩ <;> cases kind <;>
      first | rfl | exact absurd rfl other | exact absurd rfl notText
  have plain : (float64 x).coerce kind = (float64 x).convert kind := by
    cases kind <;> first | rfl | exact absurd rfl other
  rw [coerce_eq_convert? plain, nothing]
  rfl

/-- The least word has a double. The greatest has none: the double next to it is one too many. -/
theorem numbers_into_words_ends :
    (Value.of (.float64 (.ofInt (-2 ^ 63)))).coerce (some .int64) = .ok (.of (.int64 (-2 ^ 63))) ∧
      (∃ n : Int, (float64 (.ofInt (-2 ^ 63))).number = some ((n : ℚ) : Extended) ∧
        -2 ^ 63 ≤ n ∧ n ≤ 2 ^ 63 - 1) ∧
      ¬∃ v, (Value.of (.float64 (.ofInt (2 ^ 63 - 1)))).coerce (some .int64) = .ok v := by
  have least : (Value.of (.float64 (.ofInt (-2 ^ 63)))).coerce (some .int64) =
      .ok (.of (.int64 (-2 ^ 63))) := Outcome.eq_ok_of_toOption (by decide +kernel)
  obtain ⟨exact, -⟩ := numbers_into_words (s := float64 (.ofInt (-2 ^ 63))) rfl
  obtain ⟨beyond, -⟩ := numbers_into_words (s := float64 (.ofInt (2 ^ 63 - 1))) rfl
  refine ⟨least, exact.succeeds.mp ⟨_, least⟩, ?_⟩
  rw [beyond.succeeds]
  rintro ⟨n, number, -, high⟩
  have double : (float64 (.ofInt (2 ^ 63 - 1))).whole? = some (2 ^ 63) := by decide +kernel
  obtain rfl := Option.some.inj (double.symm.trans (number_eq_int_iff.mp number))
  omega

end Scalar
end DataAccess
