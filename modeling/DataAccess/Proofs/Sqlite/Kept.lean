import DataAccess.Proofs.Numeric.DoubleError
import DataAccess.Proofs.Numeric.Sides
import DataAccess.Proofs.Value.Spelled
import DataAccess.Sql.Dialect
import DataAccess.Sqlite.Affinity

/-!
What is put into a column and read again. A column keeps cells of the class that it prefers, which
are those its kind is bound as, so all kinds but decimals are read as they were. Decimals are kept
as reals.
-/
namespace DataAccess

namespace Binary64

theorem beq_iff {x y : Binary64} : (x == y) = true ↔ x.compare y = some .eq := by
  have same : (x == y) = (x.compare y == some .eq) := rfl
  rw [same, beq_iff_eq]

theorem beq_self {x : Binary64} (number : x ≠ .nan) : (x == x) = true := by
  rw [beq_iff]
  cases x with
  | nan => exact absurd rfl number
  | infinite s => exact congrArg some Std.ReflOrd.compare_self
  | finite s a => exact congrArg some Std.ReflOrd.compare_self

theorem natAbs_signed (s : Bool) (k : Nat) : (signed s k).natAbs = k := by
  cases s
  · exact Int.natAbs_natCast k
  · exact (Int.natAbs_neg k).trans (Int.natAbs_natCast k)

/-- The sign of a number other than zero can be told from it. -/
theorem signed_decide (s : Bool) (k c : Nat) :
    signed (decide (signed s k < 0)) (k * c) = signed s (k * c) := by
  rw [signed_eq_iff]
  refine ⟨rfl, ?_⟩
  cases k with
  | zero => exact .inr (Nat.zero_mul c)
  | succ k =>
    left
    cases s
    · exact decide_eq_false (Int.not_lt.mpr (Int.natCast_nonneg _))
    · exact decide_eq_true (Int.negSucc_lt_zero k)

/-- A double that is an integer of few bits is the double of that integer. -/
theorem ofInt_beq {x : Binary64} {n : Int} (whole : x.integer? = some n)
    (small : n.natAbs ≤ 2 ^ 128) : (ofInt n == x) = true := by
  obtain ⟨s, a, k, rfl, rfl, steps⟩ := eq_of_integer? whole
  rw [natAbs_signed] at small
  have parts : a.steps = a.mantissa * 2 ^ a.shift := rfl
  have room : k ≤ 1 * 2 ^ 128 := by rwa [Nat.one_mul]
  have exact : k * one = 1 * (a.mantissa * 2 ^ a.shift) := by
    rw [← steps, Nat.one_mul, parts]
  have near := Magnitude.near_exact Nat.one_pos room a.mantissa_lt exact
  have near : Magnitude.near k 1 = a := Magnitude.eq_of_steps_eq (near.trans parts.symm)
  have found := Magnitude.nearest?_near Nat.one_pos room
  rw [beq_iff, ofInt, natAbs_signed, ofRatio_finite _ found, near, compare, steps, signed_decide,
    Std.ReflOrd.compare_self]

end Binary64

/-- Equal doubles have decimals of one value. -/
theorem Decimal.value_ofBinary64? {x y : Binary64} (h : (y == x) = true) :
    (ofBinary64? y).map value = (ofBinary64? x).map value := by
  have zero {x : Binary64} (none : x.integer? = some 0) : (ofBinary64? x).map value = some 0 := by
    obtain ⟨s, a, k, rfl, zero, steps⟩ := Binary64.eq_of_integer? none
    have size : k = 0 := by rw [← Binary64.natAbs_signed s k, ← zero, Int.natAbs_zero]
    have whole : a.value = (0 : Nat) := by
      rw [Magnitude.value, steps, size, Nat.zero_mul, Nat.cast_zero, zero_div]
    rw [ofBinary64?_whole s whole]
    refine congrArg some ?_
    rw [value_eq, number, Nat.cast_zero, zero_div, neg_zero, ite_self]
  rcases Binary64.eq_of_compare_eq (Binary64.beq_iff.mp h) with rfl | ⟨hy, hx⟩
  · rfl
  · rw [zero hy, zero hx]

namespace Sqlite

/-- The class that columns of a kind prefer. -/
def Affinity.ofKind (kind : Kind) : Affinity := .ofType (Sql.Dialect.sqlite.kind (some kind))

/-- Of the preferred class. -/
def Affinity.Prefers : Affinity → Cell → Prop
  | .integer, .integer _ | .real, .real _ | .text, .text _ | .blob, .blob _ => True
  | _, _ => False

def Cell.IsReal : Cell → Prop
  | .real _ => True
  | _ => False

/-- The sign of a zero aside. -/
def Cell.Unchanged (c c' : Cell) : Prop :=
  c' = c ∨ ∃ x y, c = .real x ∧ c' = .real y ∧ (y == x) = true

/-- What the engine is relied on for, whatever it does to other cells. -/
def Keeps (stored : Kind → Cell → Cell) : Prop :=
  ∀ kind c, (Affinity.ofKind kind).Prefers c → c.Unchanged (stored kind c)

/-- What is read of a scalar that has been put into a column of its kind. -/
def readBack (stored : Kind → Cell → Cell) (s : Scalar) : Outcome Value :=
  (stored s.kind (.ofScalar s)).toValue.coerce (some s.kind)

theorem Affinity.ofKind_eq (kind : Kind) : ofKind kind = match kind with
    | .boolean | .int32 | .int64 => .integer
    | .float64 | .decimal => .real
    | .blob => .blob
    | _ => .text := by
  cases kind <;> decide +kernel

theorem Cell.ofDouble_of_number {x : Binary64} (number : x ≠ .nan) : ofDouble x = .real x :=
  if_neg number

/-- Every scalar is bound as a cell of the class that its column prefers. -/
theorem prefers_ofScalar {s : Scalar} (number : s ≠ .float64 .nan) :
    (Affinity.ofKind s.kind).Prefers (Cell.ofScalar s) := by
  rw [Affinity.ofKind_eq]
  cases s with
  | float64 x =>
    rw [Cell.ofScalar, Cell.ofDouble_of_number (fun nan => number (congrArg _ nan))]
    trivial
  | decimal d =>
    obtain ⟨negative, double, -⟩ := d.toBinary64_eq
    rw [Cell.ofScalar, double]
    trivial
  | _ => trivial

section

variable {s : Scalar} {c c' : Cell}

theorem Cell.Unchanged.eq_of_not_real (h : c.Unchanged c') (exact : ¬c.IsReal) : c' = c := by
  rcases h with rfl | ⟨x, y, rfl, -⟩
  · rfl
  · exact absurd trivial exact

theorem Cell.Unchanged.of_real {x : Binary64} (h : (Cell.real x).Unchanged c') (number : x ≠ .nan) :
    ∃ y, c' = .real y ∧ (y == x) = true := by
  rcases h with rfl | ⟨x', y, same, double, equal⟩
  · exact ⟨x, rfl, Binary64.beq_self number⟩
  · obtain rfl := Cell.real.inj same
    exact ⟨y, double, equal⟩

theorem restored_of_coerce (notDouble : s.kind ≠ .float64)
    (h : c.toValue.coerce (some s.kind) = .ok (.of s)) :
    ∃ w, c.toValue.coerce (some s.kind) = .ok (.of w) ∧ (Value.of w == Value.of s) = true :=
  ⟨s, h, (Scalar.restores_self notDouble).1⟩

theorem restored_of_text (notDouble : s.kind ≠ .float64) (notText : s.kind ≠ .varchar)
    (notBytes : s.kind ≠ .blob) (kept : (Cell.text s.spelled).Unchanged c) :
    ∃ w, c.toValue.coerce (some s.kind) = .ok (.of w) ∧ (Value.of w == Value.of s) = true := by
  obtain ⟨w, read, restores⟩ := Scalar.ofText?_spelled notDouble notText notBytes
  have converted : (Scalar.varchar s.spelled).convert? s.kind = some w := by
    rw [Scalar.convert?, read]
  rw [kept.eq_of_not_real id, Cell.toValue]
  exact ⟨w, Value.coerce_ok_of_convert? converted (Scalar.coerce_of_varchar notText _),
    restores.1⟩

/-- A cell that holds a value of the kind, or one that is converted without loss. -/
theorem restored (number : s ≠ .float64 .nan) (exact : s.kind ≠ .decimal)
    (kept : (Cell.ofScalar s).Unchanged c) :
    ∃ w, c.toValue.coerce (some s.kind) = .ok (.of w) ∧ (Value.of w == Value.of s) = true := by
  have text (k : Kind) (notDouble : k ≠ .float64) (notText : k ≠ .varchar) (notBytes : k ≠ .blob)
      (same : s.kind = k) (bound : Cell.ofScalar s = .text s.spelled) :
      ∃ w, c.toValue.coerce (some s.kind) = .ok (.of w) ∧ (Value.of w == Value.of s) = true := by
    subst same
    exact restored_of_text notDouble notText notBytes (bound ▸ kept)
  -- A cell that is no double is kept as it is; what was bound as text is read from its spelling.
  cases s with
  | boolean b =>
    rw [kept.eq_of_not_real id]
    exact restored_of_coerce (by decide : Kind.boolean ≠ .float64) (by cases b <;> rfl)
  | int32 n =>
    have converted : (Scalar.int64 n.toInt64).convert? .int32 = some (.int32 n) := by
      have read : (Integer.int32? n.toInt64.toInt).map Scalar.int32 = some (.int32 n) := by
        rw [Int32.toInt_toInt64, Integer.int32?_toInt, Option.map_some]
      exact read
    rw [kept.eq_of_not_real id]
    exact restored_of_coerce (by decide : Kind.int32 ≠ .float64)
      (Value.coerce_ok_of_convert? converted rfl)
  | int64 n =>
    rw [kept.eq_of_not_real id]
    exact restored_of_coerce (by decide : Kind.int64 ≠ .float64) rfl
  | float64 x =>
    have notNan : x ≠ .nan := fun nan => number (congrArg _ nan)
    rw [Cell.ofScalar, Cell.ofDouble_of_number notNan] at kept
    obtain ⟨y, rfl, equal⟩ := kept.of_real notNan
    exact ⟨.float64 y, rfl, equal⟩
  | decimal d => exact absurd rfl exact
  | varchar t =>
    rw [kept.eq_of_not_real id]
    exact restored_of_coerce (by decide : Kind.varchar ≠ .float64) rfl
  | blob b =>
    rw [kept.eq_of_not_real id]
    exact restored_of_coerce (by decide : Kind.blob ≠ .float64) rfl
  | date d => exact text .date (by decide) (by decide) (by decide) rfl rfl
  | time t => exact text .time (by decide) (by decide) (by decide) rfl rfl
  | timestamp t => exact text .timestamp (by decide) (by decide) (by decide) rfl rfl
  | uuid u => exact text .uuid (by decide) (by decide) (by decide) rfl rfl

end

theorem Affinity.unchanged_fit {a : Affinity} {c : Cell} (preferred : a.Prefers c) :
    c.Unchanged (a.fit c) := by
  cases a <;> cases c <;> cases preferred
  · exact .inl rfl
  · next x =>
    have fitted : fit .real (.real x) =
        .real (((integer? x).map fun n => .ofInt n.toInt).getD x) := rfl
    rw [fitted]
    cases whole : integer? x with
    | none =>
      left
      rw [Option.map_none, Option.getD_none]
    | some n =>
      obtain ⟨bits, -⟩ := Option.filter_eq_some_iff.mp whole
      obtain ⟨m, exact, word⟩ := Option.bind_eq_some_iff.mp bits
      have size : n.toInt.natAbs ≤ 2 ^ 128 := by
        have low := n.le_toInt
        have high := n.toInt_lt
        omega
      have equal : (Binary64.ofInt n.toInt == x) = true := by
        rw [Integer.toInt_of_int64? word] at size ⊢
        exact Binary64.ofInt_beq exact size
      rw [Option.map_some, Option.getD_some]
      generalize Binary64.ofInt n.toInt = y at equal ⊢
      exact .inr ⟨x, y, rfl, rfl, equal⟩
  · exact .inl rfl
  · exact .inl rfl

/-- Tables of the engine keep what it is relied on to keep. -/
theorem keeps_fit : Keeps fun kind => (Affinity.ofKind kind).fit :=
  fun _ _ => Affinity.unchanged_fit

section

variable {d : Decimal} {c : Cell}

/-- Of a column of decimals the decimal of a double is read. -/
theorem read_decimal (y : Binary64) (v : Value) :
    (Cell.real y).toValue.coerce (some .decimal) = .ok v ↔
      ∃ w, Decimal.ofBinary64? y = some w ∧ v = .of (.decimal w) := by
  have converted :
      (Scalar.float64 y).convert? .decimal = (Decimal.ofBinary64? y).map .decimal := rfl
  rw [Cell.toValue]
  cases read : Decimal.ofBinary64? y with
  | none =>
    rw [read, Option.map_none] at converted
    rw [Value.coerce_error_of_convert? converted rfl]
    exact iff_of_false nofun fun ⟨w, unread, _⟩ => nomatch unread
  | some w =>
    rw [read, Option.map_some] at converted
    rw [Value.coerce_ok_of_convert? converted rfl]
    refine ⟨fun h => ⟨w, rfl, (Except.ok.inj h).symm⟩, fun ⟨w', same, h⟩ => ?_⟩
    rw [h, Option.some.inj same]

/-- What is read has the value of the decimal that the double would have, had it been kept as it
was. -/
theorem Cell.Unchanged.decimal (kept : (Cell.ofScalar (.decimal d)).Unchanged c) :
    (∀ v, c.toValue.coerce (some .decimal) = .ok v → ∃ w w', v = .of (.decimal w) ∧
      Decimal.ofBinary64? d.toBinary64 = some w' ∧ w.value = w'.value) ∧
    ∀ w', Decimal.ofBinary64? d.toBinary64 = some w' →
      ∃ w, c.toValue.coerce (some .decimal) = .ok (.of (.decimal w)) ∧ w.value = w'.value := by
  obtain ⟨negative, double, -⟩ := d.toBinary64_eq
  have number : d.toBinary64 ≠ .nan := by
    rw [double]
    exact nofun
  rw [Cell.ofScalar, Cell.ofDouble_of_number number] at kept
  obtain ⟨y, rfl, equal⟩ := kept.of_real number
  have same := Decimal.value_ofBinary64? equal
  simp only [read_decimal]
  constructor
  · rintro v ⟨w, read, rfl⟩
    rw [read, Option.map_some] at same
    obtain ⟨w', read', value⟩ := Option.map_eq_some_iff.mp same.symm
    exact ⟨w, w', rfl, read', value.symm⟩
  · intro w' read'
    rw [read', Option.map_some] at same
    obtain ⟨w, read, value⟩ := Option.map_eq_some_iff.mp same
    exact ⟨w, ⟨w, read, rfl⟩, value⟩

end

/-- What has been put into a column of its kind is read as it was. A decimal is read if it does not
round to more than ninety-six bits, and then is off by no more than bits beyond the 45th. It is read
as it was if it is a whole number of no more than 53 bits, zeros behind them aside, or if it has few
digits and places and its doubles are close enough together. -/
theorem readBack_kept {stored : Kind → Cell → Cell} (keeps : Keeps stored) (s : Scalar)
    (number : s ≠ .float64 .nan) :
    (s.kind ≠ .decimal →
      ∃ w, readBack stored s = .ok (.of w) ∧ (Value.of w == Value.of s) = true) ∧
    ∀ d, s = .decimal d →
      ((∃ v, readBack stored s = .ok v) ↔ |d.value| < 2 ^ 96 - 2 ^ 42) ∧
      (∀ v, readBack stored s = .ok v →
        ∃ w, v = .of (.decimal w) ∧ |w.value - d.value| ≤ |d.value| / 2 ^ 45) ∧
      (d.Round ∨ d.Held →
        ∃ w, readBack stored s = .ok (.of w) ∧ (Value.of w == Value.of s) = true) := by
  have kept := keeps s.kind (.ofScalar s) (prefers_ofScalar number)
  refine ⟨fun exact => restored number exact kept, ?_⟩
  rintro d rfl
  obtain ⟨from_double, to_double⟩ := kept.decimal
  refine ⟨?_, fun v read => ?_, fun exact => ?_⟩
  · rw [← d.read_iff, Option.isSome_iff_exists]
    constructor
    · rintro ⟨v, read⟩
      obtain ⟨w, w', -, read', -⟩ := from_double v read
      exact ⟨w', read'⟩
    · rintro ⟨w', read'⟩
      obtain ⟨w, read, -⟩ := to_double w' read'
      exact ⟨_, read⟩
  · obtain ⟨w, w', rfl, read', value⟩ := from_double v read
    refine ⟨w, rfl, ?_⟩
    rw [value]
    exact Decimal.read_error read'
  · obtain ⟨w', read', same⟩ := exact.elim Decimal.Round.kept Decimal.Held.kept
    obtain ⟨w, read, value⟩ := to_double w' read'
    refine ⟨.decimal w, read, ?_⟩
    exact Decimal.beq_iff.mpr (value.trans (Decimal.beq_iff.mp same))

/-- 19.99, which has few digits. -/
def price : Decimal := .ofCents false 1999

theorem price_held : price.Held := ⟨by decide, by decide, by decide⟩

theorem readBack_kept_price :
    Scalar.decimal price ≠ .float64 .nan ∧ Keeps (fun kind => (Affinity.ofKind kind).fit) ∧
      ∃ w, readBack (fun kind => (Affinity.ofKind kind).fit) (.decimal price) = .ok (.of w) ∧
        (Value.of w == Value.of (.decimal price)) = true :=
  ⟨by decide, keeps_fit,
    ((readBack_kept keeps_fit (.decimal price) (by decide)).2 price rfl).2.2 (.inr price_held)⟩

/-- 4194304.23, whose doubles are too far apart. -/
def balance : Decimal := .ofCents false 419430423

/-- Nothing is done to the double that is put into the column, and another number is read. -/
theorem readBack_balance :
    Keeps (fun _ c => c) ∧ Scalar.decimal balance ≠ .float64 .nan ∧
      ¬∃ w, readBack (fun _ c => c) (.decimal balance) = .ok (.of w) ∧
        (Value.of w == Value.of (.decimal balance)) = true := by
  refine ⟨fun _ _ _ => .inl rfl, by decide, ?_⟩
  have read : readBack (fun _ c => c) (.decimal balance) =
      .ok (.of (.decimal ⟨false, 4194304230000001, 9, by decide, by decide⟩)) :=
    Outcome.eq_ok_of_toOption (by decide +kernel)
  rintro ⟨w, read', same⟩
  obtain rfl := Value.of.inj (Except.ok.inj (read.symm.trans read'))
  exact absurd same (by decide +kernel)

/-- One number from each interval in which doubles are too coarse, one of sixteen digits, one of
twenty-three places and the least one that is not read. -/
def notKept : List Decimal :=
  [(4096029, 3), (419430423, 2), (429496729602, 2), (439804651110423, 2), (6126933103096309, 1),
    (40042867871, 23), (2 ^ 96 - 2 ^ 42, 0)].filterMap fun (m, p) => Decimal.ofParts? false m p

/-- None of the conditions under which a decimal is read as it was can be left out. -/
theorem readBack_notKept : notKept.length = 7 ∧ ∀ d ∈ notKept,
    ((readBack (fun _ c => c) (.decimal d)).toOption.any (· == .of (.decimal d))) = false := by
  decide +kernel

end Sqlite
end DataAccess
