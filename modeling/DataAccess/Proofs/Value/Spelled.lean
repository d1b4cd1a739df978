import DataAccess.Proofs.Calendar.Written
import DataAccess.Proofs.Numeric.DecimalText
import DataAccess.Proofs.Outcome
import DataAccess.Proofs.Text.Utf8
import DataAccess.Proofs.Text.UuidText
import DataAccess.Value.Coercion

/-!
Cells as text and back. Every kind but doubles has a text from which an equal cell is read; bytes
have one just where they are valid UTF-8.
-/
namespace DataAccess

namespace Integer

theorem int32?_toInt (n : Int32) : int32? n.toInt = some n := by
  rw [int32?, if_pos ⟨n.le_toInt, n.toInt_lt⟩, Int32.ofInt_toInt]

theorem int64?_toInt (n : Int64) : int64? n.toInt = some n := by
  rw [int64?, if_pos ⟨n.le_toInt, n.toInt_lt⟩, Int64.ofInt_toInt]

theorem toInt_of_int64? {m : Int} {n : Int64} (h : int64? m = some n) : n.toInt = m := by
  rw [int64?] at h
  split at h
  · next bounds =>
    rw [← Option.some.inj h, Int64.toInt_ofInt_of_le bounds.1 bounds.2]
  · exact nomatch h

end Integer

namespace Decimal

/-- Decimals of one scale are equal when their signed mantissas are. -/
theorem beq_of_signed_eq {a b : Decimal} (same : a.signed = b.signed) (scale : a.scale = b.scale) :
    (a == b) = true := by
  have equal : a.compare b = .eq := by
    rw [compare, same, scale]
    exact Std.ReflOrd.compare_self
  exact (congrArg (· == Ordering.eq) equal).trans rfl

theorem cents_lt (n : UInt64) : n.toNat < Nat.pow 2 96 := Nat.lt_trans n.toNat_lt (by decide)

theorem cents_places : 2 ≤ 28 := by decide

/-- So many hundredths. -/
def ofCents (negative : Bool) (n : UInt64) : Decimal :=
  ⟨negative, n.toNat, 2, cents_lt n, cents_places⟩

end Decimal

namespace Scalar

/-- Equal, and a decimal of the same scale. -/
def Restores (s w : Scalar) : Prop :=
  (Value.of w == Value.of s) = true ∧
    ∀ d, s = .decimal d → ∃ e, w = .decimal e ∧ e.scale = d.scale

theorem restores_self {s : Scalar} (notDouble : s.kind ≠ .float64) : s.Restores s := by
  refine ⟨?_, fun d h => ⟨d, h, rfl⟩⟩
  cases s with
  | float64 x => exact absurd rfl notDouble
  | decimal d => exact Decimal.beq_of_signed_eq rfl rfl
  | _ => exact decide_eq_true rfl

/-- The number counts, not the sign of a zero. -/
theorem restores_unsigned_zero (d : Decimal) :
    (decimal d).Restores (.decimal
      ⟨d.negative && d.mantissa != 0, d.mantissa, d.scale, d.mantissa_lt, d.scale_le⟩) := by
  refine ⟨?_, fun e h => ⟨_, rfl, ?_⟩⟩
  · have number : Decimal.signed ⟨d.negative && d.mantissa != 0, d.mantissa, d.scale,
        d.mantissa_lt, d.scale_le⟩ = d.signed := by
      cases hn : d.negative with
      | false => simp [Decimal.signed, hn]
      | true => by_cases hm : d.mantissa = 0 <;> simp [Decimal.signed, hn, hm]
    exact Decimal.beq_of_signed_eq number rfl
  · rw [Scalar.decimal.inj h]

/-- The text that a cell other than bytes is turned into. -/
def spelled (s : Scalar) : String := s.canonical?.getD s.display

/-- A cell other than text and bytes has a text, and the text has an equal cell of the kind. -/
theorem ofText?_spelled {s : Scalar} (notDouble : s.kind ≠ .float64) (notText : s.kind ≠ .varchar)
    (notBytes : s.kind ≠ .blob) : ∃ w, ofText? s.spelled s.kind = some w ∧ s.Restores w := by
  have found (h : ofText? s.spelled s.kind = some s) :
      ∃ w, ofText? s.spelled s.kind = some w ∧ s.Restores w := ⟨s, h, restores_self notDouble⟩
  cases s with
  | boolean b => exact found (by cases b <;> decide)
  | int32 n =>
    have read : (Integer.signed? (toString n.toInt).toList).bind Integer.int32? = some n := by
      rw [Integer.signed?_toString, Option.bind_some, Integer.int32?_toInt]
    exact found (congrArg (Option.map int32) read)
  | int64 n =>
    have read : (Integer.signed? (toString n.toInt).toList).bind Integer.int64? = some n := by
      rw [Integer.signed?_toString, Option.bind_some, Integer.int64?_toInt]
    exact found (congrArg (Option.map int64) read)
  | float64 x => exact absurd rfl notDouble
  | decimal d =>
    exact ⟨_, congrArg (Option.map decimal) d.ofText?_toText, restores_unsigned_zero d⟩
  | varchar t => exact absurd rfl notText
  | blob b => exact absurd rfl notBytes
  | date d =>
    have text : (date d).spelled = d.toText := rfl
    exact found (by rw [text, kind, ofText?, d.ofText?_toText, Option.map_some])
  | time t =>
    have text : (time t).spelled = t.toText := rfl
    exact found (by rw [text, kind, ofText?, t.ofText?_toText, Option.map_some])
  | timestamp t =>
    have text : (timestamp t).spelled = t.toText := rfl
    exact found (by rw [text, kind, ofText?, t.ofText?_toText, Option.map_some])
  | uuid u =>
    have text : (uuid u).spelled = u.toText := rfl
    exact found (by rw [text, kind, ofText?, u.ofText?_toText, Option.map_some])

theorem convert?_varchar {s : Scalar} (notText : s.kind ≠ .varchar) (notBytes : s.kind ≠ .blob) :
    s.convert? .varchar = some (.varchar s.spelled) := by
  cases s with
  | varchar t => exact absurd rfl notText
  | blob b => exact absurd rfl notBytes
  | _ => rfl

theorem coerce_varchar {s : Scalar} (notText : s.kind ≠ .varchar) :
    s.coerce .varchar = s.convert .varchar := by
  cases s with
  | varchar t => exact absurd rfl notText
  | _ => rfl

theorem coerce_of_varchar {kind : Kind} (notText : kind ≠ .varchar) (text : String) :
    (varchar text).coerce kind = (varchar text).convert kind := by
  cases kind with
  | varchar => exact absurd rfl notText
  | _ => rfl

end Scalar

namespace Value

theorem coerce_ok_of_convert? {s t : Scalar} {kind : Kind} (h : s.convert? kind = some t)
    (plain : s.coerce kind = s.convert kind) : (Value.of s).coerce (some kind) = .ok (.of t) := by
  simp only [coerce, plain, Scalar.convert, h]
  rfl

theorem coerce_error_of_convert? {s : Scalar} {kind : Kind} (h : s.convert? kind = none)
    (plain : s.coerce kind = s.convert kind) :
    (Value.of s).coerce (some kind) = .error (.typeCoercion s.display kind.name) := by
  simp only [coerce, plain, Scalar.convert, h]
  rfl

/-- A cell that is neither a double nor text is turned into text, unless it is bytes that are not
valid UTF-8, and from the text an equal cell is read, for a decimal one of the same scale. -/
theorem varchar_round_trip (s : Scalar) (notDouble : s.kind ≠ .float64)
    (notText : s.kind ≠ .varchar) :
    ((∃ f, (Value.of s).coerce (some .varchar) = .error f) ↔
      ∃ bytes, s = .blob bytes ∧ ¬(ByteArray.mk bytes.toArray).IsValidUTF8) ∧
    ∀ v, (Value.of s).coerce (some .varchar) = .ok v →
      ∃ text w, v = .of (.varchar text) ∧ v.coerce (some s.kind) = .ok (.of w) ∧ s.Restores w := by
  have plain := s.coerce_varchar notText
  by_cases notBytes : s.kind = .blob
  · cases s <;> cases notBytes
    next bytes =>
    cases found : String.fromUTF8? ⟨bytes.toArray⟩ with
    | none =>
      have invalid := Bytes.fromUTF8?_eq_none_iff.mp found
      have converted : (Scalar.blob bytes).convert? .varchar = none := by
        rw [Scalar.convert?, found, Option.map_none]
      have failed := coerce_error_of_convert? converted plain
      refine ⟨⟨fun _ => ⟨bytes, rfl, invalid⟩, fun _ => ⟨_, failed⟩⟩, fun v h => ?_⟩
      rw [failed] at h
      exact nomatch h
    | some text =>
      have converted : (Scalar.blob bytes).convert? .varchar = some (.varchar text) := by
        rw [Scalar.convert?, found, Option.map_some]
      have made := coerce_ok_of_convert? converted plain
      have back : (Scalar.varchar text).convert? .blob = some (.blob bytes) :=
        congrArg (some ∘ Scalar.blob) (Bytes.fromUTF8?_eq_some_iff.mp found)
      refine ⟨⟨fun ⟨f, h⟩ => ?_, fun ⟨b, same, invalid⟩ => ?_⟩, fun v h => ?_⟩
      · rw [made] at h
        exact nomatch h
      · obtain rfl := Scalar.blob.inj same
        rw [Bytes.fromUTF8?_eq_none_iff.mpr invalid] at found
        exact nomatch found
      · obtain rfl := Except.ok.inj (made.symm.trans h)
        exact ⟨text, _, rfl, coerce_ok_of_convert? back rfl, Scalar.restores_self notDouble⟩
  · obtain ⟨w, read, restores⟩ := Scalar.ofText?_spelled notDouble notText notBytes
    have made := coerce_ok_of_convert? (Scalar.convert?_varchar notText notBytes) plain
    have converted : (Scalar.varchar s.spelled).convert? s.kind = some w := by
      rw [Scalar.convert?, read]
    have back := coerce_ok_of_convert? converted (Scalar.coerce_of_varchar notText _)
    refine ⟨⟨fun ⟨f, h⟩ => ?_, fun ⟨b, same, _⟩ => absurd (same ▸ rfl) notBytes⟩, fun v h => ?_⟩
    · rw [made] at h
      exact nomatch h
    · obtain rfl := Except.ok.inj (made.symm.trans h)
      exact ⟨_, w, rfl, back, restores⟩

def amount : Decimal := .ofCents true 1250

theorem varchar_round_trip_amount :
    (Value.of (.decimal amount)).coerce (some .varchar) = .ok (.of (.varchar "-12.50")) ∧
      ∃ w, (Value.of (.varchar "-12.50")).coerce (some .decimal) = .ok (.of w) ∧
        (Scalar.decimal amount).Restores w := by
  have spelled : (Value.of (.decimal amount)).coerce (some .varchar) =
      .ok (.of (.varchar "-12.50")) :=
    Outcome.eq_ok_of_toOption (by decide +kernel)
  obtain ⟨text, w, same, back, restores⟩ :=
    (varchar_round_trip (.decimal amount) (by decide) (by decide)).2 _ spelled
  exact ⟨spelled, w, back, restores⟩

end Value
end DataAccess
