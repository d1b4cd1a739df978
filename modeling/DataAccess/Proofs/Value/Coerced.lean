import DataAccess.Proofs.Outcome
import DataAccess.Value.Coercion

/-!
What a coercion gives. The arms overlap, and each of them builds a scalar of the kind asked for; a
NULL stays one, and what cannot be converted is told together with the kind it was to have.
-/
namespace DataAccess

open Outcome

namespace Scalar

theorem kind_ofText? {text : String} {kind : Kind} {t : Scalar} (h : ofText? text kind = some t) :
    t.kind = kind := by
  cases kind <;> simp only [ofText?, Option.map_eq_some_iff, reduceCtorEq] at h
  case boolean =>
    split at h
    · exact Option.some.inj h ▸ rfl
    · split at h
      · exact Option.some.inj h ▸ rfl
      · simp at h
  case blob => exact Option.some.inj h ▸ rfl
  all_goals
    obtain ⟨x, -, rfl⟩ := h
    rfl

theorem kind_ofInteger? {n : Int} {kind : Kind} {t : Scalar} (h : ofInteger? n kind = some t) :
    t.kind = kind := by
  cases kind <;> simp only [ofInteger?, Option.map_eq_some_iff, reduceCtorEq] at h
  case boolean =>
    split at h
    · exact Option.some.inj h ▸ rfl
    · split at h
      · exact Option.some.inj h ▸ rfl
      · simp at h
  case float64 => exact Option.some.inj h ▸ rfl
  all_goals
    obtain ⟨x, -, rfl⟩ := h
    rfl

theorem kind_convert? {s t : Scalar} {kind : Kind} (h : s.convert? kind = some t) :
    t.kind = kind := by
  unfold convert? at h
  split at h
  case h_1 => exact kind_ofText? h
  case h_6 => exact kind_ofInteger? h
  case h_7 => exact kind_ofInteger? h
  all_goals
    first
    | exact Option.some.inj h ▸ rfl
    | (obtain ⟨x, -, rfl⟩ := Option.map_eq_some_iff.mp h; rfl)
    | simp at h

theorem kind_convert {s t : Scalar} {kind : Kind} (h : s.convert kind = .ok t) :
    t.kind = kind := by
  unfold convert at h
  split at h
  · rename_i u hu
    obtain rfl : u = t := by simpa using h
    exact kind_convert? hu
  · simp at h

theorem kind_coerce {s t : Scalar} {kind : Kind} (h : s.coerce kind = .ok t) : t.kind = kind := by
  unfold coerce at h
  split at h
  · rename_i hk
    obtain rfl : s = t := by simpa using h
    exact hk
  · split at h
    · split at h <;> exact kind_convert h
    · exact kind_convert h

/-- A scalar that has the kind already stays as it is. -/
theorem coerce_kind (s : Scalar) : s.coerce s.kind = .ok s := if_pos rfl

theorem convert_eq_error {s : Scalar} {kind : Kind} {f : Failure} (h : s.convert kind = .error f) :
    f = .typeCoercion s.display kind.name := by
  unfold convert at h
  split at h
  · cases h
  · exact (Except.error.inj h).symm

/-- The scalar shown is the one given, or the wide integer that a decimal was on its way. -/
def Shown (s shown : Scalar) (kind : Kind) : Prop :=
  shown = s ∨ kind = .int32 ∧ ∃ (d : Decimal) (n : Int64), s = .decimal d ∧ shown = .int64 n ∧
    d.integer?.bind Integer.int64? = some n

theorem coerce_eq_error {s : Scalar} {kind : Kind} {f : Failure} (h : s.coerce kind = .error f) :
    ∃ shown, s.Shown shown kind ∧ f = .typeCoercion shown.display kind.name := by
  unfold coerce at h
  split at h
  · cases h
  · split at h
    · split at h
      · rename_i d _ _ n wide
        exact ⟨.int64 n, Or.inr ⟨rfl, d, n, rfl, rfl, wide⟩, convert_eq_error h⟩
      · exact ⟨_, Or.inl rfl, convert_eq_error h⟩
    · exact ⟨_, Or.inl rfl, convert_eq_error h⟩

end Scalar

namespace Value

theorem coerce_untyped (kind : Option Kind) :
    (Value.null none).coerce kind = .ok (.null kind) := by
  cases kind <;> rfl

theorem coerce_of_kind {v : Value} {kind : Kind} (typed : v.kind = some kind) :
    v.coerce (some kind) = .ok v := by
  cases v with
  | null before =>
    obtain rfl : before = some kind := typed
    rfl
  | of s =>
    obtain rfl : s.kind = kind := Option.some.inj typed
    exact congrArg (Except.map Value.of) s.coerce_kind

theorem kind_of_coerce {v w : Value} {kind : Kind} (coerced : v.coerce (some kind) = .ok w) :
    w.kind = some kind := by
  cases v with
  | null before =>
    obtain rfl := Except.ok.inj coerced
    rfl
  | of s =>
    obtain ⟨t, made, rfl⟩ := map_eq_ok.mp coerced
    exact congrArg some (Scalar.kind_coerce made)

/-- A cell may become another, or none, but never NULL, and NULL never becomes anything else. -/
theorem isNull_of_coerce {v w : Value} {kind : Option Kind} (coerced : v.coerce kind = .ok w) :
    w.isNull = v.isNull := by
  cases kind with
  | none =>
    obtain rfl := Except.ok.inj coerced
    rfl
  | some kind =>
    cases v with
    | null before =>
      obtain rfl := Except.ok.inj coerced
      rfl
    | of s =>
      obtain ⟨t, -, rfl⟩ := map_eq_ok.mp coerced
      rfl

/-- What a coercion gives has the kind asked for, is NULL just when the cell was, and stays as it
is when coerced again. NULL is always coerced, and a failure is one of coercion, which shows a cell
that is not NULL and names the kind. -/
theorem coerce_delivers (v : Value) (kind : Kind) :
    (∀ w, v.coerce (some kind) = .ok w →
      w.kind = some kind ∧ w.isNull = v.isNull ∧ w.coerce (some kind) = .ok w) ∧
    (v.isNull = true → v.coerce (some kind) = .ok (.null kind)) ∧
    ∀ f, v.coerce (some kind) = .error f → ∃ s shown, v = .of s ∧ s.Shown shown kind ∧
      f = .typeCoercion shown.display kind.name := by
  refine ⟨fun w coerced => ?_, fun null => ?_, fun f failed => ?_⟩
  · have typed := kind_of_coerce coerced
    exact ⟨typed, isNull_of_coerce coerced, coerce_of_kind typed⟩
  · cases v with
    | null before => rfl
    | of s => cases null
  · cases v with
    | null before => cases failed
    | of s =>
      obtain ⟨shown, told, rfl⟩ := Scalar.coerce_eq_error (map_eq_error.mp failed)
      exact ⟨s, shown, rfl, told, rfl⟩

/-- A digit read as an integer of 32 bits, a NULL of doubles, and an integer that is too wide. -/
theorem coerce_delivers_int32 :
    Value.coerce (.of (.varchar "7")) (some .int32) = .ok (.of (.int32 7)) ∧
    Value.coerce (.of (.int32 7)) (some .int32) = .ok (.of (.int32 7)) ∧
    Value.coerce (.null (some .float64)) (some .int32) = .ok (.null (some .int32)) ∧
    ∃ s shown, Value.of (.int64 3000000000) = .of s ∧ s.Shown shown .int32 ∧
      Value.coerce (.of (.int64 3000000000)) (some .int32) =
        .error (.typeCoercion shown.display "INTEGER") := by
  have read : Value.coerce (.of (.varchar "7")) (some .int32) = .ok (.of (.int32 7)) :=
    eq_ok_of_toOption (by decide +kernel)
  obtain ⟨f, wide⟩ := exists_error_of_isOk
    (x := Value.coerce (.of (.int64 3000000000)) (some .int32)) (by decide +kernel)
  obtain ⟨s, shown, given, told, rfl⟩ := (coerce_delivers _ _).2.2 f wide
  exact ⟨read, ((coerce_delivers _ _).1 _ read).2.2, (coerce_delivers _ _).2.1 rfl,
    s, shown, given, told, wide⟩

end Value
end DataAccess
