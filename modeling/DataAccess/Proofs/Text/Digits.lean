import DataAccess.Calendar.Field
import Mathlib.Tactic.Ring

/-!
Lists of decimal digits: the number that one denotes, and how fields of a fixed width are filled and
read.
-/
namespace DataAccess

/-- Digits and nothing else. -/
def AllDigits (cs : List Char) : Prop := ∀ c ∈ cs, c.isDigit

namespace AllDigits

theorem append {cs ds : List Char} (hc : AllDigits cs) (hd : AllDigits ds) :
    AllDigits (cs ++ ds) := by
  intro c h
  rcases List.mem_append.mp h with h | h
  · exact hc c h
  · exact hd c h

theorem zeros (n : Nat) : AllDigits (List.replicate n '0') := by
  intro c h
  rw [List.eq_of_mem_replicate h]
  decide

theorem toDigits (n : Nat) : AllDigits (Nat.toDigits 10 n) := fun _ h =>
  Nat.isDigit_of_mem_toDigits (by decide) (by decide) h

theorem toNat_sub_lt {c : Char} (h : c.isDigit) : c.toNat - '0'.toNat < 10 := by
  obtain ⟨low, high⟩ := Char.isDigit_iff_toNat.mp h
  have nine : '9'.toNat = '0'.toNat + 9 := by decide
  omega

/-- What the digits denote has no more places than there are digits. -/
theorem denoted_lt {cs : List Char} (h : AllDigits cs) :
    Nat.ofDigitChars 10 cs 0 < Nat.pow 10 cs.length := by
  induction cs with
  | nil => decide
  | cons c cs ih =>
    have hd := Nat.le_of_lt_succ (toNat_sub_lt (h c List.mem_cons_self))
    have hs : Nat.ofDigitChars 10 cs 0 < 10 ^ cs.length :=
      ih fun d hd => h d (List.mem_cons_of_mem c hd)
    rw [Nat.ofDigitChars_cons, Nat.ofDigitChars_eq_ofDigitChars_zero, Nat.mul_zero, Nat.zero_add]
    calc 10 ^ cs.length * (c.toNat - '0'.toNat) + Nat.ofDigitChars 10 cs 0
        < 10 ^ cs.length * 9 + 10 ^ cs.length :=
          Nat.add_lt_add_of_le_of_lt (Nat.mul_le_mul_left _ hd) hs
      _ = 10 ^ (cs.length + 1) := by ring

end AllDigits

namespace Integer

theorem digit?_of_isDigit {c : Char} (h : c.isDigit) : digit? c = some (c.toNat - '0'.toNat) :=
  if_pos h

theorem ofDigits_eq {cs : List Char} (h : AllDigits cs) (before : Nat) :
    ofDigits before cs = some (Nat.ofDigitChars 10 cs before) := by
  induction cs generalizing before with
  | nil => rfl
  | cons c cs ih =>
    rw [ofDigits, digit?_of_isDigit (h c List.mem_cons_self), Nat.ofDigitChars_cons,
      Nat.mul_comm 10]
    exact ih (fun d hd => h d (List.mem_cons_of_mem c hd)) _

theorem natural?_eq {cs : List Char} (h : AllDigits cs) (some_digit : cs ≠ []) :
    natural? cs = some (Nat.ofDigitChars 10 cs 0) := by
  cases cs with
  | nil => exact absurd rfl some_digit
  | cons c cs => exact ofDigits_eq h 0

theorem natural?_toDigits (n : Nat) : natural? (Nat.toDigits 10 n) = some n := by
  rw [natural?_eq (AllDigits.toDigits n) Nat.toDigits_ne_nil, Nat.ofDigitChars_ten_toDigits]

/-- An integer is read back from its digits. -/
theorem signed?_toString (n : Int) : signed? (toString n).toList = some n := by
  cases n with
  | ofNat n =>
    have ht : (toString (Int.ofNat n)).toList = Nat.toDigits 10 n := by
      rw [Int.toString_eq_repr]
      exact (congrArg String.toList Nat.toString_eq_ofList_toDigits).trans String.toList_ofList
    have head {cs : List Char} (hd : AllDigits cs) :
        signed? cs = (natural? cs).map Int.ofNat := by
      unfold signed? unsigned?
      split
      · exact absurd (hd '-' List.mem_cons_self) (by decide)
      · split
        · exact absurd (hd '+' List.mem_cons_self) (by decide)
        · rfl
    rw [ht, head (AllDigits.toDigits n), natural?_toDigits]
    rfl
  | negSucc n =>
    have ht : (toString (Int.negSucc n)).toList = '-' :: Nat.toDigits 10 (n + 1) := by
      rw [Int.toString_eq_repr]
      exact (congrArg (fun s => ("-" ++ s).toList)
        (Nat.toString_eq_ofList_toDigits (n := n + 1))).trans (by simp)
    rw [ht, signed?, natural?_toDigits]
    rfl

end Integer

namespace Calendar

theorem digits_padded (width n : Nat) : AllDigits (padded width n) :=
  (AllDigits.zeros _).append (AllDigits.toDigits n)

theorem padded_ne_nil (width n : Nat) : padded width n ≠ [] :=
  List.append_ne_nil_of_right_ne_nil _ Nat.toDigits_ne_nil

theorem denoted_padded (width n : Nat) : Nat.ofDigitChars 10 (padded width n) 0 = n := by
  rw [padded, Nat.ofDigitChars_append, Nat.ofDigitChars_replicate_zero, Nat.mul_zero,
    Nat.ofDigitChars_ten_toDigits]

theorem length_padded {width n : Nat} (wide : 0 < width) (h : n < Nat.pow 10 width) :
    (padded width n).length = width := by
  have fits : (Nat.toDigits 10 n).length ≤ width :=
    (Nat.length_toDigits_le_iff (by decide) wide).mpr h
  rw [padded, List.length_append, List.length_replicate]
  exact Nat.sub_add_cancel fits

/-- A field is read back, whatever follows it. -/
theorem field?_padded {width n : Nat} (wide : 0 < width) (h : n < Nat.pow 10 width)
    (rest : List Char) : field? width (padded width n ++ rest) = some (n, rest) := by
  have hl := length_padded wide h
  rw [field?, List.take_left' hl, List.drop_left' hl, if_pos hl,
    Integer.natural?_eq (digits_padded width n) (padded_ne_nil width n), denoted_padded]
  rfl

@[simp] theorem mark?_cons (mark : Char) (rest : List Char) :
    mark? mark (mark :: rest) = some rest := if_pos rfl

end Calendar
end DataAccess
