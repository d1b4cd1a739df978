import DataAccess.Uuid
import Mathlib.Tactic.Ring

/-! Identifiers are read back from their own text. -/
namespace DataAccess

namespace Hex

theorem digit?_digit (n : Nat) : digit? (digit n) = some (n % 16) := by
  have each : ∀ k < 16, digit? (Nat.digitChar k) = some k := by decide
  exact each (n % 16) (Nat.mod_lt n (by decide))

theorem digit_ne_hyphen (n : Nat) : digit n ≠ '-' := by
  have each : ∀ k < 16, Nat.digitChar k ≠ '-' := by decide
  exact each (n % 16) (Nat.mod_lt n (by decide))

theorem number?_append (before : Nat) (cs ds : List Char) :
    number? before (cs ++ ds) = (number? before cs).bind (number? · ds) := by
  induction cs generalizing before with
  | nil => rfl
  | cons c cs ih =>
    rw [List.cons_append, number?, number?, Option.bind_assoc]
    exact congrArg (digit? c).bind (funext fun d => ih (before * 16 + d))

end Hex

namespace Uuid

theorem length_digits (n width : Nat) : (digits n width).length = width := by
  induction width generalizing n with
  | zero => rfl
  | succ width ih => rw [digits, List.length_append, ih, List.length_singleton]

theorem hyphen_notMem_digits (n width : Nat) : '-' ∉ digits n width := by
  induction width generalizing n with
  | zero => exact List.not_mem_nil
  | succ width ih =>
    rw [digits, List.mem_append, List.mem_singleton]
    rintro (h | h)
    · exact ih _ h
    · exact Hex.digit_ne_hyphen n h.symm

/-- The digits denote what of the number fits their width. -/
theorem number?_digits (n width : Nat) :
    Hex.number? 0 (digits n width) = some (n % 16 ^ width) := by
  induction width generalizing n with
  | zero => rw [Nat.pow_zero, Nat.mod_one]; rfl
  | succ width ih =>
    rw [digits, Hex.number?_append, ih, Option.bind_some, Hex.number?, Hex.digit?_digit,
      Option.bind_some, Hex.number?, Nat.pow_succ', Nat.mod_mul]
    exact congrArg some (by omega)

theorem filter_hyphens {cs : List Char} (h : '-' ∉ cs) : cs.filter (· ≠ '-') = cs := by
  refine List.filter_eq_self.mpr fun c hc => ?_
  simpa using fun same : c = '-' => h (same ▸ hc)

theorem filter_hyphenated (gs : List Nat) {cs : List Char} (h : '-' ∉ cs) :
    (hyphenated gs cs).filter (· ≠ '-') = cs.take gs.sum := by
  induction gs generalizing cs with
  | nil => rfl
  | cons n gs ih =>
    have start : (cs.take n).filter (· ≠ '-') = cs.take n :=
      filter_hyphens fun hm => h (List.mem_of_mem_take hm)
    cases gs with
    | nil => exact start
    | cons m gs =>
      have free : '-' ∉ cs.drop n := fun hm => h (List.mem_of_mem_drop hm)
      rw [hyphenated.eq_3 _ _ _ (List.cons_ne_nil m gs), List.filter_append, start,
        List.filter_cons_of_neg (by decide), ih free, List.sum_cons (a := n), List.take_add]

/-- A group before the hyphen and the others behind it. -/
theorem length_hyphenated (n : Nat) (gs : List Nat) (cs : List Char)
    (long : (n :: gs).sum ≤ cs.length) :
    (hyphenated (n :: gs) cs).length = (n :: gs).sum + gs.length := by
  induction gs generalizing n cs with
  | nil =>
    simp only [List.sum_cons, List.sum_nil, Nat.add_zero] at long
    rw [hyphenated, List.length_take_of_le long]
    rfl
  | cons m gs ih =>
    rw [List.sum_cons] at long
    have tail := ih m (cs.drop n) (by rw [List.length_drop]; omega)
    rw [hyphenated.eq_3 _ _ _ (List.cons_ne_nil m gs), List.length_append, List.length_cons, tail,
      List.length_take_of_le (by omega), List.sum_cons (a := n), List.length_cons]
    omega

theorem ofText?_toText (u : Uuid) : ofText? u.toText = some u := by
  let ds := digits u.number.toNat 32
  have length : ds.length = 32 := length_digits _ _
  have read : simple? ds = some u := by
    have small : u.number.toNat % 16 ^ 32 = u.number.toNat :=
      Nat.mod_eq_of_lt (Nat.lt_of_lt_of_le u.number.isLt (by decide))
    rw [simple?, if_pos length, number?_digits, small, Option.map_some, BitVec.ofNat_toNat,
      BitVec.setWidth_eq]
  have bare : (hyphenated groups ds).filter (· ≠ '-') = ds := by
    rw [filter_hyphenated groups (hyphen_notMem_digits _ _)]
    exact List.take_of_length_le (Nat.le_of_eq length)
  have long : (hyphenated groups ds).length = 36 :=
    length_hyphenated 8 [4, 4, 4, 12] ds (Nat.le_of_eq length.symm)
  have not_simple : simple? (hyphenated groups ds) = none := if_neg (by rw [long]; decide)
  have grouped : grouped? (hyphenated groups ds) = some u := by
    simp only [grouped?, bare, if_true, read]
  simp only [ofText?, toText, String.toList_ofList]
  rw [not_simple, grouped]
  rfl

end Uuid
end DataAccess
