import DataAccess.Proofs.Text.Digits
import DataAccess.Proofs.Text.Utf8
import Mathlib.Data.List.DropRight

/-!
Lists in the order of their first difference: digits in the order of the numbers they denote, plain
texts in the order of their bytes.
-/
namespace DataAccess

section

variable {α β : Type} [Ord α] [Ord β]

/-- What follows decides where as many items from the start are alike. -/
theorem compare_append {xs ys : List α} (h : xs.length = ys.length) (us vs : List α) :
    Ord.compare (xs ++ us) (ys ++ vs) = (Ord.compare xs ys).then (Ord.compare us vs) := by
  induction xs generalizing ys with
  | nil =>
    obtain rfl := List.eq_nil_of_length_eq_zero h.symm
    rfl
  | cons x xs ih =>
    cases ys with
    | nil => exact nomatch h
    | cons y ys =>
      rw [List.cons_append, List.cons_append, List.compare_cons_cons, List.compare_cons_cons,
        ih (Nat.succ.inj h), Ordering.then_assoc]

theorem compare_map {f : α → β} {xs ys : List α}
    (kept : ∀ x ∈ xs, ∀ y ∈ ys, Ord.compare (f x) (f y) = Ord.compare x y) :
    Ord.compare (xs.map f) (ys.map f) = Ord.compare xs ys := by
  induction xs generalizing ys with
  | nil => cases ys <;> rfl
  | cons x xs ih =>
    cases ys with
    | nil => rfl
    | cons y ys =>
      rw [List.map_cons, List.map_cons, List.compare_cons_cons, List.compare_cons_cons,
        kept x List.mem_cons_self y List.mem_cons_self, ih fun x hx y hy =>
          kept x (List.mem_cons_of_mem _ hx) y (List.mem_cons_of_mem _ hy)]

end

/-- Pairs that are related alike compare alike. -/
theorem compareOfLessAndEq_congr {α β : Type} [LT α] [DecidableLT α] [DecidableEq α] [LT β]
    [DecidableLT β] [DecidableEq β] {a b : α} {x y : β} (lt : a < b ↔ x < y)
    (eq : a = b ↔ x = y) : compareOfLessAndEq a b = compareOfLessAndEq x y := by
  simp only [compareOfLessAndEq, lt, eq]

/-- Numbers of two places, the second below the base. -/
theorem compare_places {k x y r q : Nat} (hr : r < k) (hq : q < k) :
    Ord.compare (k * x + r) (k * y + q) = (Ord.compare x y).then (Ord.compare r q) := by
  rcases Nat.lt_trichotomy x y with h | rfl | h
  · have below := Nat.mul_le_mul_left k (Nat.succ_le_of_lt h)
    rw [Nat.mul_succ] at below
    rw [Nat.compare_eq_lt.mpr h, Nat.compare_eq_lt.mpr (by omega)]
    rfl
  · rw [Std.ReflOrd.compare_self]
    exact compareOfLessAndEq_congr (by omega) (by omega)
  · have above := Nat.mul_le_mul_left k (Nat.succ_le_of_lt h)
    rw [Nat.mul_succ] at above
    rw [Nat.compare_eq_gt.mpr h, Nat.compare_eq_gt.mpr (by omega)]
    rfl

theorem compare_toNat (c d : Char) : Ord.compare c d = Ord.compare c.toNat d.toNat :=
  compareOfLessAndEq_congr Iff.rfl Char.toNat_inj.symm

/-- As many digits on both sides are in the order of the numbers they denote. -/
theorem AllDigits.compare_eq {cs ds : List Char} (hc : AllDigits cs) (hd : AllDigits ds)
    (h : cs.length = ds.length) : Ord.compare cs ds =
      Ord.compare (Nat.ofDigitChars 10 cs 0) (Nat.ofDigitChars 10 ds 0) := by
  induction cs generalizing ds with
  | nil =>
    obtain rfl := List.eq_nil_of_length_eq_zero h.symm
    rfl
  | cons c cs ih =>
    cases ds with
    | nil => exact nomatch h
    | cons d ds =>
      have length : cs.length = ds.length := Nat.succ.inj h
      have hcs : AllDigits cs := fun e he => hc e (List.mem_cons_of_mem c he)
      have hds : AllDigits ds := fun e he => hd e (List.mem_cons_of_mem d he)
      have digit : Ord.compare c d = Ord.compare (c.toNat - '0'.toNat) (d.toNat - '0'.toNat) := by
        have low := (Char.isDigit_iff_toNat.mp (hc c List.mem_cons_self)).1
        have low' := (Char.isDigit_iff_toNat.mp (hd d List.mem_cons_self)).1
        rw [compare_toNat]
        exact compareOfLessAndEq_congr (by omega) (by omega)
      have below : Nat.ofDigitChars 10 cs 0 < 10 ^ cs.length := hcs.denoted_lt
      have below' : Nat.ofDigitChars 10 ds 0 < 10 ^ cs.length := length ▸ hds.denoted_lt
      have value (e : Char) (es : List Char) : Nat.ofDigitChars 10 (e :: es) 0 =
          10 ^ es.length * (e.toNat - '0'.toNat) + Nat.ofDigitChars 10 es 0 := by
        rw [Nat.ofDigitChars_cons, Nat.ofDigitChars_eq_ofDigitChars_zero, Nat.mul_zero,
          Nat.zero_add]
      rw [List.compare_cons_cons, ih hcs hds length, value, value, ← length,
        compare_places below below', digit]

theorem rdropWhile_cons {α : Type} (p : α → Bool) (x : α) (xs : List α) :
    (x :: xs).rdropWhile p =
      if p x && (xs.rdropWhile p).isEmpty then [] else x :: xs.rdropWhile p := by
  rw [List.rdropWhile, List.reverse_cons, List.dropWhile_append, List.rdropWhile,
    List.isEmpty_reverse]
  cases hx : p x <;> cases h : xs.reverse.dropWhile p <;> simp [hx]

theorem compare_zero {c : Char} (digit : c.isDigit) (other : c ≠ '0') :
    Ord.compare '0' c = .lt := by
  have low := (Char.isDigit_iff_toNat.mp digit).1
  have apart : '0'.toNat ≠ c.toNat := fun same => other (Char.toNat_inj.mp same.symm)
  rw [compare_toNat, Nat.compare_eq_lt]
  omega

/-- A digit other than zero further on makes the difference to zeros alone. -/
theorem compare_zeros {c : Char} {cs : List Char} (digit : c.isDigit)
    (other : ¬(c = '0' ∧ cs = [])) : (Ord.compare '0' c).then (Ord.compare [] cs) = .lt := by
  by_cases hz : c = '0'
  · subst hz
    cases cs with
    | nil => exact absurd ⟨rfl, rfl⟩ other
    | cons d ds => rfl
  · rw [compare_zero digit hz]
    rfl

/-- Zeros at the end decide nothing between lists of one length. -/
theorem compare_rdropWhile_zeros {cs ds : List Char} (hc : AllDigits cs) (hd : AllDigits ds)
    (h : cs.length = ds.length) :
    Ord.compare (cs.rdropWhile (· = '0')) (ds.rdropWhile (· = '0')) = Ord.compare cs ds := by
  induction cs generalizing ds with
  | nil =>
    obtain rfl := List.eq_nil_of_length_eq_zero h.symm
    rfl
  | cons c cs ih =>
    cases ds with
    | nil => exact nomatch h
    | cons d ds =>
      have tail := ih (fun e he => hc e (List.mem_cons_of_mem c he))
        (fun e he => hd e (List.mem_cons_of_mem d he)) (Nat.succ.inj h)
      rw [rdropWhile_cons, rdropWhile_cons, List.compare_cons_cons, ← tail]
      simp only [Bool.and_eq_true, decide_eq_true_eq, List.isEmpty_iff]
      -- a list that is zeros alone is gone; the other one then comes behind it, if it is not
      split
      case isTrue left =>
        rw [left.1, left.2]
        split
        case isTrue right => rw [right.1, right.2]; rfl
        case isFalse right => exact (compare_zeros (hd d List.mem_cons_self) right).symm
      case isFalse left =>
        split
        case isTrue right =>
          have behind := congrArg Ordering.swap (compare_zeros (hc c List.mem_cons_self) left)
          rw [Ordering.swap_then, ← Std.OrientedCmp.eq_swap, ← Std.OrientedCmp.eq_swap] at behind
          rw [right.1, right.2, behind]
          rfl
        case isFalse right => rw [List.compare_cons_cons]

theorem compare_eq_lt_iff_chars {cs ds : List Char} : Ord.compare cs ds = .lt ↔ cs < ds := by
  induction cs generalizing ds with
  | nil => cases ds <;> simp [List.compare_nil_cons]
  | cons c cs ih =>
    cases ds with
    | nil => simp [List.compare_cons_nil]
    | cons d ds =>
      have head : Ord.compare c d = .lt ↔ c < d := by
        rw [compare_toNat, Nat.compare_eq_lt]
        exact Iff.rfl
      rw [List.compare_cons_cons, Ordering.then_eq_lt, List.cons_lt_cons_iff, ih, head,
        Std.compare_eq_iff_eq]

/-- Texts are in the order of their characters. -/
theorem compare_ofList (cs ds : List Char) :
    Ord.compare (String.ofList cs) (String.ofList ds) = Ord.compare cs ds := by
  have below : String.ofList cs < String.ofList ds ↔ Ord.compare cs ds = .lt := by
    rw [compare_eq_lt_iff_chars]
    change (String.ofList cs).toList < (String.ofList ds).toList ↔ _
    rw [String.toList_ofList, String.toList_ofList]
  have same : String.ofList cs = String.ofList ds ↔ Ord.compare cs ds = .eq := by
    rw [Std.compare_eq_iff_eq, String.ofList_inj]
  change compareOfLessAndEq _ _ = _
  rw [compareOfLessAndEq]
  cases h : Ord.compare cs ds <;> simp [below, same, h]

/-- The order of an engine that compares texts byte by byte. -/
def bytewise (s t : String) : Ordering := Ord.compare s.toUTF8.toList t.toUTF8.toList

/-- Characters of one byte each. -/
def Plain (cs : List Char) : Prop := ∀ c ∈ cs, c.toNat < 128

namespace Plain

theorem nil : Plain [] := fun _ h => nomatch h

theorem cons {c : Char} {cs : List Char} (hc : c.toNat < 128) (h : Plain cs) : Plain (c :: cs) :=
  List.forall_mem_cons.mpr ⟨hc, h⟩

theorem append {cs ds : List Char} (hc : Plain cs) (hd : Plain ds) : Plain (cs ++ ds) :=
  List.forall_mem_append.mpr ⟨hc, hd⟩

theorem ofDigits {cs : List Char} (h : AllDigits cs) : Plain cs := fun c hc =>
  Nat.lt_of_le_of_lt (Char.isDigit_iff_toNat.mp (h c hc)).2 (by decide)

theorem bytes {cs : List Char} (h : Plain cs) :
    (String.ofList cs).toUTF8.toList = cs.map fun c => UInt8.ofNat c.toNat := by
  rw [Bytes.toList_toUTF8]
  induction cs with
  | nil => rfl
  | cons c cs ih =>
    obtain ⟨hc, hcs⟩ := List.forall_mem_cons.mp h
    rw [List.flatMap_cons, Bytes.encodeChar_ascii hc, ih hcs, List.map_cons, List.singleton_append]

/-- Plain texts have the order of their characters byte by byte. -/
theorem bytewise_eq {cs ds : List Char} (hc : Plain cs) (hd : Plain ds) :
    bytewise (String.ofList cs) (String.ofList ds) = Ord.compare cs ds := by
  rw [bytewise, hc.bytes, hd.bytes]
  refine compare_map fun c h d h' => ?_
  have byte {e : Char} (he : e.toNat < 128) : (UInt8.ofNat e.toNat).toNat = e.toNat :=
    UInt8.toNat_ofNat_of_lt' (Nat.lt_trans he (by decide))
  have kept : Ord.compare (UInt8.ofNat c.toNat) (UInt8.ofNat d.toNat) =
      Ord.compare (UInt8.ofNat c.toNat).toNat (UInt8.ofNat d.toNat).toNat :=
    compareOfLessAndEq_congr UInt8.lt_iff_toNat_lt UInt8.toNat_inj.symm
  rw [kept, byte (hc c h), byte (hd d h'), compare_toNat]

end Plain
end DataAccess
