import DataAccess.Numeric.Decimal.Text
import DataAccess.Proofs.Text.Digits

/-! Decimals are read back from their own text, every place of the scale included. -/
namespace DataAccess.Decimal

namespace Progress

/-- How far the reader is behind some digits. -/
def after (p : Progress) (cs : List Char) : Progress :=
  cs.foldl (fun p c => p.push (c.toNat - '0'.toNat)) p

theorem after_mantissa (p : Progress) (cs : List Char) :
    (p.after cs).mantissa = Nat.ofDigitChars 10 cs p.mantissa := by
  induction cs generalizing p with
  | nil => rfl
  | cons c cs ih =>
    rw [Nat.ofDigitChars_cons, Nat.mul_comm 10]
    exact ih (p.push _)

theorem after_point (p : Progress) (cs : List Char) : (p.after cs).point = p.point := by
  induction cs generalizing p with
  | nil => rfl
  | cons c cs ih => exact ih (p.push _)

theorem after_scale {p : Progress} (cs : List Char) (own : p.point = false → p.scale = 0) :
    (p.after cs).scale = if p.point then p.scale + cs.length else 0 := by
  induction cs generalizing p with
  | nil =>
    cases hp : p.point with
    | false => exact own hp
    | true => rfl
  | cons c cs ih =>
    have unpointed : (p.push (c.toNat - '0'.toNat)).point = false →
        (p.push (c.toNat - '0'.toNat)).scale = 0 := fun h => by
      simp [push, show p.point = false from h]
    refine (ih unpointed).trans ?_
    cases hp : p.point with
    | false => simp [push, hp]
    | true =>
      simp only [push, hp, if_true, List.length_cons]
      omega

theorem after_digits (p : Progress) {cs : List Char} (some_digit : cs ≠ []) :
    (p.after cs).digits = true := by
  induction cs generalizing p with
  | nil => exact absurd rfl some_digit
  | cons c cs ih =>
    by_cases hc : cs = []
    · subst hc
      rfl
    · exact ih (p.push _) hc

end Progress

/-- Reading on only makes the number larger. -/
theorem le_ofDigitChars (n : Nat) (cs : List Char) : n ≤ Nat.ofDigitChars 10 cs n := by
  rw [Nat.ofDigitChars_eq_ofDigitChars_zero]
  exact Nat.le_trans (Nat.le_mul_of_pos_left n (Nat.pow_pos (by decide))) (Nat.le_add_right _ _)

/-- Digits for which there is room are read one by one. -/
theorem plain?_digits (negative : Bool) {cs : List Char} (h : AllDigits cs) {p : Progress}
    (own : p.point = false → p.scale = 0) (room : p.point = true → p.scale + cs.length ≤ 28)
    (small : Nat.ofDigitChars 10 cs p.mantissa < Nat.pow 2 96) (rest : List Char) :
    plain? negative p (cs ++ rest) = plain? negative (p.after cs) rest := by
  induction cs generalizing p with
  | nil => rfl
  | cons c cs ih =>
    have hd := Integer.digit?_of_isDigit (h c List.mem_cons_self)
    have free : ¬(p.point = true ∧ 28 ≤ p.scale) := by
      rintro ⟨hp, full⟩
      have := room hp
      rw [List.length_cons] at this
      omega
    rw [Nat.ofDigitChars_cons, Nat.mul_comm 10] at small
    have fits : (p.push (c.toNat - '0'.toNat)).mantissa < Nat.pow 2 96 :=
      Nat.lt_of_le_of_lt (le_ofDigitChars _ cs) small
    rw [List.cons_append, plain?, if_neg free, hd]
    simp only [if_pos fits]
    refine ih (fun d hd => h d (List.mem_cons_of_mem c hd)) ?_ ?_ small
    · intro hp
      simp [Progress.push, show p.point = false from hp]
    · intro hp
      have hp : p.point = true := hp
      have := room hp
      rw [List.length_cons] at this
      simp only [Progress.push, hp, if_true]
      omega

theorem plain?_whole (negative : Bool) {whole : List Char} (digits : AllDigits whole)
    (written : whole ≠ []) (small : Nat.ofDigitChars 10 whole 0 < Nat.pow 2 96) :
    plain? negative .start whole =
      ofParts? (negative && Nat.ofDigitChars 10 whole 0 != 0) (Nat.ofDigitChars 10 whole 0) 0 := by
  have read := plain?_digits negative digits (p := .start) (fun _ => rfl)
    (fun h => nomatch h) small []
  rw [List.append_nil] at read
  rw [read, plain?, if_pos (Progress.after_digits _ written), Progress.finish,
    Progress.after_scale _ fun _ => rfl, Progress.after_mantissa]
  rfl

/-- The scale is the number of digits behind the point. -/
theorem plain?_pointed (negative : Bool) {whole places : List Char}
    (digits : AllDigits (whole ++ places)) (written : whole ≠ []) (room : places.length ≤ 28)
    (small : Nat.ofDigitChars 10 (whole ++ places) 0 < Nat.pow 2 96) :
    plain? negative .start (whole ++ '.' :: places) =
      ofParts? (negative && Nat.ofDigitChars 10 (whole ++ places) 0 != 0)
        (Nat.ofDigitChars 10 (whole ++ places) 0) places.length := by
  -- the reader stands before the point, then behind it, then at the end
  let before := Progress.start.after whole
  let behind : Progress := { before with point := true }
  have reached : behind.mantissa = Nat.ofDigitChars 10 whole 0 := Progress.after_mantissa _ _
  have unscaled : behind.scale = 0 := Progress.after_scale whole fun _ => rfl
  have own : behind.point = false → behind.scale = 0 := fun _ => unscaled
  have denoted : Nat.ofDigitChars 10 places behind.mantissa =
      Nat.ofDigitChars 10 (whole ++ places) 0 := by
    rw [reached, Nat.ofDigitChars_append]
  have small_whole : Nat.ofDigitChars 10 whole 0 < Nat.pow 2 96 := by
    refine Nat.lt_of_le_of_lt ?_ small
    rw [Nat.ofDigitChars_append]
    exact le_ofDigitChars _ places
  have read_whole : plain? negative .start (whole ++ '.' :: places) =
      plain? negative before ('.' :: places) :=
    plain?_digits negative (p := .start) (fun c hc => digits c (List.mem_append_left _ hc))
      (fun _ => rfl) (fun h => nomatch h) small_whole _
  have read_point : plain? negative before ('.' :: places) = plain? negative behind places := by
    have unpointed : before.point = false := Progress.after_point _ _
    rw [plain?, unpointed]
    rfl
  have read_places : plain? negative behind places = plain? negative (behind.after places) [] := by
    have read := plain?_digits negative (p := behind)
      (fun c hc => digits c (List.mem_append_right _ hc)) own
      (fun _ => by rw [unscaled, Nat.zero_add]; exact room) (denoted ▸ small) []
    rwa [List.append_nil] at read
  have some_digit : (behind.after places).digits = true := by
    by_cases empty : places = []
    · rw [empty]
      exact Progress.after_digits .start written
    · exact Progress.after_digits _ empty
  rw [read_whole, read_point, read_places, plain?, if_pos some_digit, Progress.finish,
    Progress.after_scale _ own, Progress.after_mantissa, denoted, unscaled, if_pos rfl,
    Nat.zero_add]

/-- The digits that are written, at least one of them before the point. -/
def spelled (d : Decimal) : List Char :=
  List.replicate (d.scale + 1 - (Nat.toDigits 10 d.mantissa).length) '0' ++
    Nat.toDigits 10 d.mantissa

def whole (d : Decimal) : List Char := d.spelled.take (d.spelled.length - d.scale)
def places (d : Decimal) : List Char := d.spelled.drop (d.spelled.length - d.scale)

theorem whole_append_places (d : Decimal) : d.whole ++ d.places = d.spelled :=
  List.take_append_drop _ _

theorem digits_spelled (d : Decimal) : AllDigits d.spelled :=
  (AllDigits.zeros _).append (AllDigits.toDigits _)

theorem denoted_spelled (d : Decimal) : Nat.ofDigitChars 10 d.spelled 0 = d.mantissa := by
  rw [spelled, Nat.ofDigitChars_append, Nat.ofDigitChars_replicate_zero, Nat.mul_zero,
    Nat.ofDigitChars_ten_toDigits]

theorem scale_lt_length_spelled (d : Decimal) : d.scale < d.spelled.length := by
  rw [spelled, List.length_append, List.length_replicate]
  omega

theorem length_places (d : Decimal) : d.places.length = d.scale := by
  have := d.scale_lt_length_spelled
  rw [places, List.length_drop]
  omega

theorem whole_ne_nil (d : Decimal) : d.whole ≠ [] := by
  have := d.scale_lt_length_spelled
  refine List.ne_nil_of_length_pos ?_
  rw [whole, List.length_take]
  omega

/-- The text without its sign. -/
def unsigned (d : Decimal) : List Char :=
  d.whole ++ if d.scale = 0 then [] else '.' :: d.places

theorem toList_toText (d : Decimal) :
    d.toText.toList = (if d.negative then ['-'] else []) ++ d.unsigned := by
  have body : (if d.scale = 0 then d.spelled else d.whole ++ '.' :: d.places) = d.unsigned := by
    by_cases hs : d.scale = 0
    · rw [unsigned, if_pos hs, if_pos hs, List.append_nil, whole, hs, Nat.sub_zero,
        List.take_length]
    · rw [unsigned, if_neg hs, if_neg hs]
  rw [← body, toText, String.toList_append, String.toList_ofList]
  cases d.negative <;> rfl

theorem plain?_unsigned (d : Decimal) (negative : Bool) :
    plain? negative .start d.unsigned =
      ofParts? (negative && d.mantissa != 0) d.mantissa d.scale := by
  have spelled := d.whole_append_places
  have digits : AllDigits (d.whole ++ d.places) := spelled ▸ d.digits_spelled
  have denoted : Nat.ofDigitChars 10 (d.whole ++ d.places) 0 = d.mantissa :=
    spelled ▸ d.denoted_spelled
  by_cases hs : d.scale = 0
  · have none : d.places = [] := List.eq_nil_of_length_eq_zero (d.length_places.trans hs)
    rw [none, List.append_nil] at digits denoted
    rw [unsigned, if_pos hs, List.append_nil, plain?_whole negative digits d.whole_ne_nil
      (denoted ▸ d.mantissa_lt), denoted, hs]
  · rw [unsigned, if_neg hs, plain?_pointed negative digits d.whole_ne_nil
      (d.length_places ▸ d.scale_le) (denoted ▸ d.mantissa_lt), denoted, length_places]

theorem signedPlain?_digit {c : Char} (digit : c.isDigit) (cs : List Char) :
    signedPlain? (c :: cs) = plain? false .start (c :: cs) := by
  unfold signedPlain?
  split
  · next heq =>
    obtain ⟨rfl, -⟩ := List.cons.inj heq
    exact absurd digit (by decide)
  · next heq =>
    obtain ⟨rfl, -⟩ := List.cons.inj heq
    exact absurd digit (by decide)
  · rfl

theorem unsigned_eq_cons (d : Decimal) : ∃ c cs, c.isDigit ∧ d.unsigned = c :: cs := by
  cases hw : d.whole with
  | nil => exact absurd hw d.whole_ne_nil
  | cons c cs =>
    have member : c ∈ d.spelled := by
      rw [← whole_append_places, hw]
      exact List.mem_cons_self
    refine ⟨c, cs ++ if d.scale = 0 then [] else '.' :: d.places, d.digits_spelled c member, ?_⟩
    rw [unsigned, hw, List.cons_append]

/-- The same number of the same scale is read back; only zero loses its sign. -/
theorem ofText?_toText (d : Decimal) :
    ofText? d.toText =
      some ⟨d.negative && d.mantissa != 0, d.mantissa, d.scale, d.mantissa_lt, d.scale_le⟩ := by
  have plain : signedPlain? d.toText.toList =
      ofParts? (d.negative && d.mantissa != 0) d.mantissa d.scale := by
    rw [toList_toText]
    cases hn : d.negative with
    | true => exact d.plain?_unsigned true
    | false =>
      obtain ⟨c, cs, digit, hc⟩ := d.unsigned_eq_cons
      have read := d.plain?_unsigned false
      rw [hc] at read
      exact hc ▸ (signedPlain?_digit digit cs).trans read
  rw [ofText?, plain, ofParts?, dif_pos ⟨d.mantissa_lt, d.scale_le⟩]
  rfl

end DataAccess.Decimal
