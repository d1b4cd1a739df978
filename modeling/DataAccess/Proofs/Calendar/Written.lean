import DataAccess.Calendar.Timestamp
import DataAccess.Proofs.Text.Digits
import Mathlib.Data.List.DropRight
import Mathlib.Data.List.TakeWhile

/-! Days, times of day and moments are read back from their own text. -/
namespace DataAccess

namespace Date

theorem year?_digits {cs rest : List Char} (h : AllDigits cs) (some_digit : cs ≠ []) :
    year? (cs ++ rest) =
      (Calendar.field? 4 (cs ++ rest)).map fun (n, rest) => ((n : Int), rest) := by
  cases cs with
  | nil => exact absurd rfl some_digit
  | cons c cs =>
    have hc := h c List.mem_cons_self
    unfold year?
    split
    · next heq =>
      obtain ⟨rfl, -⟩ := List.cons.inj heq
      exact absurd hc (by decide)
    · next heq =>
      obtain ⟨rfl, -⟩ := List.cons.inj heq
      exact absurd hc (by decide)
    · rfl

/-- The sign of a year and its four digits. -/
def yearChars (year : Int) : List Char :=
  (if year < 0 then ['-'] else []) ++ Calendar.padded 4 year.natAbs

theorem year?_yearChars {year : Int} (h : -9999 ≤ year ∧ year ≤ 9999) (rest : List Char) :
    year? (yearChars year ++ rest) = some (year, rest) := by
  have four : year.natAbs < Nat.pow 10 4 := by
    have : Nat.pow 10 4 = 10000 := by decide
    omega
  have field := Calendar.field?_padded (by decide) four rest
  by_cases negative : year < 0
  · rw [yearChars, if_pos negative, List.append_assoc, List.singleton_append, year?, field]
    simp only [Option.map_some, Option.some.injEq, Prod.mk.injEq, and_true]
    omega
  · rw [yearChars, if_neg negative, List.nil_append,
      year?_digits (Calendar.digits_padded _ _) (Calendar.padded_ne_nil _ _), field]
    simp only [Option.map_some, Option.some.injEq, Prod.mk.injEq, and_true]
    omega

theorem month_lt (d : Date) : d.month < Nat.pow 10 2 :=
  Nat.lt_of_le_of_lt d.month_bounds.2 (by decide)

theorem daysInMonth_le (year : Int) (month : Nat) : daysInMonth year month ≤ 31 := by
  unfold daysInMonth
  repeat' split
  all_goals decide

theorem day_lt (d : Date) : d.day < Nat.pow 10 2 :=
  Nat.lt_of_le_of_lt (Nat.le_trans d.day_bounds.2 (daysInMonth_le _ _)) (by decide)

theorem ofParts?_self (d : Date) : ofParts? d.year d.month d.day = some d :=
  dif_pos ⟨d.year_bounds, d.month_bounds, d.day_bounds⟩

theorem chars_eq (d : Date) (rest : List Char) : d.chars ++ rest =
    yearChars d.year ++ '-' ::
      (Calendar.padded 2 d.month ++ '-' :: (Calendar.padded 2 d.day ++ rest)) := by
  simp only [chars, yearChars, List.append_assoc, List.cons_append]

/-- A day is read back, whatever follows it. -/
theorem read?_chars (d : Date) (rest : List Char) : read? (d.chars ++ rest) = some (d, rest) := by
  rw [chars_eq, read?, year?_yearChars d.year_bounds]
  simp only [Option.bind_eq_bind, Option.bind_some, Calendar.mark?_cons,
    Calendar.field?_padded (by decide : 0 < 2) d.month_lt,
    Calendar.field?_padded (by decide : 0 < 2) d.day_lt, ofParts?_self]
  rfl

theorem ofText?_toText (d : Date) : ofText? d.toText = some d := by
  have h := d.read?_chars []
  rw [List.append_nil] at h
  rw [ofText?, toText, String.toList_ofList, h]
  rfl

end Date

namespace Time

/-- The first of the nine digits stays, whatever it is. -/
theorem fraction_eq_cons (nano : Nat) : ∃ c cs, Calendar.padded 9 nano = c :: cs ∧
    fraction nano = c :: cs.rdropWhile (· = '0') := by
  cases hp : Calendar.padded 9 nano with
  | nil => exact absurd hp (Calendar.padded_ne_nil _ _)
  | cons c cs =>
    refine ⟨c, cs, rfl, ?_⟩
    rw [fraction, hp]
    rfl

theorem rdropWhile_zeros (cs : List Char) :
    ∃ k, cs = cs.rdropWhile (· = '0') ++ List.replicate k '0' := by
  refine ⟨(cs.reverse.takeWhile (· = '0')).length, ?_⟩
  have zeros : cs.reverse.takeWhile (· = '0') =
      List.replicate (cs.reverse.takeWhile (· = '0')).length '0' := by
    refine List.eq_replicate_iff.mpr ⟨rfl, fun c hc => ?_⟩
    simpa using List.mem_takeWhile_imp hc
  have split := congrArg List.reverse
    (List.takeWhile_append_dropWhile (p := (· = '0')) (l := cs.reverse))
  rw [List.reverse_reverse, List.reverse_append, zeros, List.reverse_replicate] at split
  exact split.symm

/-- Only zeros are missing at the end of the nine digits. -/
theorem fraction_zeros (nano : Nat) :
    ∃ k, Calendar.padded 9 nano = fraction nano ++ List.replicate k '0' := by
  obtain ⟨c, cs, digits, shortened⟩ := fraction_eq_cons nano
  obtain ⟨k, hk⟩ := rdropWhile_zeros cs
  refine ⟨k, ?_⟩
  rw [digits, shortened]
  exact congrArg (c :: ·) hk

theorem fraction_ne_nil (nano : Nat) : fraction nano ≠ [] := by
  obtain ⟨c, cs, -, shortened⟩ := fraction_eq_cons nano
  rw [shortened]
  exact List.cons_ne_nil _ _

theorem digits_fraction (nano : Nat) : AllDigits (fraction nano) := by
  obtain ⟨k, hk⟩ := fraction_zeros nano
  intro c hc
  exact Calendar.digits_padded 9 nano c (hk ▸ List.mem_append_left _ hc)

/-- The fraction's digits, its places and the number of nanoseconds. -/
theorem denoted_fraction {nano : Nat} (h : nano < Nat.pow 10 9) :
    (fraction nano).length ≤ 9 ∧
      Nat.ofDigitChars 10 (fraction nano) 0 * Nat.pow 10 (9 - (fraction nano).length) = nano := by
  obtain ⟨k, hk⟩ := fraction_zeros nano
  have length : 9 = (fraction nano).length + k := by
    rw [← Calendar.length_padded (by decide) h, hk, List.length_append, List.length_replicate]
  have denoted := Calendar.denoted_padded 9 nano
  rw [hk, Nat.ofDigitChars_append, Nat.ofDigitChars_replicate_zero, Nat.mul_comm] at denoted
  have places : 9 - (fraction nano).length = k := by omega
  exact ⟨by omega, places ▸ denoted⟩

theorem fraction?_fraction {nano : Nat} (h : nano < Nat.pow 10 9) :
    fraction? (fraction nano) = some (nano, []) := by
  obtain ⟨short, denoted⟩ := denoted_fraction h
  have all : (fraction nano).takeWhile Char.isDigit = fraction nano :=
    List.takeWhile_eq_self_iff.mpr (digits_fraction nano)
  simp only [fraction?, all, List.take_of_length_le short,
    List.take_of_length_le (Nat.le_trans short (by decide : 9 ≤ 32)), List.drop_length,
    Integer.natural?_eq (digits_fraction nano) (fraction_ne_nil nano), Option.map_some, denoted]

theorem ofParts?_self (t : Time) : ofParts? t.hour t.minute t.second t.nano = some t :=
  dif_pos ⟨t.hour_lt, t.minute_lt, t.second_lt, t.nano_lt⟩

theorem two_digits {n bound : Nat} (h : n < bound) (hb : bound ≤ 60) : n < Nat.pow 10 2 :=
  Nat.lt_of_lt_of_le h (Nat.le_trans hb (by decide))

theorem chars_eq (t : Time) : t.chars =
    Calendar.padded 2 t.hour ++ ':' :: (Calendar.padded 2 t.minute ++
      ':' :: (Calendar.padded 2 t.second ++ '.' :: fraction t.nano)) := by
  simp only [chars, afterHour, List.append_assoc, List.cons_append]

theorem read?_chars (t : Time) : read? t.chars = some (t, []) := by
  rw [chars_eq, read?, Calendar.field?_padded (by decide) (two_digits t.hour_lt (by decide))]
  simp only [Option.bind_eq_bind, Option.bind_some, Calendar.mark?_cons,
    Calendar.field?_padded (by decide : 0 < 2) (two_digits t.minute_lt (by decide)),
    Calendar.field?_padded (by decide : 0 < 2) (two_digits t.second_lt (by decide)),
    fraction?_fraction t.nano_lt, ofParts?_self]
  rfl

theorem ofText?_toText (t : Time) : ofText? t.toText = some t := by
  rw [ofText?, toText, String.toList_ofList, read?_chars]
  rfl

end Time

namespace Timestamp

theorem toList_toText (t : Timestamp) : t.toText.toList = t.date.chars ++ ' ' :: t.time.chars := by
  rw [toText, String.toList_append, String.toList_append, Date.toText, Time.toText,
    String.toList_ofList, List.append_assoc]
  exact congrArg (t.date.chars ++ ' ' :: ·) String.toList_ofList

theorem ofText?_toText (t : Timestamp) : ofText? t.toText = some t := by
  rw [ofText?, toList_toText, Date.read?_chars]
  simp only [Option.bind_eq_bind, Option.bind_some, Calendar.mark?_cons, Time.read?_chars]
  rfl

end Timestamp
end DataAccess
