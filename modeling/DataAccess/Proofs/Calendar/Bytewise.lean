import DataAccess.Proofs.Calendar.Written
import DataAccess.Proofs.Text.Order
import DataAccess.Proofs.Value.Numbers
import DataAccess.Sqlite.Cell

/-!
Days, times of day and moments in the order of their texts. Fields of fixed width compare as their
numbers do, and a fraction without its trailing zeros as the nanoseconds; but of two years before
the year zero the earlier one has the greater digits.
-/
namespace DataAccess

namespace Calendar

/-- A field decides before what follows it. -/
theorem compare_field {width m n : Nat} (wide : 0 < width) (hm : m < Nat.pow 10 width)
    (hn : n < Nat.pow 10 width) (us vs : List Char) :
    Ord.compare (padded width m ++ us) (padded width n ++ vs) =
      (Ord.compare m n).then (Ord.compare us vs) := by
  have length : (padded width m).length = (padded width n).length :=
    (length_padded wide hm).trans (length_padded wide hn).symm
  rw [compare_append length, (digits_padded width m).compare_eq (digits_padded width n) length,
    denoted_padded, denoted_padded]

/-- A mark that both have decides nothing. -/
theorem compare_mark (mark : Char) (us vs : List Char) :
    Ord.compare (mark :: us) (mark :: vs) = Ord.compare us vs := by
  rw [List.compare_cons_cons, Std.ReflOrd.compare_self]
  rfl

end Calendar

namespace Time

theorem compare_fraction {m n : Nat} (hm : m < Nat.pow 10 9) (hn : n < Nat.pow 10 9) :
    Ord.compare (fraction m) (fraction n) = Ord.compare m n := by
  obtain ⟨c, cs, hc, shortened⟩ := fraction_eq_cons m
  obtain ⟨d, ds, hd, shortened'⟩ := fraction_eq_cons n
  have digits : AllDigits (c :: cs) := hc ▸ Calendar.digits_padded 9 m
  have digits' : AllDigits (d :: ds) := hd ▸ Calendar.digits_padded 9 n
  have length : (c :: cs).length = (d :: ds).length := by
    rw [← hc, ← hd, Calendar.length_padded (by decide) hm, Calendar.length_padded (by decide) hn]
  have nines := Calendar.compare_field (by decide) hm hn [] []
  rw [List.append_nil, List.append_nil, hc, hd, List.compare_cons_cons, List.compare_nil_nil,
    Ordering.then_eq] at nines
  rw [shortened, shortened', List.compare_cons_cons, compare_rdropWhile_zeros
    (fun e he => digits e (List.mem_cons_of_mem c he))
    (fun e he => digits' e (List.mem_cons_of_mem d he)) (Nat.succ.inj length), nines]

/-- Times of day are in the order of their texts. -/
theorem compare_chars (a b : Time) : Ord.compare a.chars b.chars = a.compare b := by
  have fields : Ord.compare a.chars b.chars = (Ord.compare a.hour b.hour).then
      ((Ord.compare a.minute b.minute).then
        ((Ord.compare a.second b.second).then (Ord.compare a.nano b.nano))) := by
    rw [chars_eq, chars_eq, Calendar.compare_field (by decide) (two_digits a.hour_lt (by decide))
        (two_digits b.hour_lt (by decide)), Calendar.compare_mark,
      Calendar.compare_field (by decide) (two_digits a.minute_lt (by decide))
        (two_digits b.minute_lt (by decide)), Calendar.compare_mark,
      Calendar.compare_field (by decide) (two_digits a.second_lt (by decide))
        (two_digits b.second_lt (by decide)), Calendar.compare_mark,
      compare_fraction a.nano_lt b.nano_lt]
  have since (t : Time) : t.sinceMidnight =
      Nat.pow 10 9 * (60 * (60 * t.hour + t.minute) + t.second) + t.nano := by
    rw [sinceMidnight, Nat.mul_comm _ (Nat.pow 10 9), Nat.mul_comm _ 60, Nat.mul_comm _ 60]
  rw [fields, compare, since, since, compare_places a.nano_lt b.nano_lt,
    compare_places a.second_lt b.second_lt, compare_places a.minute_lt b.minute_lt,
    Ordering.then_assoc, Ordering.then_assoc]

theorem plain_chars (t : Time) : Plain t.chars := by
  rw [chars_eq]
  refine (Plain.ofDigits (Calendar.digits_padded _ _)).append (.cons (by decide) ?_)
  refine (Plain.ofDigits (Calendar.digits_padded _ _)).append (.cons (by decide) ?_)
  refine (Plain.ofDigits (Calendar.digits_padded _ _)).append (.cons (by decide) ?_)
  exact .ofDigits (digits_fraction _)

end Time

namespace Date

/-- The order in which years are written: those before the year zero by their distance from it. -/
def writtenYears (y z : Int) : Ordering :=
  if y < 0 ∧ z < 0 then Ord.compare z y else Ord.compare y z

/-- Different years before the year zero. -/
def EarlyApart (a b : Date) : Prop := a.year < 0 ∧ b.year < 0 ∧ a.year ≠ b.year

theorem compare_minus_digit {cs us vs : List Char} (h : AllDigits cs) (some_digit : cs ≠ []) :
    Ord.compare ('-' :: us) (cs ++ vs) = .lt := by
  cases cs with
  | nil => exact absurd rfl some_digit
  | cons c cs =>
    have low := (Char.isDigit_iff_toNat.mp (h c List.mem_cons_self)).1
    have below : '-'.toNat < '0'.toNat := by decide
    rw [List.cons_append, List.compare_cons_cons, compare_toNat, Nat.compare_eq_lt.mpr (by omega)]
    rfl

theorem yearChars_early {y : Int} (h : y < 0) (us : List Char) :
    yearChars y ++ us = '-' :: (Calendar.padded 4 y.natAbs ++ us) := by
  rw [yearChars, if_pos h, List.append_assoc, List.singleton_append]

theorem yearChars_late {y : Int} (h : ¬y < 0) (us : List Char) :
    yearChars y ++ us = Calendar.padded 4 y.natAbs ++ us := by
  rw [yearChars, if_neg h, List.nil_append]

theorem compare_yearChars {y z : Int} (hy : -9999 ≤ y ∧ y ≤ 9999) (hz : -9999 ≤ z ∧ z ≤ 9999)
    (us vs : List Char) : Ord.compare (yearChars y ++ us) (yearChars z ++ vs) =
      (writtenYears y z).then (Ord.compare us vs) := by
  have four {x : Int} (h : -9999 ≤ x ∧ x ≤ 9999) : x.natAbs < Nat.pow 10 4 := by
    have : Nat.pow 10 4 = 10000 := by decide
    omega
  have field := Calendar.compare_field (by decide) (four hy) (four hz) us vs
  have minus (x : Int) (us vs : List Char) :
      Ord.compare ('-' :: us) (Calendar.padded 4 x.natAbs ++ vs) = .lt :=
    compare_minus_digit (Calendar.digits_padded _ _) (Calendar.padded_ne_nil _ _)
  by_cases ny : y < 0 <;> by_cases nz : z < 0
  · have order : Ord.compare y.natAbs z.natAbs = Ord.compare z y :=
      compareOfLessAndEq_congr (by omega) (by omega)
    rw [yearChars_early ny, yearChars_early nz, Calendar.compare_mark, field, order, writtenYears,
      if_pos ⟨ny, nz⟩]
  · have order : Ord.compare y z = .lt := Int.compare_eq_lt.mpr (by omega)
    rw [yearChars_early ny, yearChars_late nz, minus, writtenYears, if_neg (fun h => nz h.2), order]
    rfl
  · have order : Ord.compare y z = .gt := Int.compare_eq_gt.mpr (by omega)
    rw [yearChars_late ny, yearChars_early nz, Std.OrientedCmp.gt_iff_lt.mpr (minus y _ us),
      writtenYears, if_neg (fun h => ny h.1), order]
    rfl
  · have order : Ord.compare y.natAbs z.natAbs = Ord.compare y z :=
      compareOfLessAndEq_congr (by omega) (by omega)
    rw [yearChars_late ny, yearChars_late nz, field, order, writtenYears, if_neg (fun h => ny h.1)]

theorem compare_chars (a b : Date) (us vs : List Char) :
    Ord.compare (a.chars ++ us) (b.chars ++ vs) =
      (writtenYears a.year b.year).then ((Ord.compare a.month b.month).then
        ((Ord.compare a.day b.day).then (Ord.compare us vs))) := by
  rw [chars_eq, chars_eq, compare_yearChars a.year_bounds b.year_bounds, Calendar.compare_mark,
    Calendar.compare_field (by decide) a.month_lt b.month_lt, Calendar.compare_mark,
    Calendar.compare_field (by decide) a.day_lt b.day_lt]

/-- The texts keep the order but for different years before the year zero, which they turn round. -/
theorem compare_chars_eq_iff (a b : Date) (us vs : List Char) :
    Ord.compare (a.chars ++ us) (b.chars ++ vs) = (a.compare b).then (Ord.compare us vs) ↔
      ¬a.EarlyApart b := by
  have fields : (a.compare b).then (Ord.compare us vs) = (Ord.compare a.year b.year).then
      ((Ord.compare a.month b.month).then
        ((Ord.compare a.day b.day).then (Ord.compare us vs))) := by
    rw [compare, Ordering.then_assoc, Ordering.then_assoc]
  rw [compare_chars, fields, writtenYears, EarlyApart]
  by_cases early : a.year < 0 ∧ b.year < 0
  · rw [if_pos early]
    rcases Int.lt_trichotomy a.year b.year with h | h | h
    · rw [Int.compare_eq_lt.mpr h, Int.compare_eq_gt.mpr h]
      exact iff_of_false nofun fun not => not ⟨early.1, early.2, by omega⟩
    · rw [h]
      exact iff_of_true rfl fun apart => apart.2.2 rfl
    · rw [Int.compare_eq_gt.mpr h, Int.compare_eq_lt.mpr h]
      exact iff_of_false nofun fun not => not ⟨early.1, early.2, by omega⟩
  · rw [if_neg early]
    exact iff_of_true rfl fun apart => early ⟨apart.1, apart.2.1⟩

theorem plain_chars (d : Date) : Plain d.chars := by
  rw [← List.append_nil d.chars, chars_eq]
  have year : Plain (yearChars d.year) := by
    rw [yearChars]
    split
    · exact Plain.append (.cons (by decide) .nil) (.ofDigits (Calendar.digits_padded _ _))
    · exact .ofDigits (Calendar.digits_padded _ _)
  refine year.append (.cons (by decide) ?_)
  refine (Plain.ofDigits (Calendar.digits_padded _ _)).append (.cons (by decide) ?_)
  exact (Plain.ofDigits (Calendar.digits_padded _ _)).append .nil

end Date

namespace Timestamp

theorem toText_eq (t : Timestamp) :
    t.toText = String.ofList (t.date.chars ++ ' ' :: t.time.chars) := by
  rw [← toList_toText, String.ofList_toList]

theorem plain_chars (t : Timestamp) : Plain (t.date.chars ++ ' ' :: t.time.chars) :=
  t.date.plain_chars.append (.cons (by decide) t.time.plain_chars)

theorem compare_chars (a b : Timestamp) :
    Ord.compare (a.date.chars ++ ' ' :: a.time.chars) (b.date.chars ++ ' ' :: b.time.chars) =
      a.compare b ↔ ¬a.date.EarlyApart b.date := by
  have parts : a.compare b =
      (a.date.compare b.date).then (Ord.compare (' ' :: a.time.chars) (' ' :: b.time.chars)) := by
    rw [compare, Calendar.compare_mark, Time.compare_chars]
  rw [parts]
  exact Date.compare_chars_eq_iff _ _ _ _

end Timestamp

namespace Scalar

/-- The order of two cells' texts, byte by byte. -/
def bytewise? (a b : Scalar) : Option Ordering :=
  a.canonical?.bind fun s => b.canonical?.map fun t => bytewise s t

end Scalar

namespace Value

/-- The texts of days, times of day and moments have the order of the cells byte by byte, but for
those whose years are different and both before the year zero. -/
theorem compare_eq_bytewise_iff (a b : Date) (t u : Time) :
    ((Scalar.date a).bytewise? (.date b) = (of (.date a)).compare (of (.date b)) ↔
      ¬a.EarlyApart b) ∧
    (Scalar.time t).bytewise? (.time u) = (of (.time t)).compare (of (.time u)) ∧
    ((Scalar.timestamp ⟨a, t⟩).bytewise? (.timestamp ⟨b, u⟩) =
      (of (.timestamp ⟨a, t⟩)).compare (of (.timestamp ⟨b, u⟩)) ↔ ¬a.EarlyApart b) := by
  refine ⟨?_, ?_, ?_⟩
  · have texts := a.plain_chars.bytewise_eq b.plain_chars
    have order := Date.compare_chars_eq_iff a b [] []
    rw [List.append_nil, List.append_nil, List.compare_nil_nil, Ordering.then_eq] at order
    rw [← order, ← texts]
    exact Option.some_inj
  · exact congrArg some ((t.plain_chars.bytewise_eq u.plain_chars).trans (t.compare_chars u))
  · have texts := (Timestamp.mk a t).plain_chars.bytewise_eq (Timestamp.mk b u).plain_chars
    rw [← Timestamp.toText_eq, ← Timestamp.toText_eq] at texts
    rw [← (Timestamp.mk a t).compare_chars ⟨b, u⟩, ← texts]
    exact Option.some_inj

/-- The first day of a year. -/
def newYear (year : Int) (h : -9999 ≤ year ∧ year ≤ 9999) : Date :=
  ⟨year, 1, 1, h, by decide, by simp [daysInMonth]⟩

/-- The year -45 comes before the year -44, and its text behind. -/
theorem bytewise_turned_early :
    (of (.date (newYear (-45) (by decide)))).compare (of (.date (newYear (-44) (by decide)))) =
      some .lt ∧
    (Scalar.date (newYear (-45) (by decide))).bytewise? (.date (newYear (-44) (by decide))) =
      some .gt := by
  constructor <;> decide +kernel

end Value

namespace Sqlite.Cell

/-- The engine's own order of such cells is that of their texts byte by byte. -/
theorem compare_moments :
    (∀ a b : Date, some ((ofScalar (.date a)).compare (ofScalar (.date b))) =
      (Scalar.date a).bytewise? (.date b)) ∧
    (∀ a b : Time, some ((ofScalar (.time a)).compare (ofScalar (.time b))) =
      (Scalar.time a).bytewise? (.time b)) ∧
    (∀ a b : Timestamp, some ((ofScalar (.timestamp a)).compare (ofScalar (.timestamp b))) =
      (Scalar.timestamp a).bytewise? (.timestamp b)) := by
  have texts {cs ds : List Char} (hc : Plain cs) (hd : Plain ds) :
      some (Ord.compare (String.ofList cs) (String.ofList ds)) =
        some (bytewise (String.ofList cs) (String.ofList ds)) := by
    rw [compare_ofList, hc.bytewise_eq hd]
  refine ⟨fun a b => texts a.plain_chars b.plain_chars,
    fun a b => texts a.plain_chars b.plain_chars, fun a b => ?_⟩
  have moments := texts a.plain_chars b.plain_chars
  rwa [← Timestamp.toText_eq, ← Timestamp.toText_eq] at moments

end Sqlite.Cell
end DataAccess
