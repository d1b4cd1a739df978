import DataAccess.Query
import Mathlib.Data.List.Infix

/-!
Text cut to a number of bytes. It is cut where a search backwards through the bytes finds the last
boundary, which is never before the start. What is shown of a query is cut so, and without the
blanks at the end.
-/
namespace DataAccess.Text

open String.Pos (Raw)

variable {text part : String} {max : Nat}

/-- A boundary at a byte or before it, looked for byte by byte; nothing if that leads beyond the
start. -/
def boundary? (text : String) : Nat → Option Nat
  | 0 => if Raw.isValid text ⟨0⟩ then some 0 else none
  | i + 1 => if Raw.isValid text ⟨i + 1⟩ then some (i + 1) else boundary? text i

/-- The bytes up to a boundary, if one is found and they are a text. -/
def cut? (max : Nat) (text : String) : Option String :=
  if text.utf8ByteSize ≤ max then some text
  else (boundary? text max).bind fun stop => String.fromUTF8? (text.toUTF8.extract 0 stop)

/-- The longest part of a text from its start that has no more than so many bytes and ends at a
boundary. -/
structure Longest (max : Nat) (text part : String) : Prop where
  start : ∃ rest, text = part ++ rest
  boundary : Raw.IsValid text ⟨part.utf8ByteSize⟩
  fits : part.utf8ByteSize ≤ max
  longest : ∀ i ≤ max, Raw.IsValid text ⟨i⟩ → i ≤ part.utf8ByteSize

/-- What is left of a text without the blanks at its end. -/
structure Trimmed (text part : String) : Prop where
  blanks : ∃ rest, text = part ++ rest ∧ rest.toList.all isBlank = true
  solid : ∀ c ∈ part.toList.getLast?, isBlank c = false

section TakeBytes

variable {cs part : List Char}

theorem size_cons (c : Char) (cs : List Char) : (String.ofList (c :: cs)).utf8ByteSize =
    c.utf8Size + (String.ofList cs).utf8ByteSize := by
  rw [String.ofList_cons, String.utf8ByteSize_append, String.utf8ByteSize_singleton]

theorem takeBytes_prefix (max : Nat) (cs : List Char) : takeBytes max cs <+: cs := by
  induction cs generalizing max with
  | nil => exact List.nil_prefix
  | cons c rest ih =>
    rw [takeBytes]
    split
    · exact (List.prefix_cons_inj c).mpr (ih _)
    · exact List.nil_prefix

theorem size_takeBytes_le (max : Nat) (cs : List Char) :
    (String.ofList (takeBytes max cs)).utf8ByteSize ≤ max := by
  induction cs generalizing max with
  | nil => exact Nat.zero_le max
  | cons c rest ih =>
    rw [takeBytes]
    split
    · have := ih (max - c.utf8Size)
      rw [size_cons]
      omega
    · exact Nat.zero_le max

/-- Whatever part fits is taken. -/
theorem prefix_takeBytes (start : part <+: cs) (fits : (String.ofList part).utf8ByteSize ≤ max) :
    part <+: takeBytes max cs := by
  induction part generalizing max cs with
  | nil => exact List.nil_prefix
  | cons c part ih =>
    obtain ⟨rest, rfl⟩ := start
    rw [size_cons] at fits
    rw [List.cons_append, takeBytes, if_pos (by omega), List.prefix_cons_inj]
    exact ih (List.prefix_append part rest) (by omega)

end TakeBytes

theorem truncate_append (max : Nat) (text : String) : ∃ rest, text = truncate max text ++ rest := by
  obtain ⟨rest, whole⟩ := takeBytes_prefix max text.toList
  refine ⟨String.ofList rest, ?_⟩
  rw [truncate, ← String.ofList_append, whole, String.ofList_toList]

theorem truncate_longest (max : Nat) (text : String) : Longest max text (truncate max text) where
  start := truncate_append max text
  boundary := by
    obtain ⟨rest, whole⟩ := truncate_append max text
    exact Raw.isValid_iff_exists_append.mpr ⟨_, rest, whole, rfl⟩
  fits := size_takeBytes_le max text.toList
  longest i bound boundary := by
    obtain ⟨before, behind, whole, place⟩ := Raw.isValid_iff_exists_append.mp boundary
    obtain rfl : i = before.utf8ByteSize := congrArg Raw.byteIdx place
    have start : before.toList <+: text.toList := by
      rw [whole, String.toList_append]
      exact List.prefix_append _ _
    have fits : (String.ofList before.toList).utf8ByteSize ≤ max := by
      rwa [String.ofList_toList]
    obtain ⟨more, taken⟩ := prefix_takeBytes start fits
    rw [truncate, ← taken, String.ofList_append, String.ofList_toList, String.utf8ByteSize_append]
    exact Nat.le_add_right _ _

/-- A limit within a character leaves all of it out. -/
example : truncate 6 "añ😀" = "añ" := by decide +kernel

/-- A search ends at the last boundary. -/
theorem boundary?_eq_some {i j : Nat} (boundary : Raw.IsValid text ⟨j⟩) (bound : j ≤ i)
    (last : ∀ k ≤ i, Raw.IsValid text ⟨k⟩ → k ≤ j) : boundary? text i = some j := by
  induction i with
  | zero =>
    obtain rfl := Nat.le_zero.mp bound
    rw [boundary?, if_pos (Raw.isValid_eq_true_iff.mpr boundary)]
  | succ i ih =>
    rw [boundary?]
    by_cases here : Raw.IsValid text ⟨i + 1⟩
    · obtain rfl := Nat.le_antisymm bound (last _ (Nat.le_refl _) here)
      rw [if_pos (Raw.isValid_eq_true_iff.mpr here)]
    · have before : j ≤ i := by
        refine Nat.le_of_lt_succ (Nat.lt_of_le_of_ne bound ?_)
        rintro rfl
        exact here boundary
      rw [if_neg (Raw.isValid_eq_true_iff.not.mpr here)]
      exact ih before fun k hk => last k (Nat.le_succ_of_le hk)

/-- A text that fits is its longest part. -/
theorem Longest.eq_of_fits (h : Longest max text part) (fits : text.utf8ByteSize ≤ max) :
    part = text := by
  obtain ⟨rest, whole⟩ := h.start
  have size := h.longest text.utf8ByteSize fits Raw.isValid_rawEndPos
  have nothing : rest.utf8ByteSize = 0 := by
    have := congrArg String.utf8ByteSize whole
    rw [String.utf8ByteSize_append] at this
    omega
  rw [whole, String.utf8ByteSize_eq_zero_iff.mp nothing, String.append_empty]

theorem extract_toUTF8 {rest : String} (whole : text = part ++ rest) :
    text.toUTF8.extract 0 part.utf8ByteSize = part.toUTF8 := by
  rw [whole, String.toUTF8, String.toByteArray_append]
  exact ByteArray.extract_append_eq_left String.size_toByteArray.symm

theorem fromUTF8?_toUTF8 (text : String) : String.fromUTF8? text.toUTF8 = some text :=
  dif_pos text.isValidUTF8

/-- The search finds a boundary, and cuts no character. -/
theorem cut?_eq (max : Nat) (text : String) : cut? max text = some (truncate max text) := by
  have longest := truncate_longest max text
  rw [cut?]
  split
  next fits => rw [longest.eq_of_fits fits]
  next =>
    obtain ⟨rest, whole⟩ := longest.start
    rw [boundary?_eq_some longest.boundary longest.fits longest.longest, Option.bind_some,
      extract_toUTF8 whole, fromUTF8?_toUTF8]

theorem trimEnd_trimmed (text : String) : Trimmed text (trimEnd text) where
  blanks := by
    refine ⟨String.ofList (text.toList.reverse.takeWhile isBlank).reverse, ?_, ?_⟩
    · rw [trimEnd, ← String.ofList_append, ← List.reverse_append,
        List.takeWhile_append_dropWhile, List.reverse_reverse, String.ofList_toList]
    · rw [String.toList_ofList, List.all_reverse, List.all_takeWhile]
  solid c last := by
    have := List.head?_dropWhile_not isBlank text.toList.reverse
    rw [trimEnd, String.toList_ofList, List.getLast?_reverse] at last
    rw [Option.mem_def.mp last] at this
    exact this

theorem Trimmed.size_le (h : Trimmed text part) : part.utf8ByteSize ≤ text.utf8ByteSize := by
  obtain ⟨rest, whole, -⟩ := h.blanks
  rw [whole, String.utf8ByteSize_append]
  exact Nat.le_add_right _ _

end DataAccess.Text

namespace DataAccess.Query

open Text

/-- Cutting a text to so many bytes finds a boundary and cuts no character, and leaves the longest
part that fits. So no more than 500 bytes are shown of any query, and they are a text: its first 497
bytes cut so, without the blanks at their end, and three dots if it has more. -/
theorem display_abridged (text : String) (max : Nat) (q : Query) :
    cut? max text = some (truncate max text) ∧ Longest max text (truncate max text) ∧
    ∃ part dots, Trimmed (truncate 497 q.text) part ∧
      dots = (if 497 < q.text.utf8ByteSize then "..." else "") ∧ q.display = part ++ dots ∧
      String.fromUTF8? (q.text.toUTF8.extract 0 part.utf8ByteSize ++ dots.toUTF8) =
        some q.display ∧
      q.display.utf8ByteSize ≤ 500 := by
  have trimmed := trimEnd_trimmed (truncate 497 q.text)
  refine ⟨cut?_eq max text, truncate_longest max text, _, _, trimmed, rfl, rfl, ?_, ?_⟩
  · obtain ⟨blanks, cut, -⟩ := trimmed.blanks
    obtain ⟨rest, whole⟩ := truncate_append 497 q.text
    have start : q.text = trimEnd (truncate 497 q.text) ++ (blanks ++ rest) := by
      rw [← String.append_assoc, ← cut, ← whole]
    rw [extract_toUTF8 start, String.toUTF8, String.toUTF8, ← String.toByteArray_append]
    exact fromUTF8?_toUTF8 _
  · have size := Nat.le_trans trimmed.size_le (truncate_longest 497 q.text).fits
    have dots : (if 497 < q.text.utf8ByteSize then "..." else "").utf8ByteSize ≤ 3 := by
      split <;> decide
    rw [display, abridged, String.utf8ByteSize_append]
    exact Nat.add_le_add size dots

end DataAccess.Query
