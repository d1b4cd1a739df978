import DataAccess.Text.Utf8
import Mathlib.Tactic.SplitIfs

/-!
The bytes of a text in UTF-8, and the texts that bytes are. Text is read back from its own bytes.
-/

namespace DataAccess.Bytes

theorem toList_loop (b : ByteArray) (i : Nat) (before : List UInt8) :
    ByteArray.toList.loop b i before = before.reverse ++ b.data.toList.drop i := by
  fun_induction ByteArray.toList.loop b i before with
  | case1 i before h ih =>
    have hi : i < b.data.toList.length := h
    have byte : b.get! i = b.data.toList[i] := by
      simp [ByteArray.get!, getElem!_pos b.data i h]
    rw [ih, List.reverse_cons, List.append_assoc, byte, List.singleton_append,
      ← List.drop_eq_getElem_cons hi]
  | case2 i before h =>
    have past : b.data.toList.length ≤ i := Nat.le_of_not_lt h
    rw [List.drop_eq_nil_of_le past, List.append_nil]

theorem toList_eq (b : ByteArray) : b.toList = b.data.toList := toList_loop b 0 []

theorem toList_toUTF8 (cs : List Char) :
    (String.ofList cs).toUTF8.toList = cs.flatMap String.utf8EncodeChar := by
  rw [toList_eq, String.toUTF8, String.toByteArray_ofList, List.utf8Encode, List.data_toByteArray]

theorem encodeChar_ascii {c : Char} (h : c.toNat < 128) :
    String.utf8EncodeChar c = [UInt8.ofNat c.toNat] := by
  rw [String.utf8EncodeChar.eq_1]
  exact if_pos (Nat.le_of_lt_succ h)

/-- Bytes are a text just where they are valid UTF-8, and that text has those bytes. -/
theorem fromUTF8?_eq_some_iff {bytes : List UInt8} {text : String} :
    String.fromUTF8? ⟨bytes.toArray⟩ = some text ↔ text.toUTF8.toList = bytes := by
  rw [toList_eq, String.fromUTF8?]
  constructor
  · intro h
    split at h
    · rw [← Option.some.inj h]
      rfl
    · exact nomatch h
  · rintro rfl
    exact dif_pos text.isValidUTF8

theorem fromUTF8?_eq_none_iff {bytes : List UInt8} :
    String.fromUTF8? ⟨bytes.toArray⟩ = none ↔ ¬(ByteArray.mk bytes.toArray).IsValidUTF8 := by
  rw [String.fromUTF8?]
  split
  · next valid => exact ⟨nofun, fun h => absurd valid h⟩
  · next invalid => exact ⟨fun _ => invalid, fun _ => rfl⟩

end DataAccess.Bytes

namespace DataAccess.Utf8

theorem toNat_byte {n : Nat} (h : n < 256) : (UInt8.ofNat n).toNat = n :=
  UInt8.toNat_ofNat_of_lt h

/-- A byte that continues a character gives its six bits. -/
theorem rest_tail {bits low high n v : Nat} {bytes : List UInt8} (h : low ≤ v % 64 + 128)
    (h' : v % 64 + 128 ≤ high) :
    rest bits low high (n + 1) (UInt8.ofNat (v % 64 + 128) :: bytes) =
      rest (bits * 64 + v % 64) 0x80 0xbf n bytes := by
  have byte : (UInt8.ofNat (v % 64 + 128)).toNat = v % 64 + 128 := toNat_byte (by omega)
  rw [rest, byte, if_pos ⟨h, h'⟩]
  congr 1
  omega

theorem lossy_lead {n following least most bits : Nat} {bytes behind : List UInt8} {c : Char}
    (beyond : 0x80 ≤ n) (byte : n < 256) (h : lead? n = some ⟨following, least, most, bits⟩)
    (complete : rest bits least most following bytes = (some c, behind)) :
    lossy (UInt8.ofNat n :: bytes) = c :: lossy behind := by
  rw [lossy, toNat_byte byte, if_neg (Nat.not_lt.mpr beyond)]
  simp only [h, complete, Option.getD_some]

section Lead

variable {v : Nat}

theorem lead?_two (low : 0x80 ≤ v) (high : v < 0x800) :
    lead? (v / 64 % 32 + 192) = some ⟨1, 0x80, 0xbf, v / 64⟩ := by
  rw [lead?, if_pos (by omega)]
  simp only [Option.some.injEq, Lead.mk.injEq, true_and]
  omega

/-- Of three bytes the second tells that a shorter form would not do, and that the character is no
surrogate. -/
theorem lead?_three (low : 0x800 ≤ v) (high : v < 0x10000)
    (valid : v < 0xd800 ∨ 0xdfff < v) :
    ∃ least most, lead? (v / 4096 % 16 + 224) = some ⟨2, least, most, v / 4096⟩ ∧
      least ≤ v / 64 % 64 + 128 ∧ v / 64 % 64 + 128 ≤ most := by
  have bits : v / 4096 % 16 + 224 - 224 = v / 4096 := by omega
  rw [lead?, bits, if_neg (by omega)]
  split_ifs
  · exact ⟨_, _, rfl, by omega, by omega⟩
  · exact ⟨_, _, rfl, by omega, by omega⟩
  · exact ⟨_, _, rfl, by omega, by omega⟩
  all_goals omega

/-- Of four bytes the second tells that a shorter form would not do, and that the character is not
beyond the last. -/
theorem lead?_four (low : 0x10000 ≤ v) (high : v < 0x110000) :
    ∃ least most, lead? (v / 262144 % 8 + 240) = some ⟨3, least, most, v / 262144⟩ ∧
      least ≤ v / 4096 % 64 + 128 ∧ v / 4096 % 64 + 128 ≤ most := by
  have bits : v / 262144 % 8 + 240 - 240 = v / 262144 := by omega
  rw [lead?, bits, if_neg (by omega), if_neg (by omega), if_neg (by omega), if_neg (by omega)]
  split_ifs
  · exact ⟨_, _, rfl, by omega, by omega⟩
  · exact ⟨_, _, rfl, by omega, by omega⟩
  · exact ⟨_, _, rfl, by omega, by omega⟩
  · omega

end Lead

/-- A character is read from its bytes, whatever follows them. -/
theorem lossy_encodeChar (c : Char) (bytes : List UInt8) :
    lossy (String.utf8EncodeChar c ++ bytes) = c :: lossy bytes := by
  have valid : c.toNat < 0xd800 ∨ 0xdfff < c.toNat ∧ c.toNat < 0x110000 := c.valid
  have char (n : Nat) (same : n = c.toNat) (behind : List UInt8) :
      (some (Char.ofNat n), behind) = (some c, behind) := by
    rw [same, Char.ofNat_toNat]
  unfold String.utf8EncodeChar
  simp only [← Char.toNat_val] at char valid ⊢
  generalize c.val.toNat = v at valid char
  split_ifs with one two three
  · rw [List.singleton_append, lossy, toNat_byte (by omega), if_pos (by omega)]
    exact congrArg (· :: _) (Option.some.inj (Prod.mk.inj (char v rfl bytes)).1)
  · rw [List.cons_append, List.singleton_append]
    refine lossy_lead (by omega) (by omega) (lead?_two (by omega) (by omega)) ?_
    rw [rest_tail (by omega) (by omega), rest]
    exact char _ (by omega) _
  · obtain ⟨least, most, lead, low, high⟩ :=
      lead?_three (v := v) (by omega) (by omega) (by omega)
    rw [List.cons_append, List.cons_append, List.singleton_append]
    refine lossy_lead (by omega) (by omega) lead ?_
    rw [rest_tail low high, rest_tail (by omega) (by omega), rest]
    exact char _ (by omega) _
  · obtain ⟨least, most, lead, low, high⟩ := lead?_four (v := v) (by omega) (by omega)
    rw [List.cons_append, List.cons_append, List.cons_append, List.singleton_append]
    refine lossy_lead (by omega) (by omega) lead ?_
    rw [rest_tail low high, rest_tail (by omega) (by omega), rest_tail (by omega) (by omega), rest]
    exact char _ (by omega) _

theorem lossy_toUTF8 (s : String) : String.ofList (lossy s.toUTF8.toList) = s := by
  obtain ⟨cs, rfl⟩ : ∃ cs, String.ofList cs = s := ⟨s.toList, String.ofList_toList⟩
  rw [Bytes.toList_toUTF8]
  congr 1
  induction cs with
  | nil => rw [List.flatMap_nil, lossy]
  | cons c cs ih => rw [List.flatMap_cons, lossy_encodeChar, ih]

end DataAccess.Utf8
