import DataAccess.Proofs.Text.Utf8
import DataAccess.Text.Form

/-!
Named values are read back from their line: what is written has no mark in it that would cut it, and
each byte is spelled so that it is read as itself.
-/
namespace DataAccess.Form

section Cut

variable {mark : Char}

theorem exists_split (mark : Char) (cs : List Char) :
    ∃ part parts, split mark cs = part :: parts := by
  cases cs with
  | nil => exact ⟨_, _, rfl⟩
  | cons c rest =>
    rw [split]
    split
    · exact ⟨_, _, rfl⟩
    · split
      · exact ⟨_, _, rfl⟩
      · exact ⟨_, _, rfl⟩

theorem split_cons_of_ne {c : Char} (h : c ≠ mark) {cs part : List Char} {parts : List (List Char)}
    (behind : split mark cs = part :: parts) : split mark (c :: cs) = (c :: part) :: parts := by
  rw [split, behind]
  exact if_neg h

theorem split_eq_singleton {cs : List Char} (free : mark ∉ cs) : split mark cs = [cs] := by
  induction cs with
  | nil => rfl
  | cons c cs ih =>
    obtain ⟨first, others⟩ : mark ≠ c ∧ mark ∉ _ := by simpa using free
    exact split_cons_of_ne first.symm (ih others)

theorem split_append {cs : List Char} (free : mark ∉ cs) (rest : List Char) :
    split mark (cs ++ mark :: rest) = cs :: split mark rest := by
  induction cs with
  | nil =>
    obtain ⟨part, parts, h⟩ := exists_split mark rest
    rw [List.nil_append, split, h]
    exact if_pos rfl
  | cons c cs ih =>
    obtain ⟨first, others⟩ : mark ≠ c ∧ mark ∉ _ := by simpa using free
    exact split_cons_of_ne first.symm (ih others)

/-- Parts without the mark are found again. -/
theorem split_intercalate {part : List Char} {parts : List (List Char)}
    (free : ∀ p ∈ part :: parts, mark ∉ p) :
    split mark ([mark].intercalate (part :: parts)) = part :: parts := by
  induction parts generalizing part with
  | nil =>
    rw [List.intercalate_singleton]
    exact split_eq_singleton (free part List.mem_cons_self)
  | cons next parts ih =>
    obtain ⟨first, others⟩ := List.forall_mem_cons.mp free
    rw [List.intercalate_cons_cons, List.append_assoc, List.singleton_append, split_append first,
      ih others]

/-- A mark is found where its first character comes first. -/
theorem splitAt?_append {before : List Char} (free : mark ∉ before) (more rest : List Char) :
    splitAt? (mark :: more) (before ++ (mark :: more ++ rest)) = some (before, rest) := by
  induction before with
  | nil =>
    rw [List.nil_append, List.cons_append, splitAt?, ← List.cons_append, if_pos]
    · rw [List.drop_left]
    · rw [List.isPrefixOf_iff_prefix]
      exact List.prefix_append ..
  | cons c before ih =>
    obtain ⟨first, others⟩ : mark ≠ c ∧ mark ∉ _ := by simpa using free
    have apart : ¬(mark :: more).isPrefixOf (c :: (before ++ (mark :: more ++ rest))) := by
      rw [List.isPrefixOf_cons_cons]
      simp [first]
    rw [List.cons_append, splitAt?, if_neg apart, ih others]
    rfl

theorem splitAt?_eq_some {marks cs before after : List Char}
    (h : splitAt? marks cs = some (before, after)) : cs = before ++ (marks ++ after) := by
  induction cs generalizing before with
  | nil => cases h
  | cons c cs ih =>
    rw [splitAt?] at h
    split at h
    · rename_i starts
      obtain ⟨rfl, rfl⟩ := Prod.mk.inj (Option.some.inj h)
      obtain ⟨rest, whole⟩ := List.isPrefixOf_iff_prefix.mp starts
      rw [← whole, List.drop_left]
      rfl
    · obtain ⟨⟨found, _⟩, there, same⟩ := Option.map_eq_some_iff.mp h
      obtain ⟨rfl, rfl⟩ := Prod.mk.inj same
      rw [ih there]
      rfl

theorem splitAt?_eq_none {cs : List Char} : splitAt? [mark] cs = none ↔ mark ∉ cs := by
  induction cs with
  | nil => simp [splitAt?]
  | cons c cs ih =>
    rw [splitAt?, List.isPrefixOf_cons_cons, List.mem_cons, not_or, ← ih]
    by_cases h : mark = c <;> simp [h]

theorem notMem_of_splitAt? {cs before after : List Char}
    (h : splitAt? [mark] cs = some (before, after)) : mark ∉ before := by
  induction cs generalizing before with
  | nil => cases h
  | cons c cs ih =>
    rw [splitAt?] at h
    split at h
    · obtain ⟨rfl, -⟩ := Prod.mk.inj (Option.some.inj h)
      exact List.not_mem_nil
    · rename_i apart
      obtain ⟨⟨found, _⟩, there, same⟩ := Option.map_eq_some_iff.mp h
      obtain ⟨rfl, rfl⟩ := Prod.mk.inj same
      rw [List.mem_cons, not_or]
      exact ⟨by simpa [List.isPrefixOf_cons_cons] using apart, ih there⟩

end Cut

section Bytes

/-- A plus stands for a space. -/
def unplus (c : Char) : Char := if c = '+' then ' ' else c

/-- The bytes that a character of the line is read as, before escapes are resolved. -/
def received (cs : List Char) : List UInt8 := (cs.map unplus).flatMap String.utf8EncodeChar

theorem received_append (cs ds : List Char) : received (cs ++ ds) = received cs ++ received ds := by
  rw [received, List.map_append, List.flatMap_append]
  rfl

theorem decode_eq (cs : List Char) :
    decode cs = String.ofList (Utf8.lossy (percentDecode (received cs))) := by
  rw [received, ← Bytes.toList_toUTF8]
  rfl

theorem received_ascii {c : Char} (h : c.toNat < 128) (plus : c ≠ '+') :
    received [c] = [UInt8.ofNat c.toNat] := by
  rw [received, List.map_singleton, unplus, if_neg plus, List.flatMap_singleton,
    Bytes.encodeChar_ascii h]

theorem percentDecode_cons {b : UInt8} (h : b ≠ 0x25) (bytes : List UInt8) :
    percentDecode (b :: bytes) = b :: percentDecode bytes := by
  match bytes with
  | [] => rfl
  | [_] => rfl
  | _ :: _ :: _ => rw [percentDecode, if_neg h]

/-- Digits of escapes are capital. -/
def capital (n : Nat) : Char := (Hex.digit n).toUpper

/-- Spelled as one byte, and no mark of the line. -/
def Unmarked (c : Char) : Prop := c.toNat < 128 ∧ c ≠ '&' ∧ c ≠ '='

instance : DecidablePred Unmarked := fun _ => inferInstanceAs (Decidable (_ ∧ _ ∧ _))

theorem capital_reads (n : Nat) :
    Hex.digit? (capital n) = some (n % 16) ∧ Unmarked (capital n) ∧ capital n ≠ '+' := by
  have each : ∀ k < 16, Hex.digit? (Nat.digitChar k).toUpper = some k ∧
      Unmarked (Nat.digitChar k).toUpper ∧ (Nat.digitChar k).toUpper ≠ '+' := by decide
  exact each (n % 16) (Nat.mod_lt n (by decide))

theorem isPlain_reads {b : UInt8} (h : isPlain b = true) :
    Unmarked (Char.ofNat b.toNat) ∧ Char.ofNat b.toNat ≠ '+' ∧ b ≠ 0x25 := by
  have each : ∀ n < 256, isPlain (UInt8.ofNat n) = true →
      Unmarked (Char.ofNat n) ∧ Char.ofNat n ≠ '+' ∧ UInt8.ofNat n ≠ 0x25 := by decide +kernel
  simpa using each b.toNat b.toNat_lt (by simpa using h)

theorem escaped_eq (b : UInt8) : '%' :: (Hex.ofByte b).map Char.toUpper =
    ['%', capital (b.toNat / 16), capital b.toNat] := rfl

theorem encodeByte_unmarked (b : UInt8) : ∀ c ∈ encodeByte b, Unmarked c := by
  unfold encodeByte
  split
  · rename_i plain
    exact List.forall_mem_singleton.mpr (isPlain_reads plain).1
  split
  · exact List.forall_mem_singleton.mpr (by decide)
  · have high := (capital_reads (b.toNat / 16)).2.1
    have low := (capital_reads b.toNat).2.1
    rw [escaped_eq]
    simpa using ⟨by decide, high, low⟩

/-- A byte of a small character stands for it. -/
theorem ofNat_byte {c : Char} (h : c.toNat < 128) :
    Char.ofNat (UInt8.ofNat c.toNat).toNat = c := by
  rw [Utf8.toNat_byte (by omega), Char.ofNat_toNat]

/-- The digits of a byte are resolved to it. -/
theorem escape?_capital (b : UInt8) :
    escape? (UInt8.ofNat (capital (b.toNat / 16)).toNat) (UInt8.ofNat (capital b.toNat).toNat) =
      some b := by
  obtain ⟨high, ⟨highAscii, -⟩, -⟩ := capital_reads (b.toNat / 16)
  obtain ⟨low, ⟨lowAscii, -⟩, -⟩ := capital_reads b.toNat
  have whole : b.toNat / 16 % 16 * 16 + b.toNat % 16 = b.toNat := by
    have := b.toNat_lt
    omega
  simp only [escape?, ofNat_byte highAscii, ofNat_byte lowAscii, high, low,
    Option.bind_eq_bind, Option.bind_some, whole, UInt8.ofNat_toNat]
  rfl

/-- The spelling of a byte is read as that byte, whatever follows. -/
theorem percentDecode_encodeByte (b : UInt8) (bytes : List UInt8) :
    percentDecode (received (encodeByte b) ++ bytes) = b :: percentDecode bytes := by
  unfold encodeByte
  split
  · rename_i plain
    obtain ⟨⟨ascii, -⟩, plus, percent⟩ := isPlain_reads plain
    have small : b.toNat.isValidChar := .inl (Nat.lt_trans b.toNat_lt (by decide))
    have byte : UInt8.ofNat (Char.ofNat b.toNat).toNat = b := by
      rw [Char.ofNat, dif_pos small]
      exact UInt8.ofNat_toNat
    rw [received_ascii ascii plus, byte, List.singleton_append, percentDecode_cons percent]
  split
  · rename_i space
    rw [space]
    exact percentDecode_cons (by decide) bytes
  · obtain ⟨-, ⟨highAscii, -⟩, highPlus⟩ := capital_reads (b.toNat / 16)
    obtain ⟨-, ⟨lowAscii, -⟩, lowPlus⟩ := capital_reads b.toNat
    have digits : received [capital (b.toNat / 16), capital b.toNat] =
        [UInt8.ofNat (capital (b.toNat / 16)).toNat, UInt8.ofNat (capital b.toNat).toNat] := by
      rw [← List.singleton_append, received_append, received_ascii highAscii highPlus,
        received_ascii lowAscii lowPlus]
      rfl
    rw [escaped_eq, ← List.singleton_append, received_append, digits]
    change percentDecode (0x25 :: _ :: _ :: bytes) = _
    rw [percentDecode, if_pos rfl, escape?_capital]

theorem received_encode (bs bytes : List UInt8) :
    percentDecode (received (bs.flatMap encodeByte) ++ bytes) = bs ++ percentDecode bytes := by
  induction bs with
  | nil => rfl
  | cons b bs ih =>
    rw [List.flatMap_cons, received_append, List.append_assoc, percentDecode_encodeByte, ih]
    rfl

end Bytes

theorem encode_unmarked (s : String) : ∀ c ∈ encode s, Unmarked c := by
  intro c h
  obtain ⟨b, -, hb⟩ := List.mem_flatMap.mp h
  exact encodeByte_unmarked b c hb

/-- A text is read back from its spelling. -/
theorem decode_encode (s : String) : decode (encode s) = s := by
  have bytes := received_encode s.toUTF8.toList []
  rw [List.append_nil, percentDecode, List.append_nil] at bytes
  rw [decode_eq, encode, bytes, Utf8.lossy_toUTF8]

/-- Named values are read back from their line. -/
theorem pairs_ofPairs (ps : List (String × String)) : pairs (ofPairs ps).toList = ps := by
  rw [ofPairs, String.toList_ofList, pairs]
  cases ps with
  | nil => rfl
  | cons p ps =>
    have free (q : String × String) : '&' ∉ ofPair q := by
      rw [ofPair, List.mem_append, List.mem_cons]
      rintro (h | h | h)
      · exact (encode_unmarked q.1 _ h).2.1 rfl
      · exact absurd h (by decide)
      · exact (encode_unmarked q.2 _ h).2.1 rfl
    have read (q : String × String) : splitAt? ['='] (ofPair q) = some (encode q.1, encode q.2) :=
      splitAt?_append (fun h => (encode_unmarked q.1 _ h).2.2 rfl) [] (encode q.2)
    have filled (q : String × String) : (!(ofPair q).isEmpty) = true := by
      rw [ofPair]
      cases encode q.1 <;> rfl
    have each (P : List Char → Prop) (h : ∀ q, P (ofPair q)) :
        ∀ part ∈ (p :: ps).map ofPair, P part :=
      List.forall_mem_map.mpr fun q _ => h q
    have parts : split '&' (['&'].intercalate ((p :: ps).map ofPair)) = (p :: ps).map ofPair :=
      split_intercalate (each ('&' ∉ ·) free)
    rw [parts, List.filter_eq_self.mpr (each (fun part => (!part.isEmpty) = true) filled),
      List.map_map]
    refine List.map_id'' (fun q => ?_) _
    simp only [Function.comp_apply, read, decode_encode]

end DataAccess.Form
