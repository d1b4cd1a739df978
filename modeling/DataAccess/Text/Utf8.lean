/-! Text from bytes that may not be text: what is malformed is replaced. -/
namespace DataAccess.Utf8

/-- A lead byte: how many bytes follow, the range of the first of them, and the bits it gives. -/
structure Lead where
  following : Nat
  low : Nat
  high : Nat
  bits : Nat

def lead? (b : Nat) : Option Lead :=
  if 0xc2 ≤ b ∧ b ≤ 0xdf then some ⟨1, 0x80, 0xbf, b - 0xc0⟩
  else if b = 0xe0 then some ⟨2, 0xa0, 0xbf, b - 0xe0⟩
  else if b = 0xed then some ⟨2, 0x80, 0x9f, b - 0xe0⟩
  else if 0xe1 ≤ b ∧ b ≤ 0xef then some ⟨2, 0x80, 0xbf, b - 0xe0⟩
  else if b = 0xf0 then some ⟨3, 0x90, 0xbf, b - 0xf0⟩
  else if 0xf1 ≤ b ∧ b ≤ 0xf3 then some ⟨3, 0x80, 0xbf, b - 0xf0⟩
  else if b = 0xf4 then some ⟨3, 0x80, 0x8f, b - 0xf0⟩
  else none

/-- The character whose bits so far are `bits`, and the bytes behind it; no character as soon as a
byte does not continue it. -/
def rest (bits low high : Nat) : Nat → List UInt8 → Option Char × List UInt8
  | 0, bytes => (some (Char.ofNat bits), bytes)
  | _ + 1, [] => (none, [])
  | n + 1, b :: bytes =>
    if low ≤ b.toNat ∧ b.toNat ≤ high then rest (bits * 64 + b.toNat % 64) 0x80 0xbf n bytes
    else (none, b :: bytes)

theorem rest_length (bits low high n : Nat) (bytes : List UInt8) :
    (rest bits low high n bytes).2.length ≤ bytes.length := by
  induction n generalizing bits low high bytes with
  | zero => simp [rest]
  | succ n ih =>
    cases bytes with
    | nil => simp [rest]
    | cons b bytes =>
      rw [rest]
      split
      · exact Nat.le_succ_of_le (ih ..)
      · simp

def replacement : Char := '\ufffd'

def lossy : List UInt8 → List Char
  | [] => []
  | b :: bytes =>
    if b.toNat < 0x80 then Char.ofNat b.toNat :: lossy bytes
    else match lead? b.toNat with
      | none => replacement :: lossy bytes
      | some lead =>
        (rest lead.bits lead.low lead.high lead.following bytes).1.getD replacement ::
          lossy (rest lead.bits lead.low lead.high lead.following bytes).2
termination_by bytes => bytes.length
decreasing_by
  all_goals simp only [List.length_cons]
  · omega
  · omega
  · have := rest_length lead.bits lead.low lead.high lead.following bytes
    omega

end DataAccess.Utf8
