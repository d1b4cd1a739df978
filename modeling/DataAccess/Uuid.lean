import DataAccess.Text.Hex

/-! Identifiers of 128 bits, written as thirty-two hexadecimal digits in five groups. -/
namespace DataAccess

structure Uuid where
  number : BitVec 128
deriving DecidableEq

namespace Uuid

def compare (a b : Uuid) : Ordering := Ord.compare a.number.toNat b.number.toNat

/-- The digits of `n`, exactly `width` of them. -/
def digits (n : Nat) : Nat → List Char
  | 0 => []
  | width + 1 => digits (n / 16) width ++ [Hex.digit n]

def groups : List Nat := [8, 4, 4, 4, 12]

/-- Cuts a list into groups with a hyphen between them. -/
def hyphenated : List Nat → List Char → List Char
  | [], _ => []
  | [n], cs => cs.take n
  | n :: rest, cs => cs.take n ++ '-' :: hyphenated rest (cs.drop n)

def toText (u : Uuid) : String := String.ofList (hyphenated groups (digits u.number.toNat 32))

def ofBytes? (bytes : List UInt8) : Option Uuid :=
  if bytes.length = 16 then
    some ⟨BitVec.ofNat 128 (bytes.foldl (fun n b => n * 256 + b.toNat) 0)⟩
  else none

def simple? (cs : List Char) : Option Uuid :=
  if cs.length = 32 then (Hex.number? 0 cs).map fun n => ⟨BitVec.ofNat 128 n⟩ else none

/-- The digits, when the hyphens stand between the groups and nowhere else. -/
def grouped? (cs : List Char) : Option Uuid :=
  let digits := cs.filter (· ≠ '-')
  if hyphenated groups digits = cs then simple? digits else none

def urn : List Char := "urn:uuid:".toList

/-- Bare digits, groups, groups in braces, or groups after `urn:uuid:`; letters of either case. -/
def ofText? (text : String) : Option Uuid :=
  let cs := text.toList
  (simple? cs).or <| (grouped? cs).or <|
    if (cs.take urn.length).map Char.toLower = urn then grouped? (cs.drop urn.length)
    else match cs with
      | '\x7b' :: rest => if rest.getLast? = some '\x7d' then grouped? rest.dropLast else none
      | _ => none

end Uuid
end DataAccess
