import DataAccess.Text.Hex
import DataAccess.Text.Utf8

/-! Named values in one line: `name=value` pairs with `&` between them, bytes escaped as `%XX`. -/
namespace DataAccess.Form

/-- What comes before the first `mark` and what comes after it. -/
def splitAt? (mark : List Char) : List Char → Option (List Char × List Char)
  | [] => none
  | c :: rest =>
    if mark.isPrefixOf (c :: rest) then some ([], (c :: rest).drop mark.length)
    else (splitAt? mark rest).map fun (before, after) => (c :: before, after)

/-- The parts between the marks. -/
def split (mark : Char) : List Char → List (List Char)
  | [] => [[]]
  | c :: rest =>
    match split mark rest with
    | [] => [[c]]
    | part :: parts => if c = mark then [] :: part :: parts else (c :: part) :: parts

/-- The byte of two hexadecimal digits. -/
def escape? (high low : UInt8) : Option UInt8 := do
  let h ← Hex.digit? (Char.ofNat high.toNat)
  let l ← Hex.digit? (Char.ofNat low.toNat)
  pure (UInt8.ofNat (h * 16 + l))

/-- A percent sign without two digits stands for itself. -/
def percentDecode : List UInt8 → List UInt8
  | [] => []
  | [b] => [b]
  | [b, c] => [b, c]
  | b :: h :: l :: rest =>
    match if b = 0x25 then escape? h l else none with
    | some byte => byte :: percentDecode rest
    | none => b :: percentDecode (h :: l :: rest)

/-- A plus is a space. -/
def decode (cs : List Char) : String :=
  let bytes := (String.ofList (cs.map fun c => if c = '+' then ' ' else c)).toUTF8.toList
  String.ofList (Utf8.lossy (percentDecode bytes))

def pairs (cs : List Char) : List (String × String) :=
  ((split '&' cs).filter (!·.isEmpty)).map fun part =>
    match splitAt? ['='] part with
    | some (key, value) => (decode key, decode value)
    | none => (decode part, "")

def isPlain (b : UInt8) : Bool :=
  let c := Char.ofNat b.toNat
  c.isAlphanum || c = '*' || c = '-' || c = '.' || c = '_'

def encodeByte (b : UInt8) : List Char :=
  if isPlain b then [Char.ofNat b.toNat]
  else if b = 0x20 then ['+']
  else '%' :: (Hex.ofByte b).map Char.toUpper

def encode (s : String) : List Char := s.toUTF8.toList.flatMap encodeByte

def ofPair (pair : String × String) : List Char := encode pair.1 ++ '=' :: encode pair.2

def ofPairs (pairs : List (String × String)) : String :=
  String.ofList (['&'].intercalate (pairs.map ofPair))

end DataAccess.Form
