/-! Text cut to a number of bytes, never inside a character. -/
namespace DataAccess.Text

/-- The longest part from the start that fits in `max` bytes. -/
def takeBytes (max : Nat) : List Char → List Char
  | [] => []
  | c :: rest => if c.utf8Size ≤ max then c :: takeBytes (max - c.utf8Size) rest else []

def truncate (max : Nat) (text : String) : String := String.ofList (takeBytes max text.toList)

/-- White space: the ASCII blanks, next line, and the separators. -/
def isBlank (c : Char) : Bool :=
  let n := c.toNat
  (9 ≤ n && n ≤ 13) || n == 0x20 || n == 0x85 || n == 0xa0 || n == 0x1680 ||
    (0x2000 ≤ n && n ≤ 0x200a) || n == 0x2028 || n == 0x2029 || n == 0x202f || n == 0x205f ||
    n == 0x3000

def trimEnd (text : String) : String :=
  String.ofList (text.toList.reverse.dropWhile isBlank).reverse

/-- The bytes of a text that are shown. -/
def shown : Nat := 497

def abridged (text : String) : String :=
  trimEnd (truncate shown text) ++ if shown < text.utf8ByteSize then "..." else ""

end DataAccess.Text
