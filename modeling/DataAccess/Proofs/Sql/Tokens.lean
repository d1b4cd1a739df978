import DataAccess.Criteria.Connective
import DataAccess.Join.Expression
import DataAccess.Sql.Dialect

/-!
SQL text as tokens. A name stands in quotes, a quote within it being doubled; other tokens last as
long as they can. What pieces write comes apart into the tokens of each.
-/
namespace DataAccess.Sql

inductive Keyword where
  | select | from | where | as | on
  | join | inner | left | right | full | outer
  | is | not | null | like | in | lower
deriving DecidableEq

/-- `other` stands for what has no place in a filter or join, an unfinished name included. -/
inductive Token where
  | keyword (k : Keyword)
  | connective (c : Connective)
  | comparison (relation : Relation) (positive : Bool)
  | word (text : String)
  | name (text : String)
  | opening | closing | comma | dot | star | ampersand
  | placeholder
  | other (c : Char)
deriving DecidableEq

def reserved : List (List Char × Token) := [
  ("AND".toList, .connective .and), ("OR".toList, .connective .or),
  ("SELECT".toList, .keyword .select), ("FROM".toList, .keyword .from),
  ("WHERE".toList, .keyword .where), ("AS".toList, .keyword .as), ("ON".toList, .keyword .on),
  ("JOIN".toList, .keyword .join), ("INNER".toList, .keyword .inner),
  ("LEFT".toList, .keyword .left), ("RIGHT".toList, .keyword .right),
  ("FULL".toList, .keyword .full), ("OUTER".toList, .keyword .outer),
  ("IS".toList, .keyword .is), ("NOT".toList, .keyword .not), ("NULL".toList, .keyword .null),
  ("LIKE".toList, .keyword .like), ("IN".toList, .keyword .in), ("LOWER".toList, .keyword .lower)]

def Token.ofWord (w : List Char) : Token := (reserved.lookup w).getD (.word (String.ofList w))

def isWordChar (c : Char) : Bool := c.isAlphanum || c == '_'

/-- The token under way. After a quote within a name it is not known yet whether the name ends. -/
inductive Mode where
  | between
  | word (before : List Char)
  | less
  | greater
  | quoted (before : List Char)
  | closed (before : List Char)

/-- A character that begins a token or stands alone. -/
def begun (c : Char) : List Token × Mode :=
  if c = ' ' ∨ c = '\n' then ([], .between)
  else if c = '(' then ([.opening], .between)
  else if c = ')' then ([.closing], .between)
  else if c = ',' then ([.comma], .between)
  else if c = '.' then ([.dot], .between)
  else if c = '*' then ([.star], .between)
  else if c = '&' then ([.ampersand], .between)
  else if c = '?' then ([.placeholder], .between)
  else if c = '=' then ([.comparison .equal true], .between)
  else if c = '<' then ([], .less)
  else if c = '>' then ([], .greater)
  else if c = '"' then ([], .quoted [])
  else if isWordChar c then ([], .word [c])
  else ([.other c], .between)

namespace Mode

/-- The token under way as it is when the text ends. -/
def pending : Mode → List Token
  | .between => []
  | .word before => [.ofWord before]
  | .less => [.comparison .lesser true]
  | .greater => [.comparison .greater true]
  | .quoted _ => [.other '"']
  | .closed before => [.name (String.ofList before)]

/-- The token under way with one character more, if it can have it. -/
def continued? : Mode → Char → Option (List Token × Mode)
  | .between, _ => none
  | .word before, c => if isWordChar c then some ([], .word (before ++ [c])) else none
  | .less, c =>
    if c = '=' then some ([.comparison .greater false], .between)
    else if c = '>' then some ([.comparison .equal false], .between)
    else none
  | .greater, c => if c = '=' then some ([.comparison .lesser false], .between) else none
  | .quoted before, c => some ([], if c = '"' then .closed before else .quoted (before ++ [c]))
  | .closed before, c => if c = '"' then some ([], .quoted (before ++ [c])) else none

def step (m : Mode) (c : Char) : List Token × Mode :=
  (m.continued? c).getD (m.pending ++ (begun c).1, (begun c).2)

end Mode

/-- The tokens that end within a text, and the one under way behind it. -/
def scan (m : Mode) : List Char → List Token × Mode
  | [] => ([], m)
  | c :: rest => ((m.step c).1 ++ (scan (m.step c).2 rest).1, (scan (m.step c).2 rest).2)

def tokensFrom (m : Mode) (text : List Char) : List Token :=
  (scan m text).1 ++ (scan m text).2.pending

def tokens (text : List Char) : List Token := tokensFrom .between text

theorem scan_append (m : Mode) (a b : List Char) :
    scan m (a ++ b) = ((scan m a).1 ++ (scan (scan m a).2 b).1, (scan (scan m a).2 b).2) := by
  induction a generalizing m with
  | nil => rfl
  | cons c rest ih => simp [scan, ih]

theorem tokensFrom_append (m : Mode) (a b : List Char) :
    tokensFrom m (a ++ b) = (scan m a).1 ++ tokensFrom (scan m a).2 b := by
  simp [tokensFrom, scan_append]

/-- Characters that end any token but an open name. -/
def separators : List Char := [' ', '\n', '(', ')', ',', '.']

/-- The text ends, or goes on with a separator. -/
def Apart (text : List Char) : Prop := ∀ c ∈ text.head?, c ∈ separators

theorem continued?_of_separator {m : Mode} {c : Char} (h : c ∈ separators)
    (unquoted : ∀ before, m ≠ .quoted before) : m.continued? c = none := by
  have plain : isWordChar c = false ∧ c ≠ '=' ∧ c ≠ '>' ∧ c ≠ '"' := by
    simp only [separators, List.mem_cons, List.not_mem_nil, or_false] at h
    rcases h with rfl | rfl | rfl | rfl | rfl | rfl <;> decide
  obtain ⟨hw, he, hg, hq⟩ := plain
  cases m with
  | quoted before => exact absurd rfl (unquoted before)
  | _ => simp [Mode.continued?, hw, he, hg, hq]

theorem tokensFrom_of_apart {m : Mode} {text : List Char} (h : Apart text)
    (unquoted : ∀ before, m ≠ .quoted before) : tokensFrom m text = m.pending ++ tokens text := by
  cases text with
  | nil => simp [tokens, tokensFrom, scan, Mode.pending]
  | cons c rest =>
    have hm : m.step c = (m.pending ++ (begun c).1, (begun c).2) := by
      rw [Mode.step, continued?_of_separator (h c rfl) unquoted]
      rfl
    have hb : Mode.between.step c = begun c := rfl
    simp [tokens, tokensFrom, scan, hm, hb]

theorem scan_name (before : List Char) (text : List Char) :
    scan (.quoted before) (text.flatMap fun c => if c = '"' then ['"', '"'] else [c]) =
      ([], .quoted (before ++ text)) := by
  induction text generalizing before with
  | nil => simp [scan]
  | cons c rest ih =>
    rw [List.flatMap_cons, scan_append]
    by_cases hc : c = '"'
    · simp [hc, scan, Mode.step, Mode.continued?, ih]
    · simp [hc, scan, Mode.step, Mode.continued?, ih]

/-- A name in quotes is read back, whatever characters it has. -/
theorem scan_quoted (name : String) :
    scan .between (quoted name).toList = ([], .closed name.toList) := by
  have parts : (quoted name).toList =
      '"' :: (name.toList.flatMap fun c => if c = '"' then ['"', '"'] else [c]) ++ ['"'] := by
    simp [quoted, escaped]
  have opened : Mode.between.step '"' = ([], .quoted []) := rfl
  rw [parts, scan_append, scan, opened, scan_name]
  simp [scan, Mode.step, Mode.continued?]

/-- What the dialects have in common. -/
structure Dialect.Common (d : Dialect) : Prop where
  declaresAlias : d.declaresAlias .join = true
  name : d.name = quoted
  columnAlias : d.columnAlias = fun name => " AS " ++ quoted name
  placeholder : ∀ n, d.placeholder n = "?"
  fullJoin : d.fullJoin = "FULL OUTER JOIN"

theorem Dialect.common_generic : generic.Common := ⟨by decide, rfl, rfl, fun _ => rfl, rfl⟩

theorem Dialect.common_sqlite : sqlite.Common := ⟨by decide, rfl, rfl, fun _ => rfl, rfl⟩

namespace Piece

def tokens : Piece → List Token
  | .text s => Sql.tokens s.toList
  | .name s => [.name s]
  | .columnAlias s => [.keyword .as, .name s]
  | .parameter _ => [.placeholder]
  | .kind _ | .bound _ => []

/-- Whether the piece ends its last token itself, given whether the piece before does; nothing
where the pieces run together. -/
def spaced (apart : Bool) : Piece → Option Bool
  | .text s =>
    if apart || s.toList.head?.any (· ∈ separators) then
      match (scan .between s.toList).2 with
      | .between => some true
      | .quoted _ => none
      | _ => some false
    else none
  | .name _ => if apart then some false else none
  | .columnAlias _ => some false
  | .parameter _ => if apart then some true else none
  | .kind _ | .bound _ => none

end Piece

namespace Pieces

def tokens (ps : Pieces) : List Token := ps.flatMap Piece.tokens

/-- Whether the pieces' tokens come apart, and the last one ends with them. -/
def spaced (apart : Bool) (ps : Pieces) : Option Bool := ps.foldlM Piece.spaced apart

@[simp] theorem tokens_append (ps qs : Pieces) : tokens (ps ++ qs) = tokens ps ++ tokens qs :=
  List.flatMap_append

theorem spaced_append (apart : Bool) (ps qs : Pieces) :
    spaced apart (ps ++ qs) = (spaced apart ps).bind fun after => spaced after qs :=
  List.foldlM_append

end Pieces

theorem tokens_append {a b : List Char} (unquoted : ∀ before, (scan .between a).2 ≠ .quoted before)
    (h : (scan .between a).2 = .between ∨ Apart b) : tokens (a ++ b) = tokens a ++ tokens b := by
  have pending : tokensFrom (scan .between a).2 b = (scan .between a).2.pending ++ tokens b := by
    rcases h with h | h
    · rw [h]
      rfl
    · exact tokensFrom_of_apart h unquoted
  rw [tokens, tokensFrom_append, pending, ← List.append_assoc]
  rfl

theorem tokens_quoted (name : String) {rest : List Char} (h : Apart rest) :
    tokens ((quoted name).toList ++ rest) = .name name :: tokens rest := by
  rw [tokens_append (by simp [scan_quoted]) (.inr h)]
  simp [tokens, tokensFrom, scan_quoted, Mode.pending]

theorem apart_append {a b : List Char} (h : a.head?.any (· ∈ separators)) : Apart (a ++ b) := by
  cases a with
  | nil => simp at h
  | cons c rest => simpa [Apart] using h

theorem tokens_text {s : String} {apart after : Bool} (h : (Piece.text s).spaced apart = some after)
    {rest : List Char} (follows : after = true ∨ Apart rest) :
    tokens (s.toList ++ rest) = tokens s.toList ++ tokens rest ∧
      (apart = true ∨ Apart (s.toList ++ rest)) := by
  by_cases begins : apart || s.toList.head?.any (· ∈ separators)
  · refine ⟨?_, (Bool.or_eq_true ..).mp begins |>.imp_right apart_append⟩
    rw [Piece.spaced, if_pos begins] at h
    cases hm : (scan .between s.toList).2 with
    | between => exact tokens_append (by simp [hm]) (.inl hm)
    | quoted before => simp [hm] at h
    | _ =>
      obtain rfl : false = after := by simpa [hm] using h
      exact tokens_append (by simp [hm]) (.inr (follows.resolve_left (by simp)))
  · simp [Piece.spaced, begins] at h

variable {d : Dialect} {ps : Pieces} {apart after : Bool}

/-- What spaced pieces write is their tokens. -/
theorem tokens_writeFrom (common : d.Common) (n : Nat) (h : ps.spaced apart = some after)
    {rest : List Char} (follows : after = true ∨ Apart rest) :
    tokens (d.writeFrom n ps ++ rest) = ps.tokens ++ tokens rest ∧
      (apart = true ∨ Apart (d.writeFrom n ps ++ rest)) := by
  -- What a piece writes is told from the text of the others, which stands apart where it has to.
  induction ps generalizing apart n with
  | nil =>
    obtain rfl : apart = after := Option.some.inj h
    exact ⟨rfl, follows⟩
  | cons p ps ih =>
    obtain ⟨mid, hp, hps⟩ := Option.bind_eq_some_iff.mp h
    cases p with
    | text s =>
      obtain ⟨ht, hf⟩ := ih n hps
      obtain ⟨hs, ha⟩ := tokens_text hp hf
      simp only [Dialect.writeFrom, List.append_assoc]
      exact ⟨by rw [hs, ht]; simp [Pieces.tokens, Piece.tokens], ha⟩
    | name s =>
      obtain ⟨ht, hf⟩ := ih n hps
      obtain ⟨rfl, rfl⟩ : apart = true ∧ mid = false := by simpa [Piece.spaced, eq_comm] using hp
      have ends := hf.resolve_left (by simp)
      simp only [Dialect.writeFrom, List.append_assoc, common.name]
      exact ⟨by rw [tokens_quoted s ends, ht]; rfl, .inl trivial⟩
    | columnAlias s =>
      obtain ⟨ht, hf⟩ := ih n hps
      obtain rfl : false = mid := Option.some.inj hp
      have ends := hf.resolve_left (by simp)
      have lead (rest : List Char) :
          tokens (" AS ".toList ++ rest) = .keyword .as :: tokens rest := rfl
      simp only [Dialect.writeFrom, List.append_assoc, common.columnAlias, String.toList_append]
      exact ⟨by rw [lead, tokens_quoted s ends, ht]; rfl, .inr (by simp [Apart, separators])⟩
    | parameter v =>
      obtain ⟨ht, -⟩ := ih (n + 1) hps
      obtain ⟨rfl, rfl⟩ : apart = true ∧ mid = true := by simpa [Piece.spaced, eq_comm] using hp
      have lead (rest : List Char) :
          tokens ("?".toList ++ rest) = .placeholder :: tokens rest := rfl
      simp only [Dialect.writeFrom, List.append_assoc, common.placeholder]
      exact ⟨by rw [lead, ht]; rfl, .inl trivial⟩
    | kind k => cases hp
    | bound v => cases hp

end DataAccess.Sql
