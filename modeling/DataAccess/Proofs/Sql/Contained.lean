import DataAccess.Proofs.Sql.Tokens

/-!
Pieces whose text comes apart as it was put together: a name stays within its quotes, parentheses
are balanced, and each placeholder has a parameter. One walk over the pieces tells this, whatever
is in the names.
-/
namespace DataAccess.Sql

/-- Tokens that names and parameters depend on. -/
def Token.isMark : Token → Bool
  | .name _ | .opening | .closing | .placeholder => true
  | _ => false

/-- How deep in parentheses a token leads; nowhere where it closes what is not open. -/
def Token.deeper (n : Nat) : Token → Option Nat
  | .opening => some (n + 1)
  | .closing => if n = 0 then none else some (n - 1)
  | _ => some n

def nested (n : Nat) (ts : List Token) : Option Nat := ts.foldlM Token.deeper n

def marks (ts : List Token) : List Token := ts.filter (·.isMark)

theorem nested_append (n : Nat) (ts us : List Token) :
    nested n (ts ++ us) = (nested n ts).bind fun k => nested k us :=
  List.foldlM_append

theorem marks_append (ts us : List Token) : marks (ts ++ us) = marks ts ++ marks us :=
  List.filter_append ts us

theorem nested_marks (n : Nat) (ts : List Token) : nested n (marks ts) = nested n ts := by
  induction ts generalizing n with
  | nil => rfl
  | cons t rest ih =>
    have step (ts : List Token) : nested n (t :: ts) = (t.deeper n).bind fun k => nested k ts := rfl
    by_cases h : t.isMark
    · rw [marks, List.filter_cons_of_pos h, step, step]
      exact congrArg _ (funext ih)
    · have same : t.deeper n = some n := by cases t <;> first | rfl | exact absurd rfl h
      rw [marks, List.filter_cons_of_neg h, step, same]
      exact ih n

/-- A text whose names are all known, with nothing left open, and a placeholder for each
parameter. -/
structure Contained (names : List String) (text : String) (params : List Value) : Prop where
  ended : ∀ before, (scan .between text.toList).2 ≠ .quoted before
  named : ∀ name, .name name ∈ tokens text.toList → name ∈ names
  balanced : nested 0 (tokens text.toList) = some 0
  aligned : (tokens text.toList).count .placeholder = params.length

/-- How deep in parentheses, and whether a name may follow at once. -/
structure Seam where
  free : Bool
  depth : Nat
deriving DecidableEq

/-- The marks of a character that is neither a quote nor a placeholder. -/
def parentheses (c : Char) : List Token :=
  if c = '(' then [.opening] else if c = ')' then [.closing] else []

/-- Text has neither quotes nor placeholders of its own. -/
def Seam.char (s : Seam) (c : Char) : Option Seam :=
  if c = '"' ∨ c = '?' then none else (nested s.depth (parentheses c)).map (⟨true, ·⟩)

def Seam.text (s : Seam) (cs : List Char) : Option Seam := cs.foldlM char s

/-- Two names one after the other would be read as one, and what is only bound has no
placeholder. -/
def Piece.seam (names : List String) (s : Seam) : Piece → Option Seam
  | .text t => s.text t.toList
  | .name t => if s.free ∧ t ∈ names then some ⟨false, s.depth⟩ else none
  | .columnAlias t => if t ∈ names then some ⟨false, s.depth⟩ else none
  | .kind _ => some s
  | .parameter _ => some ⟨true, s.depth⟩
  | .bound _ => none

def Pieces.seam (names : List String) (s : Seam) (ps : Pieces) : Option Seam :=
  ps.foldlM (Piece.seam names) s

theorem Pieces.seam_append (names : List String) (s : Seam) (ps qs : Pieces) :
    Pieces.seam names s (ps ++ qs) = (ps.seam names s).bind fun s' => qs.seam names s' :=
  List.foldlM_append

/-- No name is under way, and none has just ended. -/
def Mode.Fresh (m : Mode) : Prop := ∀ before, m ≠ .quoted before ∧ m ≠ .closed before

def Mode.Unquoted (m : Mode) : Prop := ∀ before, m ≠ .quoted before

theorem Mode.Fresh.unquoted {m : Mode} (h : m.Fresh) : m.Unquoted := fun before => (h before).1

theorem marks_ofWord (w : List Char) : marks [.ofWord w] = [] := by
  have known : ∀ p ∈ reserved, p.2.isMark = false := by decide
  have : (Token.ofWord w).isMark = false := by
    unfold Token.ofWord
    cases found : reserved.lookup w with
    | none => rfl
    | some t =>
      obtain ⟨before, after, parts, -⟩ := List.lookup_eq_some_iff.mp found
      exact known (w, t) (parts ▸ by simp)
  simp [marks, this]

/-- What a character begins that is no quote. -/
structure Begins (c : Char) (next : List Token × Mode) : Prop where
  pending : c ≠ '"' → marks next.2.pending = []
  fresh : c ≠ '"' → next.2.Fresh
  marks : c ≠ '?' → marks next.1 = parentheses c

theorem begins_begun (c : Char) : Begins c (begun c) := by
  have between {ts : List Token} (h : c ≠ '?' → marks ts = parentheses c) :
      Begins c (ts, .between) := ⟨fun _ => rfl, fun _ before => by simp, h⟩
  unfold begun
  refine iteInduction (fun h => between fun _ => ?_) fun _ => ?_
  · obtain rfl | rfl := h <;> rfl
  refine iteInduction (fun h => between fun _ => h ▸ rfl) fun opening => ?_
  refine iteInduction (fun h => between fun _ => h ▸ rfl) fun closing => ?_
  have plain : parentheses c = [] := by simp [parentheses, opening, closing]
  refine iteInduction (fun _ => between fun _ => plain.symm) fun _ => ?_
  refine iteInduction (fun _ => between fun _ => plain.symm) fun _ => ?_
  refine iteInduction (fun _ => between fun _ => plain.symm) fun _ => ?_
  refine iteInduction (fun _ => between fun _ => plain.symm) fun _ => ?_
  refine iteInduction (fun h => between fun ne => absurd h ne) fun _ => ?_
  refine iteInduction (fun _ => between fun _ => plain.symm) fun _ => ?_
  refine iteInduction (fun _ => ⟨fun _ => rfl, fun _ _ => by simp, fun _ => plain.symm⟩)
    fun _ => ?_
  refine iteInduction (fun _ => ⟨fun _ => rfl, fun _ _ => by simp, fun _ => plain.symm⟩)
    fun _ => ?_
  refine iteInduction (fun h => ⟨fun ne => absurd h ne, fun ne => absurd h ne,
    fun _ => plain.symm⟩) fun _ => ?_
  refine iteInduction (fun _ => ⟨fun _ => marks_ofWord _, fun _ _ => by simp,
    fun _ => plain.symm⟩) fun _ => ?_
  exact between fun _ => plain.symm

theorem parentheses_of_isWordChar {c : Char} (h : isWordChar c = true) : parentheses c = [] := by
  have opening : c ≠ '(' := by
    rintro rfl
    revert h
    decide
  have closing : c ≠ ')' := by
    rintro rfl
    revert h
    decide
  simp [parentheses, opening, closing]

theorem bare_parentheses (c : Char) :
    (∀ name, .name name ∉ parentheses c) ∧ (parentheses c).count .placeholder = 0 := by
  unfold parentheses
  split
  · exact ⟨by simp, rfl⟩
  · split <;> exact ⟨by simp, rfl⟩

/-- A token that goes on keeps its marks, and the character adds those it stands for. -/
theorem Mode.continued?_plain {m : Mode} (unquoted : m.Unquoted) {c : Char} (quote : c ≠ '"')
    {next : List Token × Mode} (h : m.continued? c = some next) :
    marks (next.1 ++ next.2.pending) = marks m.pending ++ parentheses c ∧ next.2.Fresh := by
  cases m with
  | between => cases h
  | quoted before => exact absurd rfl (unquoted before)
  | closed before => simp [Mode.continued?, quote] at h
  | word before =>
    obtain ⟨word, h⟩ := Option.ite_none_right_eq_some.mp h
    obtain rfl := Option.some.inj h
    refine ⟨?_, fun before => by simp⟩
    rw [parentheses_of_isWordChar word]
    simp [Mode.pending, marks_ofWord]
  | less =>
    simp only [Mode.continued?] at h
    by_cases eq : c = '='
    · obtain rfl := eq
      obtain rfl := Option.some.inj h
      exact ⟨rfl, fun before => by simp⟩
    · rw [if_neg eq] at h
      obtain ⟨rfl, h⟩ := Option.ite_none_right_eq_some.mp h
      obtain rfl := Option.some.inj h
      exact ⟨rfl, fun before => by simp⟩
  | greater =>
    obtain ⟨rfl, h⟩ := Option.ite_none_right_eq_some.mp h
    obtain rfl := Option.some.inj h
    exact ⟨rfl, fun before => by simp⟩

/-- A character of text adds the marks it stands for. -/
theorem step_plain {m : Mode} (unquoted : m.Unquoted) {c : Char} (quote : c ≠ '"')
    (placeholder : c ≠ '?') :
    marks ((m.step c).1 ++ (m.step c).2.pending) = marks m.pending ++ parentheses c ∧
      (m.step c).2.Fresh := by
  cases h : m.continued? c with
  | none =>
    have begins := begins_begun c
    have step : m.step c = (m.pending ++ (begun c).1, (begun c).2) := by
      rw [Mode.step, h]
      rfl
    rw [step, marks_append, marks_append, begins.pending quote, begins.marks placeholder,
      List.append_nil]
    exact ⟨rfl, begins.fresh quote⟩
  | some next =>
    have step : m.step c = next := by
      rw [Mode.step, h]
      rfl
    rw [step]
    exact Mode.continued?_plain unquoted quote h

/-- Names that are known, parentheses that lead from depth to depth, and so many placeholders. -/
structure Carries (names : List String) (n : Nat) (ts : List Token) (k passed : Nat) : Prop where
  depth : nested n ts = some k
  known : ∀ name, .name name ∈ ts → name ∈ names
  passed : ts.count .placeholder = passed

/-- A text that is read on from a token under way leads from one seam to the next. -/
structure Follows (names : List String) (s : Seam) (m : Mode) (text : List Char) (passed : Nat)
    (s' : Seam) : Prop where
  unquoted : (scan m text).2.Unquoted
  fresh : s'.free = true → (scan m text).2.Fresh
  carries : ∃ ts, marks (tokensFrom m text) = marks m.pending ++ ts ∧
    Carries names s.depth ts s'.depth passed

variable {names : List String} {s s' s'' : Seam} {m : Mode} {a b : List Char} {p q : Nat}

theorem Carries.append {n k l : Nat} {ts us : List Token} (h : Carries names n ts k p)
    (h' : Carries names k us l q) : Carries names n (ts ++ us) l (p + q) where
  depth := by rw [nested_append, h.depth, Option.bind_some, h'.depth]
  known name mem := (List.mem_append.mp mem).elim (h.known name) (h'.known name)
  passed := by rw [List.count_append, h.passed, h'.passed]

theorem Follows.nil (unquoted : m.Unquoted) (fresh : s.free = true → m.Fresh) :
    Follows names s m [] 0 s :=
  ⟨unquoted, fresh, [], (List.append_nil _).symm, rfl, by simp, rfl⟩

theorem Follows.append (h : Follows names s m a p s')
    (h' : Follows names s' (scan m a).2 b q s'') : Follows names s m (a ++ b) (p + q) s'' := by
  obtain ⟨ts, ht, carries⟩ := h.carries
  obtain ⟨us, hu, carries'⟩ := h'.carries
  have last : (scan m (a ++ b)).2 = (scan (scan m a).2 b).2 := by rw [scan_append]
  refine ⟨last ▸ h'.unquoted, fun free => last ▸ h'.fresh free, ts ++ us, ?_,
    carries.append carries'⟩
  rw [tokensFrom_append, marks_append, hu, ← List.append_assoc, ← List.append_assoc, ← ht,
    tokensFrom, marks_append]

theorem follows_char (unquoted : m.Unquoted) {c : Char} (h : s.char c = some s') :
    Follows names s m [c] 0 s' := by
  obtain ⟨plain, h⟩ := Option.ite_none_left_eq_some.mp h
  obtain ⟨k, depth, rfl⟩ := Option.map_eq_some_iff.mp h
  rw [not_or] at plain
  obtain ⟨read, fresh⟩ := step_plain unquoted plain.1 plain.2
  obtain ⟨unnamed, none⟩ := bare_parentheses c
  refine ⟨fresh.unquoted, fun _ => fresh, parentheses c, ?_, depth, ?_, none⟩
  · simpa [tokensFrom, scan] using read
  · exact fun name mem => absurd mem (unnamed name)

theorem follows_text (unquoted : m.Unquoted) (fresh : s.free = true → m.Fresh)
    {cs : List Char} (h : s.text cs = some s') : Follows names s m cs 0 s' := by
  induction cs generalizing s m with
  | nil =>
    obtain rfl := Option.some.inj h
    exact .nil unquoted fresh
  | cons c rest ih =>
    obtain ⟨mid, first, others⟩ := Option.bind_eq_some_iff.mp h
    have head : Follows names s m [c] 0 mid := follows_char unquoted first
    exact head.append (ih head.unquoted head.fresh others)

theorem Mode.continued?_mark (unquoted : m.Unquoted) {c : Char} (h : c = '"' ∨ c = '?')
    (fresh : c = '"' → m.Fresh) : m.continued? c = none := by
  have plain : isWordChar c = false ∧ c ≠ '=' ∧ c ≠ '>' := by
    rcases h with rfl | rfl <;> decide
  obtain ⟨word, eq, greater⟩ := plain
  cases m with
  | quoted before => exact absurd rfl (unquoted before)
  | closed before =>
    have : c ≠ '"' := fun quote => (fresh quote before).2 rfl
    simp [Mode.continued?, this]
  | _ => simp [Mode.continued?, word, eq, greater]

/-- Where a character does not belong to the token under way, this one ends. -/
theorem scan_cons {c : Char} (ends : m.continued? c = none) (rest : List Char) :
    scan m (c :: rest) =
      (m.pending ++ (scan .between (c :: rest)).1, (scan .between (c :: rest)).2) := by
  have step : m.step c = (m.pending ++ (begun c).1, (begun c).2) := by
    rw [Mode.step, ends]
    rfl
  have begins : Mode.between.step c = begun c := rfl
  rw [scan, scan, step, begins, List.append_assoc]

theorem follows_name (fresh : m.Fresh) {name : String} (known : name ∈ names) (n : Nat) :
    Follows names ⟨true, n⟩ m (quoted name).toList 0 ⟨false, n⟩ := by
  obtain ⟨rest, lead⟩ : ∃ rest, (quoted name).toList = '"' :: rest := ⟨_, by simp [quoted]; rfl⟩
  have scanned : scan m (quoted name).toList = (m.pending, .closed name.toList) := by
    have ends := Mode.continued?_mark fresh.unquoted (.inl rfl) fun _ => fresh
    rw [lead, scan_cons ends, ← lead, scan_quoted, List.append_nil]
  refine ⟨?_, by simp, [.name name], ?_, rfl, ?_, rfl⟩
  · rw [scanned]
    exact fun before => by simp
  · rw [tokensFrom, scanned, marks_append]
    simp [Mode.pending, marks, Token.isMark]
  · simpa using known

theorem follows_placeholder (unquoted : m.Unquoted) (s : Seam) :
    Follows names s m ['?'] 1 ⟨true, s.depth⟩ := by
  have scanned : scan m ['?'] = (m.pending ++ [.placeholder], .between) :=
    scan_cons (Mode.continued?_mark unquoted (.inr rfl) (by simp)) []
  refine ⟨?_, fun _ => ?_, [.placeholder], ?_, rfl, by simp, rfl⟩
  · rw [scanned]
    exact fun before => by simp
  · rw [scanned]
    exact fun before => by simp
  · rw [tokensFrom, scanned]
    simp [Mode.pending, marks, Token.isMark]

def isInert (c : Char) : Bool := c != '"' && c != '?' && c != '(' && c != ')'

/-- Text that neither quotes, parenthesizes nor takes a parameter. -/
def Inert (text : String) : Prop := text.toList.all isInert = true

theorem Seam.char_of_inert {c : Char} (inert : isInert c = true) (s : Seam) :
    s.char c = some ⟨true, s.depth⟩ := by
  simp only [isInert, Bool.and_eq_true, bne_iff_ne, ne_eq, and_assoc] at inert
  obtain ⟨quote, placeholder, opening, closing⟩ := inert
  simp [char, parentheses, nested, quote, placeholder, opening, closing]

/-- Inert text leaves no more than a place where a name may follow. -/
theorem Seam.text_of_inert {cs : List Char} (inert : cs.all isInert = true) (s : Seam) :
    s.text cs = some ⟨s.free || !cs.isEmpty, s.depth⟩ := by
  induction cs generalizing s with
  | nil => simp [text]
  | cons c rest ih =>
    rw [List.all_cons, Bool.and_eq_true] at inert
    rw [text, List.foldlM_cons, char_of_inert inert.1]
    exact (ih inert.2 _).trans (by simp)

/-- What a dialect writes of its own is inert. -/
structure Dialect.Plain (d : Dialect) : Prop extends d.Common where
  kind : ∀ k, Inert (d.kind k)
  window : ∀ w, Inert (d.window w)

variable {d : Dialect}

theorem Follows.loosen (h : Follows names s m a p s') {free : Bool}
    (less : free = true → s'.free = true) : Follows names s m a p ⟨free, s'.depth⟩ :=
  ⟨h.unquoted, fun hf => h.fresh (less hf), h.carries⟩

theorem follows_piece (plain : d.Plain) (unquoted : m.Unquoted) (fresh : s.free = true → m.Fresh)
    {piece : Piece} (h : piece.seam names s = some s') (n : Nat) :
    Follows names s m (d.writeFrom n [piece]) (Pieces.params [piece]).length s' := by
  cases piece with
  | text t =>
    have text : d.writeFrom n [.text t] = t.toList := List.append_nil _
    exact text ▸ follows_text unquoted fresh h
  | name t =>
    obtain ⟨⟨free, known⟩, h⟩ := Option.ite_none_right_eq_some.mp h
    obtain rfl := Option.some.inj h
    obtain ⟨_, depth⟩ := s
    obtain rfl := free
    have text : d.writeFrom n [.name t] = (quoted t).toList := by
      rw [Dialect.writeFrom, plain.name]
      exact List.append_nil _
    exact text ▸ follows_name (fresh rfl) known depth
  | columnAlias t =>
    obtain ⟨known, h⟩ := Option.ite_none_right_eq_some.mp h
    obtain rfl := Option.some.inj h
    have lead : Follows names s m " AS ".toList 0 ⟨true, s.depth⟩ :=
      follows_text unquoted fresh rfl
    have text : d.writeFrom n [.columnAlias t] = " AS ".toList ++ (quoted t).toList := by
      rw [Dialect.writeFrom, plain.columnAlias, String.toList_append]
      exact List.append_nil _
    exact text ▸ lead.append (follows_name (lead.fresh rfl) known s.depth)
  | kind k =>
    obtain rfl := Option.some.inj h
    have text : d.writeFrom n [.kind k] = (d.kind k).toList := List.append_nil _
    have follows : Follows names s m (d.kind k).toList 0 _ :=
      follows_text unquoted fresh (Seam.text_of_inert (plain.kind k) s)
    exact text ▸ follows.loosen (by simp +contextual)
  | parameter v =>
    obtain rfl := Option.some.inj h
    have text : d.writeFrom n [.parameter v] = ['?'] := by
      rw [Dialect.writeFrom, plain.placeholder]
      rfl
    exact text ▸ follows_placeholder unquoted s
  | bound v => cases h

theorem follows_pieces (plain : d.Plain) (unquoted : m.Unquoted) (fresh : s.free = true → m.Fresh)
    {ps : Pieces} (h : ps.seam names s = some s') (n : Nat) :
    Follows names s m (d.writeFrom n ps) ps.params.length s' := by
  induction ps generalizing s m n with
  | nil =>
    obtain rfl := Option.some.inj h
    exact .nil unquoted fresh
  | cons piece rest ih =>
    obtain ⟨mid, first, others⟩ := Option.bind_eq_some_iff.mp h
    have head := follows_piece plain unquoted fresh first n
    rw [← List.singleton_append, d.writeFrom_append, Pieces.params_append, List.length_append]
    exact head.append (ih head.unquoted head.fresh others _)

/-- Pieces that can be walked over without leaving parentheses open are contained. -/
theorem contained_write (plain : d.Plain) {ps : Pieces} {free : Bool}
    (h : ps.seam names ⟨true, 0⟩ = some ⟨free, 0⟩) : Contained names (d.write ps) ps.params := by
  have between : Mode.between.Fresh := fun before => by simp
  have follows := follows_pieces plain between.unquoted (fun _ => between) h 0
  obtain ⟨ts, read, carries⟩ := follows.carries
  have text : (d.write ps).toList = d.writeFrom 0 ps := by simp [Dialect.write]
  have read : marks (tokens (d.writeFrom 0 ps)) = ts := read
  rw [← read] at carries
  constructor
  · exact text ▸ follows.unquoted
  · intro name mem
    rw [text] at mem
    exact carries.known name (List.mem_filter.mpr ⟨mem, rfl⟩)
  · rw [text, ← nested_marks]
    exact carries.depth
  · rw [text, ← carries.passed]
    exact (List.count_filter rfl).symm

theorem inert_append {a b : String} : Inert (a ++ b) ↔ Inert a ∧ Inert b := by
  simp only [Inert, String.toList_append, List.all_append, Bool.and_eq_true]

theorem isInert_of_isDigit {c : Char} (digit : c.isDigit = true) : isInert c = true := by
  simp only [isInert, Bool.and_eq_true, bne_iff_ne]
  refine ⟨⟨⟨?_, ?_⟩, ?_⟩, ?_⟩ <;>
  · rintro rfl
    cases digit

theorem inert_toString (n : Nat) : Inert (toString n) := by
  refine List.all_eq_true.mpr fun c hc => isInert_of_isDigit ?_
  rw [Nat.toString_eq_ofList_toDigits, String.toList_ofList] at hc
  exact Nat.isDigit_of_mem_toDigits (by decide) (by decide) hc

theorem inert_limitThenOffset (w : Window) : Inert (limitThenOffset w) := by
  have offset (lead : String) (inert : Inert lead) (n : Nat) :
      Inert (lead ++ "OFFSET " ++ toString n) :=
    inert_append.mpr ⟨inert_append.mpr ⟨inert, rfl⟩, inert_toString n⟩
  have limit (n : Nat) : Inert ("\nLIMIT " ++ toString n) :=
    inert_append.mpr ⟨rfl, inert_toString n⟩
  obtain ⟨_ | start, _ | n⟩ := w
  · rfl
  · exact inert_append.mpr ⟨limit n, rfl⟩
  · exact offset "\n" rfl start
  · exact inert_append.mpr ⟨limit n, offset " " rfl start⟩

theorem inert_limitBeforeOffset (w : Window) : Inert (limitBeforeOffset w) := by
  have limit : Inert (w.limit.elim "-1" toString) := by
    cases w.limit with
    | none => rfl
    | some n => exact inert_toString n
  have offset : Inert (w.start.elim "" fun n => " OFFSET " ++ toString n) := by
    cases w.start with
    | none => rfl
    | some n => exact inert_append.mpr ⟨rfl, inert_toString n⟩
  unfold limitBeforeOffset
  split
  · exact inert_append.mpr ⟨inert_append.mpr ⟨rfl, limit⟩, offset⟩
  · rfl

theorem Dialect.plain_generic : generic.Plain where
  toCommon := common_generic
  kind
    | none => rfl
    | some k => by cases k <;> rfl
  window := inert_limitThenOffset

theorem Dialect.plain_sqlite : sqlite.Plain where
  toCommon := common_sqlite
  kind
    | none => rfl
    | some k => by cases k <;> rfl
  window := inert_limitBeforeOffset

end DataAccess.Sql
