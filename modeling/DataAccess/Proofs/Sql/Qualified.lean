import DataAccess.Proofs.Sql.Spelling
import DataAccess.Proofs.Sql.Written

/-!
Filters under a qualifier. It stands before each name and nowhere else, so whatever characters it
has, two filters with the same text under it have the same text without it.
-/
namespace DataAccess.Sql

/-- A character, or a name as a whole. -/
inductive Mark where
  | char (c : Char)
  | name (text : String)

namespace Mark

/-- The characters of a mark, names being qualified. -/
def written (q : String) : Mark → List Char
  | .char c => [c]
  | .name text => (if q = "" then [] else q.toList ++ ['.']) ++ (quoted text).toList

/-- No name follows another, and quotes and dots stand in names alone. `free` says whether a name
may stand first. -/
inductive Settled : Bool → List Mark → Prop
  | nil {free : Bool} : Settled free []
  | char {free : Bool} {c : Char} {ms : List Mark} (quote : c ≠ '"') (dot : c ≠ '.')
      (rest : Settled true ms) : Settled free (.char c :: ms)
  | name {text : String} {ms : List Mark} (rest : Settled false ms) :
    Settled true (.name text :: ms)

namespace Settled

variable {free : Bool} {ms : List Mark}

theorem freed (h : Settled free ms) : Settled true ms := by
  cases h with
  | nil => exact nil
  | char quote dot rest => exact char quote dot rest
  | name rest => exact name rest

theorem chars {cs : List Char} (plain : ∀ c ∈ cs, c ≠ '"' ∧ c ≠ '.') (h : Settled free ms) :
    Settled true (cs.map .char ++ ms) := by
  induction cs with
  | nil => exact h.freed
  | cons c rest ih =>
    obtain ⟨⟨quote, dot⟩, others⟩ := List.forall_mem_cons.mp plain
    exact char quote dot (ih others)

/-- Behind a name no quote follows that could belong to it. -/
theorem head_ne_quote (h : Settled false ms) (q : String) :
    (ms.flatMap (written q)).head? ≠ some '"' := by
  cases h with
  | nil => simp
  | char quote dot rest => simpa [written] using quote

end Settled

/-- What comes before the first dot. -/
def lead (text : List Char) : List Char := text.takeWhile (· != '.')

theorem lead_append_dot (a b : List Char) : lead (a ++ '.' :: b) = lead a := by
  induction a with
  | nil => simp [lead]
  | cons c rest ih =>
    by_cases dot : c = '.'
    · simp [lead, dot]
    · simpa [lead, dot] using ih

theorem lead_cons {c : Char} (dot : c ≠ '.') (text : List Char) :
    lead (c :: text) = c :: lead text := by
  simp [lead, dot]

/-- A quoted name is the first token, whatever follows it but a quote. -/
theorem head?_tokens_quoted (name : String) {rest : List Char} (h : rest.head? ≠ some '"') :
    (tokens ((quoted name).toList ++ rest)).head? = some (.name name) := by
  rw [tokens, tokensFrom_append, scan_quoted, List.nil_append]
  cases rest with
  | nil => simp [tokensFrom, scan, Mode.pending]
  | cons c rest =>
    have quote : c ≠ '"' := by simpa using h
    simp [tokensFrom, scan, Mode.step, Mode.continued?, Mode.pending, quote]

theorem quoted_cancel {name name' : String} {s t : List Char} (hs : s.head? ≠ some '"')
    (ht : t.head? ≠ some '"') (h : (quoted name).toList ++ s = (quoted name').toList ++ t) :
    name = name' ∧ s = t := by
  have first := head?_tokens_quoted name hs
  rw [h, head?_tokens_quoted name' ht] at first
  obtain rfl : name' = name := by simpa using first
  exact ⟨rfl, List.append_cancel_left h⟩

variable {q : String}

theorem written_name (qualifier : q ≠ "") (text : String) (rest : List Char) :
    written q (.name text) ++ rest = q.toList ++ '.' :: ((quoted text).toList ++ rest) := by
  simp [written, qualifier]

/-- The first dot stands behind a qualifier. -/
theorem lead_written (qualifier : q ≠ "") {free : Bool} {ms : List Mark} (h : Settled free ms)
    (dot : '.' ∈ ms.flatMap (written q)) :
    (lead q.toList).length ≤ (lead (ms.flatMap (written q))).length := by
  induction h with
  | nil => simp at dot
  | @char _ c ms quote plain rest ih =>
    have behind : '.' ∈ ms.flatMap (written q) := by
      simpa [written, plain.symm] using dot
    have further := lead_cons plain (ms.flatMap (written q))
    have := ih behind
    simp only [List.flatMap_cons, written, List.singleton_append, further, List.length_cons]
    omega
  | name rest ih =>
    simp [List.flatMap_cons, written_name qualifier, lead_append_dot]

/-- A character does not stand for the first of a qualifier: the first dot would be too late. -/
theorem char_ne_name (qualifier : q ≠ "") {free : Bool} {c : Char} {text : String}
    {ms ms' : List Mark} (h : Settled free (.char c :: ms)) :
    (Mark.char c :: ms).flatMap (written q) ≠ (Mark.name text :: ms').flatMap (written q) := by
  intro same
  cases h with
  | char quote plain rest =>
    rw [List.flatMap_cons, List.flatMap_cons, written_name qualifier] at same
    have whole : c :: ms.flatMap (written q) = _ := same
    have dot : '.' ∈ ms.flatMap (written q) := by
      have : '.' ∈ c :: ms.flatMap (written q) := by
        rw [whole]
        simp
      simpa [plain.symm] using this
    have late := lead_written qualifier rest dot
    have early := congrArg (fun text => (lead text).length) whole
    simp only [lead_cons plain, lead_append_dot, List.length_cons] at early
    omega

/-- Settled marks are told from their text. -/
theorem written_injective (qualifier : q ≠ "") {free free' : Bool} {ms ms' : List Mark}
    (h : Settled free ms) (h' : Settled free' ms')
    (same : ms.flatMap (written q) = ms'.flatMap (written q)) : ms = ms' := by
  -- The marks agree one by one, since no character is written like the beginning of a name.
  induction h generalizing free' ms' with
  | nil =>
    cases h' with
    | nil => rfl
    | char quote dot rest => simp [written] at same
    | name rest => simp [written, quoted] at same
  | @char free c ms quote dot rest ih =>
    cases h' with
    | nil => simp [written] at same
    | char quote' dot' rest' =>
      obtain ⟨rfl, behind⟩ := List.cons.inj same
      rw [ih rest' behind]
    | name rest' =>
      have first : Settled true (.char c :: ms) := .char quote dot rest
      exact absurd same (char_ne_name qualifier first)
  | @name text ms rest ih =>
    cases h' with
    | nil => simp [written, quoted] at same
    | @char _ c ms' quote' dot' rest' =>
      have first : Settled true (.char c :: ms') := .char quote' dot' rest'
      exact absurd same.symm (char_ne_name qualifier first)
    | name rest' =>
      rw [List.flatMap_cons, List.flatMap_cons, written_name qualifier, written_name qualifier]
        at same
      have names := (List.cons.inj (List.append_cancel_left same)).2
      obtain ⟨rfl, behind⟩ :=
        quoted_cancel (rest.head_ne_quote q) (rest'.head_ne_quote q) names
      rw [ih rest' behind]

end Mark

namespace Piece

def marks : Piece → List Mark
  | .text s => s.toList.map .char
  | .name s => [.name s]
  | .parameter _ => [.char '?']
  | _ => []

/-- A name, a parameter, or a text without quotes and dots. -/
def isPlain : Piece → Bool
  | .text s => s.toList.all fun c => c != '"' && c != '.'
  | .name _ | .parameter _ => true
  | _ => false

def qualified (q : String) : Piece → Pieces
  | .name s => if q = "" then [.name s] else [.text (q ++ "."), .name s]
  | p => [p]

theorem isSilent_qualified (q : String) (p : Piece) :
    Pieces.isSilent (p.qualified q) = p.isSilent := by
  cases p with
  | name s => by_cases qualifier : q = "" <;> simp [qualified, Pieces.isSilent, isSilent, qualifier]
  | _ => simp [qualified, Pieces.isSilent]

theorem params_qualified (q : String) (p : Piece) :
    Pieces.params (p.qualified q) = p.value?.toList := by
  cases p with
  | name s => by_cases qualifier : q = "" <;> simp [qualified, Pieces.params, value?, qualifier]
  | _ => rfl

end Piece

namespace Pieces

def marks (ps : Pieces) : List Mark := ps.flatMap (·.marks)
def isPlain (ps : Pieces) : Bool := ps.all (·.isPlain)
def qualified (q : String) (ps : Pieces) : Pieces := ps.flatMap (·.qualified q)

@[simp] theorem qualified_nil (q : String) : qualified q [] = [] := rfl

@[simp] theorem qualified_cons (q : String) (p : Piece) (ps : Pieces) :
    qualified q (p :: ps) = p.qualified q ++ qualified q ps := rfl

@[simp] theorem qualified_append (q : String) (ps qs : Pieces) :
    qualified q (ps ++ qs) = qualified q ps ++ qualified q qs :=
  List.flatMap_append

@[simp] theorem isPlain_append (ps qs : Pieces) :
    isPlain (ps ++ qs) = (isPlain ps && isPlain qs) :=
  List.all_append

@[simp] theorem isPlain_cons (p : Piece) (ps : Pieces) :
    isPlain (p :: ps) = (p.isPlain && isPlain ps) := rfl

theorem qualified_empty (ps : Pieces) : qualified "" ps = ps := by
  induction ps with
  | nil => rfl
  | cons p rest ih =>
    rw [qualified_cons, ih]
    cases p <;> rfl

theorem isSilent_qualified (q : String) (ps : Pieces) :
    (qualified q ps).isSilent = ps.isSilent := by
  induction ps with
  | nil => rfl
  | cons p rest ih =>
    have := p.isSilent_qualified q
    simp only [isSilent, qualified_cons, List.all_append, List.all_cons] at this ih ⊢
    rw [this, ih]

theorem params_qualified (q : String) (ps : Pieces) : (qualified q ps).params = ps.params := by
  induction ps with
  | nil => rfl
  | cons p rest ih =>
    rw [qualified_cons, params_append, ih, p.params_qualified, params, params, List.filterMap_cons]
    cases p.value? <;> rfl

/-- Plain pieces whose tokens come apart have settled marks. -/
theorem settled {ps : Pieces} {apart after : Bool} (spaced : ps.spaced apart = some after)
    (plain : ps.isPlain = true) : Mark.Settled apart ps.marks := by
  induction ps generalizing apart with
  | nil => exact .nil
  | cons p rest ih =>
    obtain ⟨mid, hp, hrest⟩ := Option.bind_eq_some_iff.mp spaced
    obtain ⟨plain, others⟩ := (Bool.and_eq_true ..).mp plain
    have behind := ih hrest others
    cases p with
    | text s =>
      have each : ∀ c ∈ s.toList, c ≠ '"' ∧ c ≠ '.' := by simpa [Piece.isPlain] using plain
      cases apart with
      | true => exact behind.chars each
      | false =>
        -- the text has a separator at its head, so it has a head
        change Mark.Settled false (s.toList.map .char ++ marks rest)
        cases hs : s.toList with
        | nil => simp [Piece.spaced, hs] at hp
        | cons c cs =>
          obtain ⟨⟨quote, dot⟩, others⟩ := List.forall_mem_cons.mp (hs ▸ each)
          exact .char quote dot (behind.chars others)
    | name s =>
      obtain ⟨rfl, rfl⟩ : apart = true ∧ mid = false := by simpa [Piece.spaced, eq_comm] using hp
      exact .name behind
    | parameter v => exact .char (by decide) (by decide) behind.freed
    | _ => cases plain

end Pieces

variable {d : Dialect}

/-- Plain pieces write their marks. -/
theorem writeFrom_qualified (common : d.Common) (q : String) {ps : Pieces}
    (plain : ps.isPlain = true) (n : Nat) :
    d.writeFrom n (ps.qualified q) = ps.marks.flatMap (·.written q) := by
  induction ps generalizing n with
  | nil => rfl
  | cons p rest ih =>
    obtain ⟨plain, others⟩ := (Bool.and_eq_true ..).mp plain
    have behind := ih others
    cases p with
    | text s =>
      have chars : (s.toList.map Mark.char).flatMap (·.written q) = s.toList := by
        simp [List.flatMap_map, Mark.written]
      have parts : Pieces.marks (.text s :: rest) = s.toList.map .char ++ Pieces.marks rest := rfl
      rw [parts, List.flatMap_append, chars, ← behind n]
      rfl
    | name s =>
      have parts : Pieces.marks (.name s :: rest) = .name s :: Pieces.marks rest := rfl
      rw [parts, List.flatMap_cons, ← behind n]
      by_cases qualifier : q = "" <;>
        simp [Piece.qualified, qualifier, Dialect.writeFrom, common.name, Mark.written]
    | parameter v =>
      have parts : Pieces.marks (.parameter v :: rest) = .char '?' :: Pieces.marks rest := rfl
      rw [parts, List.flatMap_cons, ← behind (n + 1)]
      simp [Piece.qualified, Dialect.writeFrom, common.placeholder, Mark.written]
    | _ => cases plain

/-- Under a qualifier, plain pieces have the same text only where they have it without. -/
theorem write_of_qualified (common : d.Common) {q : String} {ps ps' : Pieces} {after after' : Bool}
    (plain : ps.isPlain = true) (plain' : ps'.isPlain = true)
    (spaced : ps.spaced true = some after) (spaced' : ps'.spaced true = some after')
    (same : d.write (ps.qualified q) = d.write (ps'.qualified q)) : d.write ps = d.write ps' := by
  by_cases qualifier : q = ""
  · rwa [qualifier, Pieces.qualified_empty, Pieces.qualified_empty] at same
  have written : d.writeFrom 0 (ps.qualified q) = d.writeFrom 0 (ps'.qualified q) :=
    String.ofList_injective same
  rw [writeFrom_qualified common q plain, writeFrom_qualified common q plain'] at written
  have marks := Mark.written_injective qualifier (Pieces.settled spaced plain)
    (Pieces.settled spaced' plain') written
  rw [← Pieces.qualified_empty ps, ← Pieces.qualified_empty ps', Dialect.write, Dialect.write,
    writeFrom_qualified common "" plain, writeFrom_qualified common "" plain', marks]

variable {ctx : Context} {m : Mapping}

theorem column_qualified (ctx : Context) (c : Column) :
    column ctx c = Pieces.qualified ctx.qualifier (column (ctx.qualified "") c) := by
  by_cases qualifier : ctx.qualifier = "" <;>
    simp [column, Context.qualified, Pieces.qualified, Piece.qualified, qualifier]

theorem separated_qualified (q separator : String) (items : List Pieces) :
    Pieces.qualified q (separated separator items) =
      separated separator (items.map (Pieces.qualified q)) := by
  induction items with
  | nil => rfl
  | cons item rest ih =>
    cases rest with
    | nil => rfl
    | cons next rest =>
      simp only [separated_cons_cons, List.map_cons, Pieces.qualified_append,
        Pieces.isSilent_qualified] at ih ⊢
      rw [ih]
      by_cases silent : item.isSilent <;> simp [silent, Pieces.qualified, Piece.qualified]

/-- A clause is about a column and names no other. -/
theorem clause_qualified (q : String) (col : Pieces) (positive : Bool) (cl : Clause) :
    Pieces.qualified q (clause col positive cl) = clause (col.qualified q) positive cl := by
  cases cl with
  | equal v => by_cases null : v.isNull <;> simp [clause, nullTest, null, Piece.qualified]
  | equalIgnoringCase v =>
    by_cases null : v.isNull <;> simp [clause, nullTest, null, Piece.qualified]
  | inList operands =>
    have single (v : Value) : Pieces.qualified q [.parameter v] = [.parameter v] := rfl
    simp [clause, Piece.qualified, separated_qualified, single, Function.comp_def]
  | _ => simp [clause, Piece.qualified]

theorem conjoined_qualified (q : String) (operator : Connective) (items : List Pieces) :
    Pieces.qualified q (conjoined operator items) =
      conjoined operator (items.map (Pieces.qualified q)) :=
  separated_qualified q _ items

theorem parenthesized_qualified (q : String) (ps : Pieces) :
    Pieces.qualified q ps.parenthesized = (Pieces.qualified q ps).parenthesized := by
  simp [Pieces.parenthesized, Piece.qualified]

theorem expression_test {property : String} {cl : Clause} {positive : Bool} {ps : Pieces} :
    expression ctx m (.test property cl positive) = .ok ps ↔
      ∃ i c, m.find property = .ok (i, c) ∧ cl.check property = .ok () ∧
        ps = (clause (column ctx c) positive cl).parenthesized := by
  rw [expression]
  simp only [Outcome.bind_eq_ok, Outcome.pure_eq_ok]
  constructor
  · intro h
    obtain ⟨⟨i, c⟩, found, _, checked, rfl⟩ := h
    exact ⟨i, c, found, checked, rfl⟩
  · intro h
    obtain ⟨i, c, found, checked, rfl⟩ := h
    exact ⟨(i, c), found, (), checked, rfl⟩

theorem filter_eq_ok {f : Criteria} {ps : Pieces} : filter ctx m f = .ok ps ↔
    ∃ items, f.expressions.mapM (expression ctx m) = .ok items ∧
      ps = conjoined f.operator items := by
  simp only [filter, expressions, Outcome.bind_eq_ok, Outcome.pure_eq_ok, expressionList_eq_ok,
    @eq_comm _ _ ps]

theorem expression_group {operator : Connective} {es : List Expression} {orders : List SortKey}
    {window : Window} {ps : Pieces} :
    expression ctx m (.group operator es orders window) = .ok ps ↔
      es ≠ [] ∧ ∃ items, es.mapM (expression ctx m) = .ok items ∧
        ps = (conjoined operator items).parenthesized := by
  by_cases empty : es = []
  · simp [expression, empty]
  · rw [expression, if_neg (by simpa using empty)]
    simp only [Outcome.bind_eq_ok, Outcome.pure_eq_ok, expressionList_eq_ok, ne_eq, empty,
      not_false_eq_true, true_and, @eq_comm _ _ ps]

/-- Members under a qualifier are what they are without, qualified. -/
theorem mapM_qualified {es : List Expression} {items : List Pieces}
    (each : ∀ e ∈ es, ∀ ps, expression ctx m e = .ok ps → ∃ bare,
      expression (ctx.qualified "") m e = .ok bare ∧ ps = bare.qualified ctx.qualifier)
    (written : es.mapM (expression ctx m) = .ok items) :
    ∃ bare, es.mapM (expression (ctx.qualified "") m) = .ok bare ∧
      items = bare.map (Pieces.qualified ctx.qualifier) := by
  induction es generalizing items with
  | nil =>
    obtain rfl := Outcome.pure_eq_ok.mp written
    exact ⟨[], rfl, rfl⟩
  | cons e rest ih =>
    obtain ⟨p, ps, hp, hps, rfl⟩ := Outcome.mapM_cons.mp written
    obtain ⟨first, others⟩ := List.forall_mem_cons.mp each
    obtain ⟨b, hb, rfl⟩ := first p hp
    obtain ⟨bs, hbs, rfl⟩ := ih others hps
    exact ⟨b :: bs, Outcome.mapM_cons.mpr ⟨b, bs, hb, hbs, rfl⟩, rfl⟩

/-- An expression under a qualifier is what it is without, qualified. -/
theorem expression_qualified {e : Expression} {ps : Pieces}
    (written : expression ctx m e = .ok ps) : ∃ bare,
      expression (ctx.qualified "") m e = .ok bare ∧ ps = bare.qualified ctx.qualifier := by
  induction e using Expression.byMembers generalizing ps with
  | test property cl positive =>
    obtain ⟨i, c, found, checked, rfl⟩ := expression_test.mp written
    refine ⟨_, expression_test.mpr ⟨i, c, found, checked, rfl⟩, ?_⟩
    rw [parenthesized_qualified, clause_qualified, ← column_qualified]
  | group operator es orders window ih =>
    obtain ⟨nonempty, items, hitems, rfl⟩ := expression_group.mp written
    obtain ⟨bare, hbare, rfl⟩ := mapM_qualified (fun e he ps => ih e he) hitems
    refine ⟨_, expression_group.mpr ⟨nonempty, bare, hbare, rfl⟩, ?_⟩
    rw [parenthesized_qualified, conjoined_qualified]
  | raw cl params =>
    obtain rfl := Except.ok.inj written
    refine ⟨_, rfl, ?_⟩
    have bound : Pieces.qualified ctx.qualifier (params.map .bound) = params.map .bound := by
      simp [Pieces.qualified, Piece.qualified, List.flatMap_map, ← List.map_eq_flatMap]
    rw [parenthesized_qualified, Pieces.qualified_cons, bound]
    rfl

/-- A filter under a qualifier is what it is without, qualified. -/
theorem filter_qualified {f : Criteria} {ps : Pieces} (written : filter ctx m f = .ok ps) :
    ∃ bare, filter (ctx.qualified "") m f = .ok bare ∧ ps = bare.qualified ctx.qualifier := by
  obtain ⟨items, hitems, rfl⟩ := filter_eq_ok.mp written
  obtain ⟨bare, hbare, rfl⟩ := mapM_qualified (fun e _ ps => expression_qualified) hitems
  exact ⟨_, filter_eq_ok.mpr ⟨bare, hbare, rfl⟩, (conjoined_qualified ..).symm⟩

end DataAccess.Sql
