import DataAccess.Query

/-!
Lists with a separator, as text. What is written is what comes of appending one fragment after the
other, with the separator in front where the text has grown since the fragment before. These are the
fragments that are not empty with the separator between them, and once more behind them where an
empty fragment stands last.
-/
namespace DataAccess.Sql

variable {d : Dialect} {separator : String} {f : String} {rest : List String}

/-- Fragments appended in turn to a text that had `mark` bytes before the last of them: the
separator comes first where it has more by now. -/
def appendFrom (separator : String) (mark : Nat) (text : String) : List String → String
  | [] => text
  | f :: rest =>
    let led := if mark < text.utf8ByteSize then text ++ separator else text
    appendFrom separator led.utf8ByteSize (led ++ f) rest

/-- The fragments that are not empty, the separator between them. -/
def joined (separator : String) (fragments : List String) : String :=
  separator.intercalate (fragments.filter (· ≠ ""))

/-- Behind a fragment that is not empty the last one is. -/
def Dangles (fragments : List String) : Prop :=
  fragments.getLast? = some "" ∧ ∃ f ∈ fragments, f ≠ ""

instance (fragments : List String) : Decidable (Dangles fragments) :=
  inferInstanceAs (Decidable (_ ∧ _))

/-- The separator follows each fragment that is not empty and has a fragment after it. -/
def listed (separator : String) : List String → String
  | [] => ""
  | f :: rest => f ++ (if f ≠ "" ∧ rest ≠ [] then separator else "") ++ listed separator rest

section Written

/-- What each item is written as, `n` parameters having been passed before the first. -/
def Dialect.fragments (d : Dialect) (n : Nat) : List Pieces → List String
  | [] => []
  | item :: rest =>
    String.ofList (d.writeFrom n item) :: d.fragments (n + item.params.length) rest

/-- Only what is silent is written as nothing. -/
def Dialect.Tells (d : Dialect) (items : List Pieces) : Prop :=
  ∀ item ∈ items, ∀ n, d.writeFrom n item = [] → item.isSilent = true

/-- Items are written as their fragments are listed. -/
theorem writeFrom_separated {items : List Pieces} (told : d.Tells items) (n : Nat) :
    String.ofList (d.writeFrom n (separated separator items)) =
      listed separator (d.fragments n items) := by
  induction items generalizing n with
  | nil => rfl
  | cons item others ih =>
    obtain ⟨tells, told⟩ := List.forall_mem_cons.mp told
    cases others with
    | nil => simp [separated, Dialect.fragments, listed]
    | cons next others =>
      have empty : String.ofList (d.writeFrom n item) = "" ↔ item.isSilent = true := by
        rw [String.ofList_eq_empty_iff]
        exact ⟨tells n, d.writeFrom_of_isSilent n⟩
      have unpassed : (item ++ if item.isSilent then [] else [Piece.text separator]).params =
          item.params := by
        split <;> simp [Pieces.params, Piece.value?]
      have between : String.ofList (d.writeFrom (n + item.params.length)
          (if item.isSilent then [] else [.text separator])) =
          if item.isSilent = false then separator else "" := by
        cases item.isSilent <;> simp [Dialect.writeFrom]
      rw [separated_cons_cons, d.writeFrom_append, unpassed, d.writeFrom_append,
        String.ofList_append, String.ofList_append, between, ih told]
      simp [Dialect.fragments, listed, empty]

theorem fragments_texts (d : Dialect) (n : Nat) (fragments : List String) :
    d.fragments n (fragments.map fun f => [.text f]) = fragments := by
  induction fragments generalizing n with
  | nil => rfl
  | cons f rest ih => simp [Dialect.fragments, Dialect.writeFrom, ih]

theorem tells_texts (d : Dialect) (fragments : List String) :
    d.Tells (fragments.map fun f => [.text f]) := by
  intro item mem n nothing
  obtain ⟨f, -, rfl⟩ := List.mem_map.mp mem
  simpa [Dialect.writeFrom, Pieces.isSilent, Piece.isSilent] using nothing

end Written

section Joined

/-- Whether the fragment before was empty is told by how much longer the text is. -/
theorem appendFrom_eq (separator : String) (mark : Nat) (text : String) (fragments : List String) :
    appendFrom separator mark text fragments =
      text ++ (if mark < text.utf8ByteSize ∧ fragments ≠ [] then separator else "") ++
        listed separator fragments := by
  induction fragments generalizing mark text with
  | nil => simp [appendFrom, listed]
  | cons f rest ih =>
    have longer (led : String) : led.utf8ByteSize < (led ++ f).utf8ByteSize ↔ f ≠ "" := by
      rw [String.utf8ByteSize_append, Nat.lt_add_right_iff_pos, Nat.pos_iff_ne_zero, ne_eq,
        String.utf8ByteSize_eq_zero_iff]
    rw [appendFrom, ih]
    simp only [longer, listed]
    by_cases grown : mark < text.utf8ByteSize <;> simp [grown, String.append_assoc]

section Empty

variable (h : ∀ g ∈ rest, g = "")
include h

theorem listed_of_empty : listed separator rest = "" := by
  induction rest with
  | nil => rfl
  | cons g rest ih =>
    obtain ⟨rfl, others⟩ := List.forall_mem_cons.mp h
    simp [listed, ih others]

theorem joined_cons_of_empty : joined separator (f :: rest) = f := by
  have none : rest.filter (· ≠ "") = [] := by simpa using h
  by_cases empty : f = ""
  · rw [joined, List.filter_cons_of_neg (by simpa using empty), none, empty, String.intercalate_nil]
  · rw [joined, List.filter_cons_of_pos (by simpa using empty), none, String.intercalate_singleton]

theorem dangles_cons_of_empty : Dangles (f :: rest) ↔ f ≠ "" ∧ rest ≠ [] := by
  have others : ¬∃ g ∈ rest, g ≠ "" := by simpa using h
  simp only [Dangles, List.mem_cons, or_and_right, exists_or, exists_eq_left, others, or_false]
  cases rest with
  | nil => simp
  | cons g rest =>
    have last : (f :: g :: rest).getLast? = some "" := by
      obtain ⟨c, hc⟩ : ∃ c, (g :: rest).getLast? = some c := ⟨_, List.getLast?_cons⟩
      rw [List.getLast?_cons_cons, hc, h c (List.mem_of_getLast? hc)]
    simp [last]

end Empty

section More

variable (more : ∃ g ∈ rest, g ≠ "")
include more

theorem joined_cons_of_more : joined separator (f :: rest) =
    f ++ (if f ≠ "" then separator else "") ++ joined separator rest := by
  have kept : rest.filter (· ≠ "") ≠ [] := by simpa using more
  by_cases empty : f = ""
  · rw [joined, List.filter_cons_of_neg (by simpa using empty), empty, if_neg (by simp), joined,
      String.append_empty, String.empty_append]
  · rw [joined, List.filter_cons_of_pos (by simpa using empty),
      String.intercalate_cons_of_ne_nil kept, if_pos empty, joined]

theorem dangles_cons_of_more : Dangles (f :: rest) ↔ Dangles rest := by
  have also : ∃ g ∈ f :: rest, g ≠ "" := by
    obtain ⟨g, hg, ne⟩ := more
    exact ⟨g, List.mem_cons_of_mem f hg, ne⟩
  cases rest with
  | nil => simp at more
  | cons g rest => simp only [Dangles, List.getLast?_cons_cons, more, also]

end More

/-- What is listed is joined. -/
theorem listed_eq (separator : String) (fragments : List String) :
    listed separator fragments =
      joined separator fragments ++ (if Dangles fragments then separator else "") := by
  induction fragments with
  | nil => rfl
  | cons f rest ih =>
    by_cases more : ∃ g ∈ rest, g ≠ ""
    · have others : rest ≠ [] := by
        rintro rfl
        simp at more
      simp only [listed, ih, joined_cons_of_more more, dangles_cons_of_more more, others, ne_eq,
        not_false_eq_true, and_true, String.append_assoc]
    · have empty : ∀ g ∈ rest, g = "" := by simpa using more
      rw [listed, listed_of_empty empty, joined_cons_of_empty empty, String.append_empty]
      simp only [dangles_cons_of_empty empty]

end Joined

/-- Behind any text, a list is written as its fragments are appended in turn. That is what they are
joined, and the separator once more where an empty fragment stands last behind one that is not: so
it is no more than what they are joined just where this does not happen or the separator is
empty. -/
theorem separated_appends (d : Dialect) (q : Query) (separator : String)
    (fragments : List String) :
    let text := (q.push (d.write (separated separator (fragments.map fun f => [.text f])))).text
    text = appendFrom separator q.text.utf8ByteSize q.text fragments ∧
      text = q.text ++ joined separator fragments ++ (if Dangles fragments then separator else "") ∧
      (text = q.text ++ joined separator fragments ↔ separator = "" ∨ ¬Dangles fragments) := by
  intro text
  have listing : text = q.text ++ listed separator fragments := by
    have written : d.write (separated separator (fragments.map fun f => [.text f])) =
        listed separator (d.fragments 0 (fragments.map fun f => [.text f])) :=
      writeFrom_separated (tells_texts d fragments) 0
    rw [fragments_texts] at written
    exact congrArg (q.text ++ ·) written
  have whole : text = q.text ++ joined separator fragments ++
      (if Dangles fragments then separator else "") := by
    rw [listing, listed_eq, String.append_assoc]
  refine ⟨?_, whole, ?_⟩
  · rw [listing, appendFrom_eq]
    simp
  · rw [whole, String.append_eq_left_iff]
    by_cases dangles : Dangles fragments <;> simp [dangles]

/-- A computed key of no text stands last, and the separator before it stays. -/
theorem orderBy_dangles :
    (orderBy (.plain .select) ⟨⟨"", "shelf"⟩, [.key "id" "id" .int64]⟩
      [⟨"id", .ascending⟩, ⟨"", .computed⟩]).map Dialect.generic.write =
        .ok "\nORDER BY \"id\" ASC, " ∧
    "\nORDER BY " ++ joined ", " ["\"id\" ASC", ""] = "\nORDER BY \"id\" ASC" := by
  constructor
  · rfl
  · decide +kernel

end DataAccess.Sql
