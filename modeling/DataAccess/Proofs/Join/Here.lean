import DataAccess.Proofs.Join.Flip
import DataAccess.Proofs.Memory.Fetch
import DataAccess.Storages

/-!
Joins run here, between tables of storages in process: the rows returned are the answer, and they
are returned whenever the criteria are accepted.
-/
namespace DataAccess

namespace Storages

/-- A table of a storage in process: any state that operations lead to, each table being used
through one mapping, whose columns have different names. -/
structure MemoryTable (w : Storages) where
  name : String
  memory : Memory
  schema : String → Mapping
  mapping : Mapping
  found : w.memories.find? name = some memory
  reachable : memory.Reachable schema
  used : schema mapping.table.fullName = mapping
  distinct : mapping.labels.Nodup

namespace MemoryTable

variable {w : Storages}

/-- The storage as it is reached by its name, and the mapping. -/
def source (t : w.MemoryTable) : Source Storages :=
  ⟨(Memory.backend t.memory.descriptor).within (memoryPlace t.name t.memory), t.mapping⟩

/-- The rows stored, if there is a table. -/
def rows? (t : w.MemoryTable) : Option (List Row) :=
  t.memory.tables.find? t.mapping.table.fullName

theorem memory?_eq (t : w.MemoryTable) : w.memory? t.name = some t.source.backend := by
  rw [memory?, t.found]
  rfl

theorem fits (t : w.MemoryTable) {rows : List Row} (h : t.rows? = some rows) :
    ∀ row ∈ rows, t.mapping.Fits row := by
  obtain ⟨tables, ⟨ht, -⟩, sound⟩ := t.reachable.sound
  have := sound t.mapping.table.fullName rows (ht ▸ h)
  rwa [t.used] at this

/-- What criteria select of the rows stored. -/
def Selects (t : w.MemoryTable) (c : Criteria) (rows : List Row) : Prop :=
  c.validate t.mapping = .ok () ∧ ∃ stored, t.rows? = some stored ∧
    c.select t.mapping stored = .ok rows

end MemoryTable

/-- The same tables under the same names, the pools being fit for use as before. -/
def Alike (w w' : Storages) : Prop :=
  ∀ name, (w'.memories.find? name).map (fun s => (s.tables, s.queries.poisoned)) =
    (w.memories.find? name).map fun s => (s.tables, s.queries.poisoned)

theorem lawful_memoryPlace (name : String) (absent : Memory) : (memoryPlace name absent).Lawful :=
  Place.Lawful.comp ⟨fun _ _ => rfl, fun _ _ _ => rfl⟩ (Place.lawful_entry name absent)

variable {w : Storages}

/-- What leaves the tables of one storage leaves all tables as they are. -/
theorem within_leads {name : String} {memory : Memory}
    (found : w.memories.find? name = some memory) (fit : memory.queries.poisoned = false)
    {α : Type} {a : Action Memory α} {Q : Outcome α → Prop}
    (h : Action.Leads (Memory.Holds memory.tables) a fun r s =>
      Q r ∧ Memory.Holds memory.tables s) :
    Action.Leads w.Alike (Action.within (memoryPlace name memory) a) fun r w' =>
      Q r ∧ w.Alike w' := by
  intro w' log alike
  have here := alike name
  rw [found] at here
  obtain ⟨s, hs, hsame⟩ := Option.map_eq_some_iff.mp here
  obtain ⟨hst, hsp⟩ := Prod.mk.inj hsame
  have holds : Memory.Holds memory.tables ((memoryPlace name memory).get w') := by
    have : (memoryPlace name memory).get w' = s := by
      simp [memoryPlace, Place.comp, Place.entry, hs]
    rw [this]
    exact ⟨hst, hsp.trans fit⟩
  obtain ⟨s', ⟨hr, hs'⟩, hw⟩ :=
    Action.Leads.within (memoryPlace name memory) h w' holds w' log rfl
  refine ⟨hr, fun other => ?_⟩
  have put : (Action.within (memoryPlace name memory) a ⟨w', log⟩).2.state.memories =
      w'.memories.put name s' := congrArg memories hw
  rw [← alike other]
  refine (congrArg (fun entries : Keyed String Memory => (entries.find? other).map fun s =>
    (s.tables, s.queries.poisoned)) put).trans ?_
  by_cases hn : other = name
  · subst hn
    rw [Keyed.find?_put_self, hs, Option.map_some, Option.map_some, hs'.1, hs'.2, hst, hsp, fit]
  · rw [Keyed.find?_put_of_ne hn]

/-- Fetching from a table leaves all tables as they are. -/
theorem MemoryTable.fetch_leads (t : w.MemoryTable) (c : Criteria) :
    Action.Leads w.Alike (t.source.backend.fetch t.mapping c) fun r w' =>
      (∀ rows, r = .ok rows ↔ t.Selects c rows) ∧ w.Alike w' := by
  obtain ⟨_, ⟨rfl, fit⟩, sound⟩ := t.reachable.sound
  rw [source, Backend.fetch_within (lawful_memoryPlace t.name t.memory)]
  exact within_leads t.found fit
    (Memory.fetch_leads t.memory.descriptor sound t.used t.distinct c)

end Storages

namespace JoinCriteria

/-- Sorted columns have a kind and hold no NaN. -/
def Sorts (c : JoinCriteria) (m : Sql.Pair) (ls rs : List Row) : Prop :=
  ∀ k ∈ c.orders, ∀ column, (m.mapping k.side).column k.property = .ok column →
    column.kind ≠ none ∧ ∀ row ∈ k.side.pick ls rs,
      (m.mapping k.side).cellOf row k.property ≠ .of (.float64 .nan)

theorem sorts_flip {c flipped : JoinCriteria} {m : Sql.Pair} {ls rs : List Row}
    (flips : c.flip = .ok flipped) (h : c.Sorts m ls rs) : flipped.Sorts m.flip rs ls := by
  obtain ⟨kind, -, rfl⟩ := flip_eq_ok.mp flips
  intro k hk
  obtain ⟨⟨property, direction, side⟩, hmem, rfl⟩ := List.mem_map.mp hk
  cases side <;> exact h _ hmem

theorem Sorts.sortable {c : JoinCriteria} {m : Sql.Pair} {ls rs : List Row} (h : c.Sorts m ls rs)
    (accepted : c.Accepted m)
    (fits : ∀ side : Side, ∀ row ∈ side.pick ls rs, (m.mapping side).Fits row) :
    c.Sortable m ls rs := by
  intro k hk
  obtain ⟨-, i, hi⟩ := accepted.sorted k hk
  obtain ⟨⟨j, column⟩, hf, rfl⟩ := Outcome.map_eq_ok.mp hi
  have known : (m.mapping k.side).column k.property = .ok column := by
    rw [Mapping.column, hf]
    rfl
  obtain ⟨typed, clean⟩ := h k hk column known
  obtain ⟨kind, hkind⟩ := Option.ne_none_iff_exists'.mp typed
  refine ⟨kind, by simp [JoinSortKey.kind?, known, Except.toOption, hkind], fun row hrow s hs => ?_⟩
  have fit := Mapping.fits_cell (fits k.side row hrow) (Mapping.getElem?_of_find hf)
  have hkey := clean row hrow
  rw [Mapping.cellOf_eq hi] at hs hkey
  have same := fit.kind kind hkind
  rw [hs] at same hkey
  exact ⟨by simpa [Value.kind] using same, fun hn => hkey (hn ▸ rfl)⟩

end JoinCriteria

namespace Join

variable {w : Storages} {c : JoinCriteria}

/-- The tables of both sides. -/
abbrev tables (l r : w.MemoryTable) : Sql.Pair := ⟨l.mapping, r.mapping⟩

theorem planned_leads {σ : Type} {P : σ → Prop} (l r : Mapping) (c : JoinCriteria) :
    Action.Leads P (planned l r c) fun res s => res = JoinPlan.ofCriteria l r c ∧ P s := by
  refine (Action.Leads.of (JoinPlan.ofCriteria l r c)).bind (fun p => ?_) fun _ _ h => h
  refine (Action.Leads.effect (Effect.Leads.log .debug _)).bind (fun _ => ?_) (by simp)
  refine (Action.Leads.pure p).mono (fun _ ⟨_, _, h⟩ => h) ?_
  intro _ s h
  obtain ⟨rfl, hp, h⟩ := h
  exact ⟨hp, h⟩

/-- Both sides are fetched as if at once: fetching one leaves the other's table alone. -/
theorem loaded_leads (l r : w.MemoryTable) (c : JoinCriteria) :
    Action.Leads w.Alike (loaded l.source r.source c) fun res w' =>
      (∀ p left right, res = .ok (p, left, right) ↔
        JoinPlan.ofCriteria l.mapping r.mapping c = .ok p ∧
          l.Selects (sideCriteria c .left) left ∧ r.Selects (sideCriteria c .right) right) ∧
      w.Alike w' := by
  refine (planned_leads l.mapping r.mapping c).bind (fun p => ?_) ?_
  · refine Action.Leads.given fun hp => ?_
    refine (l.fetch_leads (sideCriteria c .left)).bind (fun left => ?_) ?_
    · refine Action.Leads.given fun hleft => ?_
      refine (r.fetch_leads (sideCriteria c .right)).bind (fun right => ?_) ?_
      · refine Action.Leads.given fun hright => ?_
        refine (Action.Leads.pure _).mono (fun _ h => h) ?_
        intro _ w' h
        obtain ⟨rfl, alike⟩ := h
        refine ⟨fun p' left' right' => ⟨fun h => ?_, fun ⟨hp', hl, hr⟩ => ?_⟩, alike⟩
        · obtain ⟨rfl, rfl, rfl⟩ : p = p' ∧ left = left' ∧ right = right' := by simpa using h
          exact ⟨hp.symm, (hleft left).mp rfl, (hright right).mp rfl⟩
        · obtain rfl := Except.ok.inj (hp.trans hp')
          obtain rfl := Except.ok.inj ((hleft left').mpr hl)
          obtain rfl := Except.ok.inj ((hright right').mpr hr)
          rfl
      · intro f w' ⟨hright, alike⟩
        exact ⟨fun p' left' right' => ⟨nofun, fun ⟨_, _, hr⟩ => nomatch (hright right').mpr hr⟩,
          alike⟩
    · intro f w' ⟨hleft, alike⟩
      exact ⟨fun p' left' right' => ⟨nofun, fun ⟨_, hl, _⟩ => nomatch (hleft left').mpr hl⟩, alike⟩
  · intro f w' ⟨hp, alike⟩
    exact ⟨fun p' left' right' => ⟨nofun, fun ⟨hp', _⟩ => nomatch hp.trans hp'⟩, alike⟩

/-- The rows of a join whose left side comes first. -/
def Gives (l r : w.MemoryTable) (c : JoinCriteria) (rows : List JoinedRow) : Prop :=
  ∃ p left right, JoinPlan.ofCriteria l.mapping r.mapping c = .ok p ∧
    l.Selects (sideCriteria c .left) left ∧ r.Selects (sideCriteria c .right) right ∧
    rows = (c.window.take (p.sorted left right)).map (JoinPlan.rowsOf left right)

theorem run_leads (l r : w.MemoryTable) (c : JoinCriteria)
    (change : List JoinedRow → List JoinedRow) :
    Action.Leads w.Alike (do
      let (p, left, right) ← loaded l.source r.source c
      pure (change ((c.window.take (p.sorted left right)).map (JoinPlan.rowsOf left right))))
      fun res w' => (∀ rows, res = .ok rows ↔ ∃ found, Gives l r c found ∧ rows = change found) ∧
        w.Alike w' := by
  refine (loaded_leads l r c).bind (fun loaded => ?_) ?_
  · obtain ⟨p, left, right⟩ := loaded
    refine Action.Leads.given fun h => ?_
    obtain ⟨hp, hl, hr⟩ := (h p left right).mp rfl
    refine (Action.Leads.pure _).mono (fun _ h => h) ?_
    intro _ w' h
    obtain ⟨rfl, alike⟩ := h
    refine ⟨fun rows => ⟨fun hrows => ?_, ?_⟩, alike⟩
    · exact ⟨_, ⟨p, left, right, hp, hl, hr, rfl⟩, (Except.ok.inj hrows).symm⟩
    · intro h
      obtain ⟨_, ⟨p', left', right', hp', hl', hr', rfl⟩, rfl⟩ := h
      obtain ⟨rfl, rfl, rfl⟩ : p = p' ∧ left = left' ∧ right = right' := by
        simpa using (h p' left' right').mpr ⟨hp', hl', hr'⟩
      rfl
  · intro f w' ⟨h, alike⟩
    refine ⟨fun rows => ⟨nofun, ?_⟩, alike⟩
    intro h
    obtain ⟨_, ⟨p, left, right, hp, hl, hr, -⟩, -⟩ := h
    exact nomatch (h p left right).mpr ⟨hp, hl, hr⟩

theorem accepted_of_gives {l r : w.MemoryTable} {rows : List JoinedRow}
    (nonempty : c.expressions ≠ []) (h : Gives l r c rows) : c.Accepted (tables l r) := by
  obtain ⟨p, left, right, planned, ⟨hl, -⟩, ⟨hr, -⟩, -⟩ := h
  refine JoinCriteria.accepted_iff.mpr ⟨nonempty, ⟨p, planned⟩, fun side => ?_⟩
  cases side with
  | left => exact hl
  | right => exact hr

/-- The rows of accepted criteria are the answer, but for right outer joins. -/
theorem gives_iff (l r : w.MemoryTable) (built : c.Built) (kind : c.kind ≠ .rightOuter)
    (nonempty : c.expressions ≠ [])
    (sorts : ∀ ls ∈ l.rows?, ∀ rs ∈ r.rows?, c.Sorts (tables l r) ls rs)
    (keyed : ∀ ls ∈ l.rows?, ∀ rs ∈ r.rows?, c.Keyed (tables l r) ls rs) (rows : List JoinedRow) :
    Gives l r c rows ↔ c.Accepted (tables l r) ∧
      ∃ ls ∈ l.rows?, ∃ rs ∈ r.rows?, rows = c.answer (tables l r) ls rs := by
  have answered (accepted : c.Accepted (tables l r)) {p : JoinPlan} {ls rs left right : List Row}
      (planned : JoinPlan.ofCriteria l.mapping r.mapping c = .ok p) (hls : l.rows? = some ls)
      (hrs : r.rows? = some rs) (hleft : (sideCriteria c .left).select l.mapping ls = .ok left)
      (hright : (sideCriteria c .right).select r.mapping rs = .ok right) :
      (c.window.take (p.sorted left right)).map (JoinPlan.rowsOf left right) =
        c.answer (tables l r) ls rs := by
    have fits (side : Side) : ∀ row ∈ side.pick ls rs, ((tables l r).mapping side).Fits row := by
      cases side with
      | left => exact l.fits hls
      | right => exact r.fits hrs
    exact JoinCriteria.rows_eq_answer built kind planned (JoinCriteria.accepted_iff.mp accepted).2.2
      ((sorts ls hls rs hrs).sortable accepted fits) (keyed ls hls rs hrs) hleft hright
  constructor
  · intro h
    have accepted := accepted_of_gives nonempty h
    obtain ⟨p, left, right, planned, ⟨-, ls, hls, hleft⟩, ⟨-, rs, hrs, hright⟩, rfl⟩ := h
    exact ⟨accepted, ls, hls, rs, hrs, answered accepted planned hls hrs hleft hright⟩
  · intro h
    obtain ⟨accepted, ls, hls, rs, hrs, rfl⟩ := h
    obtain ⟨-, ⟨p, planned⟩, valid⟩ := JoinCriteria.accepted_iff.mp accepted
    obtain ⟨_, -, hleft⟩ := JoinCriteria.select_side built .left (valid .left) ls
    obtain ⟨_, -, hright⟩ := JoinCriteria.select_side built .right (valid .right) rs
    exact ⟨p, _, _, planned, ⟨valid .left, ls, hls, hleft⟩, ⟨valid .right, rs, hrs, hright⟩,
      (answered accepted planned hls hrs hleft hright).symm⟩

theorem validate_eq_ok : c.validate = .ok () ↔ c.expressions ≠ [] := by
  unfold JoinCriteria.validate
  cases c.expressions <;> simp

/-- The rows of a right outer join are found from the other side. -/
theorem gives_flip_iff (l r : w.MemoryTable) (built : c.Built) (kind : c.kind = .rightOuter)
    (nonempty : c.expressions ≠ []) {flipped : JoinCriteria} (flips : c.flip = .ok flipped)
    (sorts : ∀ ls ∈ l.rows?, ∀ rs ∈ r.rows?, c.Sorts (tables l r) ls rs)
    (keyed : ∀ ls ∈ l.rows?, ∀ rs ∈ r.rows?, c.Keyed (tables l r) ls rs) (rows : List JoinedRow) :
    (∃ found, Gives r l flipped found ∧ rows = found.map .flip) ↔ c.Accepted (tables l r) ∧
      ∃ ls ∈ l.rows?, ∃ rs ∈ r.rows?, rows = c.answer (tables l r) ls rs := by
  have left : flipped.kind ≠ .rightOuter := by simp [JoinCriteria.kind_flip flips kind]
  have answered (found : List JoinedRow) := gives_iff r l (built.flip flips) left
    (JoinCriteria.expressions_flip flips nonempty)
    (fun rs hrs ls hls => JoinCriteria.sorts_flip flips (sorts ls hls rs hrs))
    (fun rs hrs ls hls => JoinCriteria.keyed_flip flips (keyed ls hls rs hrs)) found
  have accepted := JoinCriteria.accepted_of_flip flips (m := tables l r)
  have seen := JoinCriteria.answer_flip flips kind (tables l r)
  constructor
  · intro h
    obtain ⟨found, hfound, rfl⟩ := h
    obtain ⟨haccepted, rs, hrs, ls, hls, rfl⟩ := (answered found).mp hfound
    exact ⟨accepted.mp haccepted, ls, hls, rs, hrs, seen ls rs⟩
  · intro h
    obtain ⟨haccepted, ls, hls, rs, hrs, rfl⟩ := h
    exact ⟨_, (answered _).mpr ⟨accepted.mpr haccepted, rs, hrs, ls, hls, rfl⟩,
      (seen ls rs).symm⟩

theorem exists_flip (kind : c.kind = .rightOuter) : ∃ flipped, c.flip = .ok flipped :=
  ⟨_, JoinCriteria.flip_eq_ok.mpr ⟨.leftOuter, by rw [kind]; rfl, rfl⟩⟩

/-- The rows of a join, of a right outer one found from the other side. -/
def Found (l r : w.MemoryTable) (c : JoinCriteria) (rows : List JoinedRow) : Prop :=
  c.expressions ≠ [] ∧ if c.kind = .rightOuter then
    ∃ flipped found, c.flip = .ok flipped ∧ Gives r l flipped found ∧ rows = found.map .flip
  else Gives l r c rows

theorem found_flipped {l r : w.MemoryTable} (kind : c.kind = .rightOuter)
    (nonempty : c.expressions ≠ []) {flipped : JoinCriteria} (flips : c.flip = .ok flipped)
    {rows : List JoinedRow} :
    Found l r c rows ↔ ∃ found, Gives r l flipped found ∧ rows = found.map .flip := by
  simp [Found, kind, nonempty, flips]

theorem found_straight {l r : w.MemoryTable} (kind : c.kind ≠ .rightOuter)
    (nonempty : c.expressions ≠ []) {rows : List JoinedRow} :
    Found l r c rows ↔ Gives l r c rows := by
  simp [Found, kind, nonempty]

/-- A join here returns the rows found, or fails where there are none, and changes no table. -/
theorem here_leads (l r : w.MemoryTable) (c : JoinCriteria) :
    Action.Leads w.Alike (here l.source r.source c) fun res w' =>
      (∀ rows, res = .ok rows ↔ Found l r c rows) ∧ w.Alike w' := by
  refine (Action.Leads.of c.validate).bind (fun _ => ?_) ?_
  · refine Action.Leads.given fun valid => ?_
    have nonempty := validate_eq_ok.mp valid.symm
    by_cases kind : c.kind = .rightOuter
    · rw [if_pos kind]
      obtain ⟨flipped, flips⟩ := exists_flip kind
      refine (Action.Leads.of c.flip).bind (fun c' => ?_) ?_
      · refine Action.Leads.given fun hc' => ?_
        obtain rfl := Except.ok.inj (hc'.trans flips)
        exact (run_leads r l c' (·.map .flip)).mono (fun _ h => h) fun res w' ⟨h, alike⟩ =>
          ⟨fun rows => (h rows).trans (found_flipped kind nonempty flips).symm, alike⟩
      · intro f w' h
        obtain ⟨hf, -⟩ := h
        rw [flips] at hf
        cases hf
    · rw [if_neg kind]
      refine (run_leads l r c id).mono (fun _ h => h) fun res w' ⟨h, alike⟩ =>
        ⟨fun rows => ?_, alike⟩
      rw [h, found_straight kind nonempty]
      simp
  · intro f w' ⟨invalid, alike⟩
    refine ⟨fun rows => ⟨nofun, fun ⟨nonempty, _⟩ => ?_⟩, alike⟩
    have := validate_eq_ok.mpr nonempty
    simp [this] at invalid

theorem found_iff (l r : w.MemoryTable) (built : c.Built)
    (sorts : ∀ ls ∈ l.rows?, ∀ rs ∈ r.rows?, c.Sorts (tables l r) ls rs)
    (keyed : ∀ ls ∈ l.rows?, ∀ rs ∈ r.rows?, c.Keyed (tables l r) ls rs) (rows : List JoinedRow) :
    Found l r c rows ↔ c.Accepted (tables l r) ∧
      ∃ ls ∈ l.rows?, ∃ rs ∈ r.rows?, rows = c.answer (tables l r) ls rs := by
  by_cases nonempty : c.expressions = []
  · exact iff_of_false (fun h => h.1 nonempty) fun h => h.1.nonempty nonempty
  · by_cases kind : c.kind = .rightOuter
    · obtain ⟨flipped, flips⟩ := exists_flip kind
      exact (found_flipped kind nonempty flips).trans
        (gives_flip_iff l r built kind nonempty flips sorts keyed rows)
    · exact (found_straight kind nonempty).trans
        (gives_iff l r built kind nonempty sorts keyed rows)

/-- A join here is the join by its definition: for tables of storages in process, or of one, in any
state that operations lead to, the rows returned for built criteria are the pairs of the rows that
pass the side filters, sorted once by all keys, ties in storage order, and cut. -/
theorem here_eq_answer (l r : w.MemoryTable) (built : c.Built)
    (sorts : ∀ ls ∈ l.rows?, ∀ rs ∈ r.rows?, c.Sorts (tables l r) ls rs)
    (keyed : ∀ ls ∈ l.rows?, ∀ rs ∈ r.rows?, c.Keyed (tables l r) ls rs)
    (log : List LogRecord) (rows : List JoinedRow) :
    ((here l.source r.source c).run ⟨w, log⟩).1 = .ok rows ↔ c.Accepted (tables l r) ∧
      ∃ ls ∈ l.rows?, ∃ rs ∈ r.rows?, rows = c.answer (tables l r) ls rs :=
  ((here_leads l r c w log fun _ => rfl).1 rows).trans (found_iff l r built sorts keyed rows)

section People

/-- People with their parents, who may be unknown. -/
def people : Mapping := ⟨⟨"", "people"⟩,
  [.key "id" "id" .int32, .optional "parent" "parent" .int32]⟩

def person (id : Int32) (parent : Value) : Row := [.of (.int32 id), parent]

/-- Two children of one parent, stored after it. -/
def family : List Memory.Operation :=
  [.createTable people false, .insert people (person 1 (.null none)),
    .insert people (person 3 (.of (.int32 1))), .insert people (person 2 (.of (.int32 1)))]

def familyStorage : Memory :=
  family.foldl (fun s o => (o.run s.descriptor ⟨s, []⟩).2.state)
    (.ofDescriptor ⟨"memory", "family", [], 4, 5000⟩)

theorem reachable_familyStorage : familyStorage.Reachable fun _ => people :=
  Memory.reachable_ofOperations ⟨"memory", "family", [], 4, 5000⟩ (by decide)

def familyWorld : Storages := { Storages.empty with memories := [("home", familyStorage)] }

def familyTable : familyWorld.MemoryTable where
  name := "home"
  memory := familyStorage
  schema _ := people
  mapping := people
  found := rfl
  reachable := reachable_familyStorage
  used := rfl
  distinct := by decide

/-- Everyone with their parent, those with one first. -/
def withParents : JoinCriteria :=
  (((JoinCriteria.ofKind .leftOuter).on ⟨.equal, "parent", "id", true⟩).orderBy .right "id"
    .descending).limit 2

theorem here_eq_answer_family : withParents.Accepted (tables familyTable familyTable) ∧
    ∃ ls ∈ familyTable.rows?, ∃ rs ∈ familyTable.rows?,
      [⟨some (person 3 (.of (.int32 1))), some (person 1 (.null (some .int32)))⟩,
        ⟨some (person 2 (.of (.int32 1))), some (person 1 (.null (some .int32)))⟩] =
      withParents.answer (tables familyTable familyTable) ls rs := by
  have stored : familyTable.rows? = some [person 1 (.null (some .int32)),
      person 3 (.of (.int32 1)), person 2 (.of (.int32 1))] := by decide +kernel
  have ran : ((here familyTable.source familyTable.source withParents).run
      ⟨familyWorld, []⟩).1.toOption =
      some [⟨some (person 3 (.of (.int32 1))), some (person 1 (.null (some .int32)))⟩,
        ⟨some (person 2 (.of (.int32 1))), some (person 1 (.null (some .int32)))⟩] := by
    decide +kernel
  have built : withParents.Built :=
    .limit 2 (.orderBy .right "id" .descending (.on _ (.ofKind .leftOuter)))
  refine (here_eq_answer familyTable familyTable built ?_ ?_ [] _).mp ?_
  · rw [stored]
    rintro _ ⟨⟩ _ ⟨⟩ k hk column hc
    obtain rfl := List.mem_singleton.mp hk
    obtain rfl := Except.ok.inj hc
    exact ⟨nofun, by decide +kernel⟩
  · rw [stored]
    rintro _ ⟨⟩ _ ⟨⟩
    unfold JoinCriteria.Keyed
    decide +kernel
  · cases h : ((here familyTable.source familyTable.source withParents).run
      ⟨familyWorld, []⟩).1 with
    | ok rows =>
      rw [h] at ran
      exact congrArg _ (Option.some.inj ran)
    | error f =>
      rw [h] at ran
      cases ran

end People

end Join
end DataAccess
