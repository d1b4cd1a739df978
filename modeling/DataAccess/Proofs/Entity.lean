import DataAccess.Conformance.Items
import DataAccess.Proofs.Memory.Stored

/-!
Values of a type in a table in process. What is written as a row that fits, and is read from it
again, comes back from the table: all values as they came, or in the order of their numbers. A
search for one value finds the first of them, except that a limit of none does not bind it.
-/
namespace DataAccess

open Memory (Stores backend)

namespace Criteria

variable {m : Mapping} {c : Criteria}

/-- Every row passes criteria without expressions. -/
theorem select_unfiltered (free : c.expressions = []) (whole : c.window = .all)
    {places : List (Nat × Direction)}
    (placed : SortKey.places m c.orders = .ok places) (rows : List Row) :
    c.select m rows = .ok (StableSort.sort (Row.compareAt places) rows) := by
  have passed (row : Row) : c.passes m row = true := by
    rw [passes, admits, isEmpty, free]
    rfl
  rw [select_eq (by simp [free]) placed, whole, List.filter_eq_self.mpr fun row _ => passed row]
  rfl

/-- What is not sorted stays in its order. -/
theorem select_all (m : Mapping) (rows : List Row) : all.select m rows = .ok rows := by
  have level (a b : Row) : Row.compareAt [] a b ≠ .lt := nofun
  have kept := StableSort.sort_filter (fun _ => true) fun a (_ : a ∈ rows) b _ _ _ => level a b
  rw [List.filter_true, List.filter_true] at kept
  have unsorted : SortKey.places m all.orders = .ok [] := rfl
  rw [select_unfiltered rfl rfl unsorted, kept]

end Criteria

namespace Column

variable {c : Column}

theorem Fits.of_kind {s : Scalar} (kind : c.kind = some s.kind) : c.Fits (.of s) :=
  ⟨fun _ h => kind.symm.trans h, nofun⟩

/-- A value of the column's kind, or NULL. -/
theorem Fits.of_option {α : Type} [Native α]
    (own : ∀ a : α, (Native.toScalar a).kind = Native.kind α)
    (kind : c.kind = some (Native.kind α)) (nullable : c.nullable = true) (a : Option α) :
    c.Fits (Native.toNullable a) := by
  cases a with
  | none => exact ⟨fun _ h => kind.symm.trans h, fun _ => nullable⟩
  | some a => exact .of_kind (kind.trans (congrArg some (own a).symm))

end Column

namespace Entity

variable {α : Type} {e : Entity α} {id : α → Int64} {items : List α}

/-- Each value has a row that fits and from which it is read, with its number as the key. -/
structure Numbered (e : Entity α) (id : α → Int64) : Prop where
  labels : e.mapping.labels.Nodup
  fits : ∀ a, e.mapping.Fits (e.row a)
  read : ∀ a, e.decodeRow (e.row a) = .ok a
  key : e.mapping.primaryKeys = [0]
  position : e.mapping.position "id" = .ok 0
  number : ∀ a, (e.row a).cell 0 = .of (.int64 (id a))

/-- The pool is fit for use, and the table holds the rows of these values. -/
def Stored (e : Entity α) (items : List α) (s : Memory) : Prop :=
  Stores e.mapping (items.map e.row) s

/-- Values put into an empty table at once are counted, in a word, which no list outgrows that fits
into memory. They are found as they came, and sorted by number where that is asked for. -/
structure Survives (e : Entity α) (id : α → Int64) (d : Descriptor) (items : List α) : Prop where
  inserted : Action.Leads (e.Stored []) (e.insertMany (backend d) items) fun r s =>
    r = .ok (.ofRows (items.length % Nat.pow 2 64)) ∧ e.Stored items s
  counted (fits : items.length < Nat.pow 2 64) : Action.Leads (e.Stored [])
    (e.insertMany (backend d) items) fun r _ => r = .ok (.ofRows items.length)
  found : Action.Leads (e.Stored items) (e.findMany (backend d) .all) fun r s =>
    r = .ok items ∧ e.Stored items s
  sorted : Action.Leads (e.Stored items)
    (e.findMany (backend d) (Criteria.all.orderBy "id" .ascending)) fun r s =>
      (∃ found, r = .ok found ∧ found.Perm items ∧ found.Pairwise fun a b => id a < id b) ∧
        e.Stored items s

/-- What was put into an empty table comes back. -/
theorem Survives.restored {d : Descriptor} (survives : e.Survives id d items) {env : Env Memory}
    (empty : e.Stored [] env.state) :
    (e.findMany (backend d) .all (e.insertMany (backend d) items env).2).1 = .ok items := by
  have stored := (survives.inserted env.state env.log empty).2
  exact (survives.found _ _ stored).1

namespace Numbered

variable (numbered : e.Numbered id) (distinct : (items.map id).Nodup)

include numbered

theorem fits_rows : ∀ row ∈ items.map e.row, e.mapping.Fits row := by
  intro row mem
  obtain ⟨a, -, rfl⟩ := List.mem_map.mp mem
  exact numbered.fits a

include distinct in
theorem keysApart : e.mapping.KeysApart (items.map e.row) := by
  intro _
  rw [List.map_map, List.pairwise_map]
  refine (List.pairwise_map.mp distinct).imp fun {a b} ne => ?_
  have keyOf (a : α) : e.mapping.keyOf (e.row a) = [.of (.int64 (id a))] := by
    rw [Mapping.keyOf, numbered.key, List.map_singleton, numbered.number]
  have apart : (Value.of (.int64 (id a)) == .of (.int64 (id b))) = false :=
    decide_eq_false fun same => ne (Scalar.int64.inj same)
  simp [keyOf, apart]

/-- The rows that criteria select are read as their values. -/
theorem findMany_leads (d : Descriptor) {c : Criteria} {kept : List α}
    (valid : c.validate e.mapping = .ok ())
    (selects : c.select e.mapping (items.map e.row) = .ok (kept.map e.row)) :
    Action.Leads (e.Stored items) (e.findMany (backend d) c) fun r s =>
      r = .ok kept ∧ e.Stored items s := by
  have read : (kept.map e.row).mapM e.decodeRow = .ok kept := by
    rw [Outcome.mapM_eq_ok, List.forall₂_map_left_iff, List.forall₂_same]
    exact fun a _ => numbered.read a
  have fetched := Memory.fetch_stores d numbered.labels numbered.fits_rows valid selects
  refine fetched.bind (fun rows => Action.Leads.given fun hrows => ?_) fun _ _ h => nomatch h.1
  obtain rfl := Except.ok.inj hrows
  rw [read]
  exact Action.Leads.of (.ok kept)

theorem places_byNumber : SortKey.places e.mapping (Criteria.all.orderBy "id" .ascending).orders =
    .ok [(0, .ascending)] := by
  have place : SortKey.place e.mapping ⟨"id", .ascending⟩ = .ok (0, .ascending) := by
    rw [SortKey.place, numbered.position]
    rfl
  exact Outcome.mapM_cons.mpr ⟨_, [], place, rfl, rfl⟩

/-- Numbers are sorted, and no two are the same. -/
theorem exists_sorted (distinct : (items.map id).Nodup) :
    ∃ found : List α, (Criteria.all.orderBy "id" .ascending).select e.mapping (items.map e.row) =
      .ok (found.map e.row) ∧ found.Perm items ∧ found.Pairwise fun a b => id a < id b := by
  let byNumber (a b : α) : Ordering := Ord.compare (id a).toInt (id b).toInt
  have compared (a b : α) :
      byNumber a b = Row.compareAt [(0, .ascending)] (e.row a) (e.row b) := by
    simp only [Row.compareAt, List.foldl_cons, List.foldl_nil, numbered.number]
    rfl
  have ranks : Ranks (fun _ => True) byNumber :=
    ⟨fun _ _ => Std.OrientedOrd.eq_swap, fun _ _ _ _ _ _ => Std.TransOrd.isLE_trans⟩
  have perm : (StableSort.sort byNumber items).Perm items := StableSort.sort_perm items
  have ascending : Ascending byNumber (StableSort.sort byNumber items) :=
    StableSort.sort_ascending ranks fun _ _ => trivial
  refine ⟨StableSort.sort byNumber items, ?_, perm, ?_⟩
  · rw [StableSort.map_sort compared]
    exact Criteria.select_unfiltered rfl rfl numbered.places_byNumber _
  · have unlike := List.pairwise_map.mp ((perm.map id).nodup_iff.mpr distinct)
    refine (ascending.and unlike).imp fun ⟨le, ne⟩ => ?_
    have le := Int.isLE_compare.mp le
    have ne := mt Int64.toInt_inj.mp ne
    exact Int64.lt_iff_toInt_lt.mpr (Int.lt_iff_le_and_ne.mpr ⟨le, ne⟩)

theorem inserted (d : Descriptor) (distinct : (items.map id).Nodup) :
    Action.Leads (e.Stored []) (e.insertMany (backend d) items) fun r s =>
      r = .ok (.ofRows (items.length % Nat.pow 2 64)) ∧ e.Stored items s := by
  have apart := numbered.keysApart distinct
  rw [← List.nil_append (items.map e.row)] at apart
  have inserted := Memory.insertBatch_stores d numbered.fits_rows apart
  rwa [List.length_map] at inserted

theorem survives (d : Descriptor) (distinct : (items.map id).Nodup) : e.Survives id d items where
  inserted := numbered.inserted d distinct
  counted fits := by
    refine (numbered.inserted d distinct).mono (fun _ h => h) fun r _ h => ?_
    rw [h.1, Nat.mod_eq_of_lt fits]
  found := numbered.findMany_leads d rfl (Criteria.select_all _ _)
  sorted := by
    obtain ⟨found, selects, perm, sorted⟩ := numbered.exists_sorted distinct
    have valid := Criteria.validate_eq_ok.mpr ⟨by simp [Criteria.orderBy, Criteria.all],
      _, numbered.places_byNumber⟩
    exact (numbered.findMany_leads d valid selects).mono (fun _ h => h) fun _ _ ⟨hr, hs⟩ =>
      ⟨⟨found, hr, perm, sorted⟩, hs⟩

end Numbered
section FirstFound

variable {s : Memory} {schema : String → Mapping} {c : Criteria}

/-- A stored row, read. -/
def readStored (e : Entity α) (row : Row) : Outcome α := do
  e.decodeRow (← e.mapping.project Value.coerce ⟨e.mapping.labels, row⟩)

/-- The rows of the table that criteria select are read in their order. -/
theorem findMany_eq_ok {t : Memory.Tables} (holds : Memory.Holds t s) (e : Entity α)
    (d : Descriptor) (log : List LogRecord) :
    (e.findMany (backend d) c ⟨s, log⟩).1 = .ok items ↔ c.validate e.mapping = .ok () ∧
      ∃ stored kept, t.find? e.mapping.table.fullName = some stored ∧
        c.select e.mapping stored = .ok kept ∧
        List.Forall₂ (fun row a => e.readStored row = .ok a) kept items := by
  have fetched (rows : List Row) : ((backend d).fetch e.mapping c ⟨s, log⟩).1 = .ok rows ↔
      t.fetched e.mapping c = .ok rows := by
    rw [← (Memory.fetch_settles d e.mapping c s log holds).1]
    exact Outcome.mapError_eq_ok.symm
  have read (kept : List Row) : (∃ rows, (kept.map (⟨e.mapping.labels, ·⟩)).mapM
      (e.mapping.project Value.coerce) = .ok rows ∧ rows.mapM e.decodeRow = .ok items) ↔
      List.Forall₂ (fun row a => e.readStored row = .ok a) kept items := by
    rw [Outcome.mapM_mapM_eq_ok, List.forall₂_map_left_iff]
    rfl
  rw [findMany, Action.run_bind_of]
  simp only [Outcome.bind_eq_ok, fetched, Memory.Tables.fetched, Memory.Tables.found,
    Outcome.mapError_eq_ok, Outcome.pure_eq_ok, Memory.Tables.rows_eq_ok, ← read]
  constructor
  · intro h
    obtain ⟨rows, ⟨_, valid, _, ⟨stored, there, kept, selected, rfl⟩, projected⟩, decoded⟩ := h
    exact ⟨valid, stored, kept, there, selected, rows, projected, decoded⟩
  · intro h
    obtain ⟨valid, stored, kept, there, selected, rows, projected, decoded⟩ := h
    exact ⟨rows, ⟨(), valid, _, ⟨stored, there, kept, selected, rfl⟩, projected⟩, decoded⟩

/-- What criteria find that are right for a table: what their window shows of the rows that pass. -/
theorem findMany_eq_ok_of_checked {t : Memory.Tables} (holds : Memory.Holds t s) (e : Entity α)
    (d : Descriptor) (log : List LogRecord)
    (checked : ∀ x ∈ c.expressions, x.check e.mapping = .ok ())
    {places : List (Nat × Direction)} (placed : SortKey.places e.mapping c.orders = .ok places)
    {stored : List Row} (there : t.find? e.mapping.table.fullName = some stored) (found : List α) :
    (e.findMany (backend d) c ⟨s, log⟩).1 = .ok found ↔
      List.Forall₂ (fun row a => e.readStored row = .ok a) (c.window.take
        (StableSort.sort (Row.compareAt places) (stored.filter (c.passes e.mapping)))) found := by
  have select := Criteria.select_eq checked placed stored
  rw [findMany_eq_ok holds]
  constructor
  · intro h
    obtain ⟨-, stored', kept, there', selected, read⟩ := h
    obtain rfl := Option.some.inj (there.symm.trans there')
    obtain rfl := Except.ok.inj (select.symm.trans selected)
    exact read
  · intro h
    exact ⟨Criteria.validate_eq_ok.mpr ⟨checked, places, placed⟩, stored, _, there, select, h⟩

theorem findOne_eq_ok (e : Entity α) (b : Backend Memory) (env : Env Memory) {first : Option α} :
    (e.findOne b c env).1 = .ok first ↔
      ∃ found, (e.findMany b (c.limit 1) env).1 = .ok found ∧ found.head? = first := by
  have searched : (e.findOne b c env).1 = (e.findMany b (c.limit 1) env).1.map List.head? :=
    congrArg Prod.fst (Action.run_bind_of _ (fun found : List α => .ok found.head?) env)
  rw [searched, Outcome.map_eq_ok]

/-- Where many values are found, a search for one finds the first of them, or none if there are
none: except when the criteria ask for no rows at all though there are some, for then the search
reads the first of those. -/
theorem findOne_heads (reachable : s.Reachable schema) (e : Entity α) (d : Descriptor)
    (log log' : List LogRecord) (found : (e.findMany (backend d) c ⟨s, log⟩).1 = .ok items) :
    ∃ stored, s.tables.find? e.mapping.table.fullName = some stored ∧
      ((e.findOne (backend d) c ⟨s, log'⟩).1 = .ok items.head? ↔
        c.window.limit ≠ some 0 ∨
          (stored.filter (c.passes e.mapping)).length ≤ c.window.start.getD 0) := by
  obtain ⟨t, holds, -⟩ := reachable.sound
  obtain ⟨valid, stored, -, there, -⟩ := (findMany_eq_ok holds e d log).mp found
  obtain ⟨checked, places, placed⟩ := Criteria.validate_eq_ok.mp valid
  have read := (findMany_eq_ok_of_checked holds e d log checked placed there _).mp found
  have size : (StableSort.sort (Row.compareAt places) (stored.filter (c.passes e.mapping))).length =
      (stored.filter (c.passes e.mapping)).length := (StableSort.sort_perm _).length_eq
  refine ⟨stored, holds.1 ▸ there, ?_⟩
  -- Criteria of one row select with the same filter and order, only the window is another.
  have one := findMany_eq_ok_of_checked (c := c.limit 1) holds e d log' checked placed there
  rw [findOne_eq_ok, ← size, ← Window.exists_head_iff read]
  simp only [one]
  rfl

open Conformance (leftItems leftRows)

/-- Five items in a storage. -/
def shelf : Memory := Memory.ofOperations ⟨"memory", "shelf", [], 4, 5000⟩
  [.createTable leftItems.mapping false,
    .insertBatch leftItems.mapping (leftRows.map leftItems.row)]

theorem reachable_shelf : shelf.Reachable fun _ => leftItems.mapping :=
  Memory.reachable_ofOperations _ (by decide)

/-- Of the second item and the two after it the search finds the second. -/
theorem findOne_heads_shelf :
    (leftItems.findMany (backend shelf.descriptor) ((Criteria.all.start 1).limit 3)
      ⟨shelf, []⟩).1 = .ok [⟨2, "two"⟩, ⟨3, "three"⟩, ⟨4, "four"⟩] ∧
    (leftItems.findOne (backend shelf.descriptor) ((Criteria.all.start 1).limit 3)
      ⟨shelf, []⟩).1 = .ok (some ⟨2, "two"⟩) := by
  have found : (leftItems.findMany (backend shelf.descriptor) ((Criteria.all.start 1).limit 3)
      ⟨shelf, []⟩).1 = .ok [⟨2, "two"⟩, ⟨3, "three"⟩, ⟨4, "four"⟩] :=
    Outcome.eq_ok_of_toOption (by decide +kernel)
  obtain ⟨_, -, heads⟩ := findOne_heads reachable_shelf leftItems shelf.descriptor [] [] found
  exact ⟨found, heads.mpr (Or.inl (by decide))⟩

/-- No item is asked for and none of many is found, but a search for one finds the first. -/
theorem findOne_unbound : (shelf.Reachable fun _ => leftItems.mapping) ∧
    (leftItems.findMany (backend shelf.descriptor) (Criteria.all.limit 0) ⟨shelf, []⟩).1 = .ok [] ∧
    (leftItems.findOne (backend shelf.descriptor) (Criteria.all.limit 0) ⟨shelf, []⟩).1 =
      .ok (some ⟨1, "one"⟩) :=
  ⟨reachable_shelf, Outcome.eq_ok_of_toOption (by decide +kernel),
    Outcome.eq_ok_of_toOption (by decide +kernel)⟩

end FirstFound

end Entity
end DataAccess
