import DataAccess.Proofs.Memory.Reachable
import DataAccess.Proofs.Value.Compare

/-!
Rows told apart by their keys. Only inserting compares keys, so keys stay apart as long as no update
assigns to one; an update that does may leave two rows of one key.
-/
namespace DataAccess

namespace Mapping

variable {m : Mapping}

/-- The cells of a row's key. -/
def keyOf (m : Mapping) (row : Row) : List Value := m.primaryKeys.map row.cell

/-- Whether one of the values is for a column of the key. -/
def assignsKey (m : Mapping) (values : Assignments) : Bool :=
  values.any fun a => match m.find a.1 with
    | .ok (_, c) => c.primaryKey
    | .error _ => false

theorem mem_primaryKeys {i : Nat} :
    i ∈ m.primaryKeys ↔ ∃ c, m.columns[i]? = some c ∧ c.primaryKey = true := by
  simp [primaryKeys, List.mem_zipIdx_iff_getElem?]

theorem not_mem_primaryKeys {i : Nat} {c : Column} (hc : m.columns[i]? = some c)
    (free : c.primaryKey = false) : i ∉ m.primaryKeys := by
  intro mem
  obtain ⟨c', hc', key⟩ := mem_primaryKeys.mp mem
  obtain rfl : c = c' := Option.some.inj (hc.symm.trans hc')
  simp [free] at key

/-- Where no value is for the key, the values found are for places outside it. -/
theorem outside_of_assignsKey {values : Assignments} (free : m.assignsKey values = false)
    {a : String × Value} (mem : a ∈ values) {i : Nat} {c : Column}
    (found : m.find a.1 = .ok (i, c)) : i ∉ m.primaryKeys := by
  have unkeyed := List.any_eq_false.mp free a mem
  rw [found] at unkeyed
  exact not_mem_primaryKeys (getElem?_of_find found) (by simpa using unkeyed)

/-- No two rows have one key, where there is one. -/
def KeysApart (m : Mapping) (rows : List Row) : Prop :=
  m.primaryKeys ≠ [] → (rows.map m.keyOf).Pairwise fun a b => (a == b) = false

theorem KeysApart.nil (m : Mapping) : m.KeysApart [] := fun _ => .nil

theorem KeysApart.of_sublist {rows kept : List Row} (apart : m.KeysApart rows)
    (fewer : (kept.map m.keyOf).Sublist (rows.map m.keyOf)) : m.KeysApart kept :=
  fun keyed => (apart keyed).sublist fewer

theorem KeysApart.concat {rows : List Row} (apart : m.KeysApart rows) {row : Row}
    (fresh : m.primaryKeys ≠ [] → ∀ r ∈ rows, (m.keyOf r == m.keyOf row) = false) :
    m.KeysApart (rows ++ [row]) := by
  intro keyed
  rw [List.map_append, List.pairwise_append]
  refine ⟨apart keyed, List.pairwise_singleton _ _, fun a ha b hb => ?_⟩
  obtain ⟨r, hr, rfl⟩ := List.mem_map.mp ha
  obtain rfl : b = m.keyOf row := by simpa using hb
  exact fresh keyed r hr

end Mapping

namespace Memory

namespace Tables

variable {t t' : Tables} {m : Mapping} {schema : String → Mapping}

theorem sameKeys_eq (m : Mapping) (a b : Row) :
    sameKeys m.primaryKeys a b = (m.keyOf a == m.keyOf b) := by
  unfold sameKeys Mapping.keyOf
  induction m.primaryKeys with
  | nil => rfl
  | cons k rest ih =>
    rw [List.all_cons, ih]
    rfl

theorem sameKeys_comm (keys : List Nat) (a b : Row) : sameKeys keys a b = sameKeys keys b a :=
  congrArg keys.all (funext fun _ => Value.beq_comm _ _)

theorem insert_keysApart (each : t.Each Mapping.KeysApart schema)
    (used : schema m.table.fullName = m) {row : Row} (h : t.insert m row = .ok t') :
    t'.Each Mapping.KeysApart schema := by
  obtain ⟨stored, rows, -, hr, fresh, rfl⟩ := exists_of_insert h
  refine each.put used ((each.rows used hr).concat fun keyed r mem => ?_)
  rw [← sameKeys_eq]
  exact fresh keyed r mem

/-- Cells assigned outside the key leave it. -/
theorem keyOf_assign {cells : List (Nat × Value)} (outside : ∀ e ∈ cells, e.1 ∉ m.primaryKeys)
    (row : Row) : m.keyOf (assign row cells) = m.keyOf row := by
  unfold assign
  induction cells generalizing row with
  | nil => rfl
  | cons e rest ih =>
    obtain ⟨first, others⟩ := List.forall_mem_cons.mp outside
    rw [List.foldl_cons, ih others]
    refine List.map_congr_left fun k hk => ?_
    have ne : e.1 ≠ k := fun h => first (h ▸ hk)
    simp [Row.cell, List.getD_eq_getElem?_getD, List.getElem?_set_ne ne]

/-- Keys are as they were where each row keeps its own. -/
theorem keyOf_zipWith_sublist {f : Row → Bool → Row} (kept : ∀ row hit, m.keyOf (f row hit) =
    m.keyOf row) (rows : List Row) (hits : List Bool) :
    ((List.zipWith f rows hits).map m.keyOf).Sublist (rows.map m.keyOf) := by
  induction rows generalizing hits with
  | nil => simp
  | cons row rest ih =>
    cases hits with
    | nil => exact List.nil_sublist _
    | cons hit hits =>
      simp only [List.zipWith_cons_cons, List.map_cons, kept]
      exact (ih hits).cons_cons _

theorem update_keysApart (each : t.Each Mapping.KeysApart schema)
    (used : schema m.table.fullName = m) {c : Criteria} {values : Assignments}
    (free : m.assignsKey values = false) {n : Nat} (h : t.update m c values = .ok (n, t')) :
    t'.Each Mapping.KeysApart schema := by
  obtain ⟨cells, rows, hits, -, hcells, hr, -, -, rfl⟩ := exists_of_update h
  have outside : ∀ e ∈ cells, e.1 ∉ m.primaryKeys := by
    intro e he
    obtain ⟨a, mem, column, found, -⟩ := hcells e he
    exact Mapping.outside_of_assignsKey free mem found
  have kept (row : Row) (hit : Bool) :
      m.keyOf (if hit then assign row cells else row) = m.keyOf row := by
    cases hit with
    | true => exact keyOf_assign outside row
    | false => rfl
  exact each.put used ((each.rows used hr).of_sublist (keyOf_zipWith_sublist kept rows hits))

end Tables

/-- Whether the operation assigns to a key. -/
def Operation.assignsKey : Operation → Bool
  | .update m _ values => m.assignsKey values
  | .updateBatch m items => items.any fun item => m.assignsKey item.2
  | _ => false

variable {schema : String → Mapping} {s : Memory}

theorem Operation.Makes.keysApart {t t' : Tables} {o : Operation} (made : o.Makes t t')
    (used : ∀ m, o.mapping? = some m → schema m.table.fullName = m) (free : o.assignsKey = false)
    (each : t.Each Mapping.KeysApart schema) : t'.Each Mapping.KeysApart schema := by
  induction made with
  | createTable done => exact each.create (used _ rfl) (.nil _) done
  | dropTable done => exact each.drop done
  | insert width done => exact Tables.insert_keysApart each (used _ rfl) done
  | update done => exact Tables.update_keysApart each (used _ rfl) free done
  | delete done =>
    exact each.delete (used _ rfl) (fun _ _ apart fewer => apart.of_sublist (fewer.map _)) done
  | deleteAll done => exact each.deleteAll (used _ rfl) (.nil _) done
  | insertBatch _ _ ih => exact ih used rfl each
  | updateBatch mem _ ih =>
    exact ih used (Bool.eq_false_iff.mpr (List.any_eq_false.mp free _ mem)) each

/-- Where no update assigns to a key, no two rows of a table are equal in all columns of its key,
whatever else was done. -/
theorem ReachedBy.keys_apart (h : s.ReachedBy (fun o => o.assignsKey = false) schema)
    {name : String} {rows : List Row} (stored : s.tables.find? name = some rows)
    (keyed : (schema name).primaryKeys ≠ []) {i j : Nat} (hi : i < rows.length)
    (hj : j < rows.length) (ne : i ≠ j) :
    ∃ k ∈ (schema name).primaryKeys, (rows[i].cell k == rows[j].cell k) = false := by
  obtain ⟨t, ⟨ht, -⟩, each⟩ := h.meets .nil fun o free used _ _ made => made.keysApart used free
  have apart := each name rows (ht ▸ stored) keyed
  rw [List.pairwise_map, List.pairwise_iff_getElem] at apart
  have differ : Tables.sameKeys (schema name).primaryKeys rows[i] rows[j] = false := by
    rcases Nat.lt_or_gt_of_ne ne with lt | gt
    · exact (Tables.sameKeys_eq ..).trans (apart i j hi hj lt)
    · rw [Tables.sameKeys_comm]
      exact (Tables.sameKeys_eq ..).trans (apart j i hj hi gt)
  obtain ⟨k, hk, hne⟩ := List.all_eq_false.mp differ
  exact ⟨k, hk, Bool.eq_false_iff.mpr hne⟩

theorem keys_apart_bank : ∃ k ∈ accounts.primaryKeys,
    (annsAccount.cell k == renamedAccount.cell k) = false := by
  have reached : bank.ReachedBy (fun o => o.assignsKey = false) fun _ => accounts :=
    reachedBy_ofOperations _ (by decide) (by decide +kernel)
  exact reached.keys_apart stored_bank (by decide) (i := 0) (j := 1) (by simp) (by simp) (by simp)

/-- The second account takes the number of the first. -/
def renumbering : Operation :=
  .update accounts (.allOf [.test "id" (.equal (.of (.int32 8))) true]) [("id", .of (.int32 7))]

/-- An update that assigns to the key is done, and two rows have one key. -/
theorem keys_shared_renumbering : ∃ s : Memory, s.Reachable (fun _ => accounts) ∧
    ∃ first second, s.tables.find? "accounts" = some [first, second] ∧
      ∀ k ∈ accounts.primaryKeys, (first.cell k == second.cell k) = true := by
  have used : ∀ m, renumbering.mapping? = some m → accounts = m := fun _ h => Option.some.inj h
  refine ⟨_, reachable_bank.after renumbering [] used, annsAccount,
    renamedAccount.set 0 (.of (.int32 7)), ?_, ?_⟩
  · decide +kernel
  · decide +kernel

end Memory
end DataAccess
