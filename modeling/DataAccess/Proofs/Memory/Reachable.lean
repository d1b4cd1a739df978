import DataAccess.Proofs.Memory.Actions

/-!
What a storage in process holds after any operations. The changes that an operation makes to the
tables are said once; what they all keep holds of every state. So rows are rows of their mapping,
where each table is used through one.
-/
namespace DataAccess.Memory

/-- What can be asked of a storage, with its own tables or with a query compiled before. -/
inductive Operation where
  | createTable (m : Mapping) (ifNotExists : Bool)
  | dropTable (m : Mapping) (ifExists : Bool)
  | insert (m : Mapping) (row : Row)
  | insertBatch (m : Mapping) (rows : List Row)
  | update (m : Mapping) (c : Criteria) (values : Assignments)
  | updateBatch (m : Mapping) (items : List (Criteria × Assignments))
  | delete (m : Mapping) (c : Criteria)
  | deleteAll (m : Mapping)
  | compileQuery (m : Mapping) (c : Criteria)
  | execute {β : Type} (q : Query) (receive : Receiver β) (start : β)
  | dispose (q : Query)
  | count (m : Mapping) (c : Criteria)
  | countGrouped (m : Mapping) (c : Criteria) (groupBy : List String)

namespace Operation

/-- The mapping a table is used through. -/
def mapping? : Operation → Option Mapping
  | .createTable m _ | .dropTable m _ | .insert m _ | .insertBatch m _ | .update m _ _
  | .updateBatch m _ | .delete m _ | .deleteAll m | .compileQuery m _ | .count m _
  | .countGrouped m _ _ => some m
  | .execute q _ _ => q.mapping
  | .dispose _ => none

/-- The operation, whatever comes of it. -/
def run (d : Descriptor) : Operation → Effect Memory Unit
  | .createTable m ifNotExists => discard ((backend d).createTable m ifNotExists).run
  | .dropTable m ifExists => discard ((backend d).dropTable m ifExists).run
  | .insert m row => discard ((backend d).insert m row).run
  | .insertBatch m rows => discard ((backend d).insertBatch m rows).run
  | .update m c values => discard ((backend d).update m c values).run
  | .updateBatch m items => discard ((backend d).updateBatch m items).run
  | .delete m c => discard ((backend d).delete m c).run
  | .deleteAll m => discard ((backend d).deleteAll m).run
  | .compileQuery m c => discard ((backend d).compileQuery m c).run
  | .execute q receive start => discard ((backend d).execute q receive start)
  | .dispose q => (backend d).dispose q
  | .count m c => discard ((backend d).count m c).run
  | .countGrouped m c groupBy => discard ((backend d).countGrouped m c groupBy).run

/-- Whether the operation does others, item by item. -/
def isBatch : Operation → Bool
  | .insertBatch .. | .updateBatch .. => true
  | _ => false

/-- Whether an action ends well, or in which failure. -/
def ending {α : Type} (a : Action Memory α) : Effect Memory (Outcome Unit) := do
  pure ((← a.run).map fun _ => ())

/-- The operation and what it ends in. -/
def outcome (d : Descriptor) : Operation → Effect Memory (Outcome Unit)
  | .createTable m ifNotExists => ending ((backend d).createTable m ifNotExists)
  | .dropTable m ifExists => ending ((backend d).dropTable m ifExists)
  | .insert m row => ending ((backend d).insert m row)
  | .insertBatch m rows => ending ((backend d).insertBatch m rows)
  | .update m c values => ending ((backend d).update m c values)
  | .updateBatch m items => ending ((backend d).updateBatch m items)
  | .delete m c => ending ((backend d).delete m c)
  | .deleteAll m => ending ((backend d).deleteAll m)
  | .compileQuery m c => ending ((backend d).compileQuery m c)
  | .execute q receive start => do pure (← (backend d).execute q receive start).2
  | .dispose q => do
    (backend d).dispose q
    pure (.ok ())
  | .count m c => ending ((backend d).count m c)
  | .countGrouped m c groupBy => ending ((backend d).countGrouped m c groupBy)

theorem run_eq_outcome (d : Descriptor) (o : Operation) (env : Env Memory) :
    (o.run d env).2 = (o.outcome d env).2 := by
  cases o <;> rfl

/-- What the operation does to the tables when it succeeds; a batch does what its items do. -/
inductive Makes : Operation → Tables → Tables → Prop where
  | createTable {m : Mapping} {ifNotExists : Bool} {t t' : Tables}
      (done : t.create m ifNotExists = .ok t') : Makes (.createTable m ifNotExists) t t'
  | dropTable {m : Mapping} {ifExists : Bool} {t t' : Tables}
      (done : t.drop m ifExists = .ok t') : Makes (.dropTable m ifExists) t t'
  | insert {m : Mapping} {row : Row} {t t' : Tables} (width : row.length = m.columns.length)
      (done : t.insert m row = .ok t') : Makes (.insert m row) t t'
  | insertBatch {m : Mapping} {rows : List Row} {row : Row} {t t' : Tables} (mem : row ∈ rows)
      (made : Makes (.insert m row) t t') : Makes (.insertBatch m rows) t t'
  | update {m : Mapping} {c : Criteria} {values : Assignments} {n : Nat} {t t' : Tables}
      (done : t.update m c values = .ok (n, t')) : Makes (.update m c values) t t'
  | updateBatch {m : Mapping} {items : List (Criteria × Assignments)}
      {item : Criteria × Assignments} {t t' : Tables} (mem : item ∈ items)
      (made : Makes (.update m item.1 item.2) t t') : Makes (.updateBatch m items) t t'
  | delete {m : Mapping} {c : Criteria} {n : Nat} {t t' : Tables}
      (done : t.delete m c = .ok (n, t')) : Makes (.delete m c) t t'
  | deleteAll {m : Mapping} {n : Nat} {t t' : Tables}
      (done : t.deleteAll m = .ok (n, t')) : Makes (.deleteAll m) t t'

/-- It fails and leaves the tables alone, or it succeeds and makes its change, if it has one. -/
def Ends (o : Operation) (t : Tables) : Outcome Unit → Memory → Prop :=
  Tried t fun r t' => r = .ok () ∧ (t' = t ∨ o.Makes t t')

variable {α : Type} {t : Tables} {o : Operation}

theorem ending_leads {P : Memory → Prop} {a : Action Memory α} {Q : Outcome α → Memory → Prop}
    {R : Outcome Unit → Memory → Prop} (h : Action.Leads P a Q)
    (post : ∀ r s, Q r s → R (r.map fun _ => ()) s) : Effect.Leads P (ending a) R :=
  fun s log hs => post _ _ (h s log hs)

theorem ends_of_holds {r : Outcome Unit} {s : Memory} (h : Holds t s) : o.Ends t r s := by
  cases r with
  | ok _ => exact ⟨t, h, Or.inl ⟨rfl, Or.inl rfl⟩⟩
  | error f => exact ⟨t, h, Or.inr ⟨f, rfl, rfl⟩⟩

theorem ends_of_tried {did : Outcome α → Tables → Prop}
    (made : ∀ r t', did r t' → (∃ a, r = .ok a) ∧ o.Makes t t') {r : Outcome α} {s : Memory}
    (h : Tried t did r s) : o.Ends t (r.map fun _ => ()) s := by
  obtain ⟨t', h', hdid | ⟨f, rfl, rfl⟩⟩ := h
  · obtain ⟨⟨a, rfl⟩, hmade⟩ := made r t' hdid
    exact ⟨t', h', Or.inl ⟨rfl, Or.inr hmade⟩⟩
  · exact ⟨t', h', Or.inr ⟨f, rfl, rfl⟩⟩

end Operation

section

variable {t : Tables}

/-- A row of another width has no statement. -/
theorem width_of_writable {m : Mapping} {row : Row} (writable : Writable (.insert m row)) :
    row.length = m.columns.length := by
  obtain ⟨ps, hps⟩ := writable
  by_contra hw
  simp [Statement.pieces, Sql.insert, hw] at hps

theorem insert_leads (m : Mapping) (row : Row) :
    Action.Leads (Holds t) (insert m row) (Tried t fun r t' =>
      (∃ n, r = .ok (.ofRows n)) ∧ (Operation.insert m row).Makes t t') := by
  refine (change_leads _ _).mono (fun _ h => h) fun r s ⟨t', h', hd⟩ => ⟨t', h', hd.imp ?_ id⟩
  intro ⟨n, hr, writable, hc⟩
  simp only [Outcome.bind_eq_ok, Outcome.pure_eq_ok, Prod.mk.injEq] at hc
  obtain ⟨t'', ht'', -, rfl⟩ := hc
  exact ⟨⟨n, hr⟩, .insert (width_of_writable writable) ht''⟩

theorem update_leads (m : Mapping) (c : Criteria) (values : Assignments) :
    Action.Leads (Holds t) (update m c values) (Tried t fun r t' =>
      (∃ n, r = .ok (.ofRows n)) ∧ (Operation.update m c values).Makes t t') :=
  (change_leads _ _).mono (fun _ h => h) fun _ _ ⟨t', h', hd⟩ =>
    ⟨t', h', hd.imp (fun ⟨n, hr, _, hc⟩ => ⟨⟨n, hr⟩, .update hc⟩) id⟩

/-- What comes of an operation that is no batch. -/
theorem Operation.outcome_leads (d : Descriptor) (o : Operation) (single : o.isBatch = false) :
    Effect.Leads (Holds t) (o.outcome d) (o.Ends t) := by
  cases o with
  | createTable m ifNotExists =>
    exact ending_leads (define_leads _ _) fun _ _ =>
      ends_of_tried fun _ _ ⟨hr, _, hc⟩ => ⟨⟨_, hr⟩, .createTable hc⟩
  | dropTable m ifExists =>
    exact ending_leads (define_leads _ _) fun _ _ =>
      ends_of_tried fun _ _ ⟨hr, _, hc⟩ => ⟨⟨_, hr⟩, .dropTable hc⟩
  | insert m row =>
    exact ending_leads (insert_leads m row) fun _ _ =>
      ends_of_tried fun _ _ ⟨⟨_, hr⟩, made⟩ => ⟨⟨_, hr⟩, made⟩
  | update m c values =>
    exact ending_leads (update_leads m c values) fun _ _ =>
      ends_of_tried fun _ _ ⟨⟨_, hr⟩, made⟩ => ⟨⟨_, hr⟩, made⟩
  | delete m c =>
    exact ending_leads (change_leads _ _) fun _ _ =>
      ends_of_tried fun _ _ ⟨_, hr, _, hc⟩ => ⟨⟨_, hr⟩, .delete hc⟩
  | deleteAll m =>
    exact ending_leads (change_leads _ _) fun _ _ =>
      ends_of_tried fun _ _ ⟨_, hr, _, hc⟩ => ⟨⟨_, hr⟩, .deleteAll hc⟩
  | compileQuery m c => exact ending_leads (compileQuery_leads m c) fun _ _ h => ends_of_holds h.2
  | execute q receive start =>
    exact fun s log h => ends_of_holds (execute_leads q receive start s log h)
  | dispose q =>
    exact fun s log h => ends_of_holds (QueryPool.release_leads (apart_holds_eq t) q s log h)
  | count m c => exact ending_leads (count_leads m c) fun _ _ h => ends_of_holds h
  | countGrouped m c groupBy =>
    exact ending_leads (countGrouped_leads m c groupBy) fun _ _ h => ends_of_holds h
  | insertBatch m rows => simp [isBatch] at single
  | updateBatch m items => simp [isBatch] at single

end

/-- The tables are as said, and the pool is fit for use. -/
def Meets (I : Tables → Prop) (s : Memory) : Prop := ∃ t, Holds t s ∧ I t

section

variable {I : Tables → Prop}

theorem oneByOne_keeps {β : Type} {P : Memory → Prop} {change : β → Action Memory Affected}
    {items : List β} (each : ∀ item ∈ items, Action.Leads P (change item) fun _ => P) :
    Action.Leads P (Backend.oneByOne change items) fun _ => P := by
  unfold Backend.oneByOne
  generalize Affected.ofRows 0 = sum
  induction items generalizing sum with
  | nil => exact fun s log hs => hs
  | cons item rest ih =>
    obtain ⟨first, others⟩ := List.forall_mem_cons.mp each
    rw [List.foldlM_cons]
    have step : Action.Leads P (do return sum.append (← change item)) fun _ => P :=
      first.bind (fun _ _ _ hs => hs) fun _ _ h => h
    exact step.bind (ih others) fun _ _ h => h

/-- What every change of an operation keeps, the operation keeps. -/
theorem Operation.keeps (d : Descriptor) (o : Operation)
    (step : ∀ t t', o.Makes t t' → I t → I t') :
    Effect.Leads (Meets I) (o.run d) fun _ => Meets I := by
  have tried {α : Type} {a : Action Memory α} {did : Tables → Outcome α → Tables → Prop}
      (leads : ∀ t, Action.Leads (Holds t) a (Tried t (did t)))
      (made : ∀ t r t', did t r t' → o.Makes t t') :
      Action.Leads (Meets I) a fun _ => Meets I := by
    intro s log ⟨t, h, ht⟩
    obtain ⟨t', h', hdid | ⟨f, -, rfl⟩⟩ := leads t s log h
    · exact ⟨t', h', step t t' (made t _ t' hdid) ht⟩
    · exact ⟨t', h', ht⟩
  by_cases single : o.isBatch = false
  · intro s log ⟨t, h, ht⟩
    rw [run_eq_outcome]
    obtain ⟨t', h', ⟨-, rfl | made⟩ | ⟨f, -, rfl⟩⟩ := o.outcome_leads d single s log h
    · exact ⟨t', h', ht⟩
    · exact ⟨t', h', step t t' made ht⟩
    · exact ⟨t', h', ht⟩
  · cases o with
    | insertBatch m rows =>
      exact oneByOne_keeps fun row hrow =>
        tried (fun _ => insert_leads m row) fun _ _ _ h => .insertBatch hrow h.2
    | updateBatch m items =>
      exact oneByOne_keeps fun item hitem =>
        tried (fun _ => update_leads m item.1 item.2) fun _ _ _ h => .updateBatch hitem h.2
    | _ => exact (single rfl).elim

end

/-- States after any operations, each table being used through the mapping of the schema. -/
inductive Reachable (schema : String → Mapping) : Memory → Prop where
  | opened (d : Descriptor) : Reachable schema (ofDescriptor d)
  | after {s : Memory} (o : Operation) (log : List LogRecord) (before : Reachable schema s)
      (used : ∀ m, o.mapping? = some m → schema m.table.fullName = m) :
      Reachable schema (o.run s.descriptor ⟨s, log⟩).2.state

/-- The rows of each table fit its mapping. -/
def Sound (schema : String → Mapping) (s : Memory) : Prop :=
  ∃ t, Holds t s ∧ t.Sound schema

variable {schema : String → Mapping} {may : Operation → Prop} {s : Memory}

/-- States after some operations only. -/
inductive ReachedBy (may : Operation → Prop) (schema : String → Mapping) : Memory → Prop where
  | opened (d : Descriptor) : ReachedBy may schema (ofDescriptor d)
  | after {s : Memory} (o : Operation) (log : List LogRecord) (before : ReachedBy may schema s)
      (used : ∀ m, o.mapping? = some m → schema m.table.fullName = m) (allowed : may o) :
      ReachedBy may schema (o.run s.descriptor ⟨s, log⟩).2.state

theorem Reachable.reachedBy (h : s.Reachable schema) : s.ReachedBy (fun _ => True) schema := by
  induction h with
  | opened d => exact .opened d
  | after o log before used ih => exact .after o log ih used trivial

theorem ReachedBy.reachable (h : s.ReachedBy may schema) : s.Reachable schema := by
  induction h with
  | opened d => exact .opened d
  | after o log before used allowed ih => exact .after o log ih used

/-- What holds without tables, and is kept by every change, holds of every state. -/
theorem ReachedBy.meets {I : Tables → Prop} (h : s.ReachedBy may schema) (empty : I [])
    (step : ∀ o, may o → (∀ m, o.mapping? = some m → schema m.table.fullName = m) →
      ∀ t t', o.Makes t t' → I t → I t') : s.Meets I := by
  induction h with
  | opened d => exact ⟨[], ⟨rfl, rfl⟩, empty⟩
  | after o log before used allowed ih => exact o.keeps _ (step o allowed used) _ log ih

theorem Operation.Makes.sound {t t' : Tables} {o : Operation} (made : o.Makes t t')
    (used : ∀ m, o.mapping? = some m → schema m.table.fullName = m) (sound : t.Sound schema) :
    t'.Sound schema := by
  have empty (m : Mapping) : ∀ row ∈ ([] : List Row), m.Fits row := by simp
  have each := Tables.sound_iff.mp sound
  induction made with
  | createTable done => exact each.create (used _ rfl) (empty _) done
  | dropTable done => exact each.drop done
  | insert width done => exact sound.insert (used _ rfl) width done
  | update done => exact sound.update (used _ rfl) done
  | delete done =>
    exact each.delete (used _ rfl) (fun _ _ fits fewer row hrow =>
      fits row (fewer.subset hrow)) done
  | deleteAll done => exact each.deleteAll (used _ rfl) (empty _) done
  | insertBatch _ _ ih => exact ih used sound each
  | updateBatch _ _ ih => exact ih used sound each

/-- Whatever was done, rows fit their mappings. -/
theorem Reachable.sound (h : s.Reachable schema) : s.Sound schema :=
  h.reachedBy.meets (Tables.sound_iff.mpr .nil) fun _ _ used _ _ made => made.sound used

/-- A stored row has a cell for each column, of the column's kind where it has one, and NULL only
where that is allowed, whatever values were passed. -/
theorem Reachable.stored_fits (h : s.Reachable schema) {name : String} {rows : List Row}
    (stored : s.tables.find? name = some rows) {row : Row} (mem : row ∈ rows) :
    row.length = (schema name).columns.length ∧
      ∀ i c, (schema name).columns[i]? = some c →
        (c.kind = none ∨ (row.cell i).kind = c.kind) ∧
          (c.nullable = false → (row.cell i).isNull = false) := by
  obtain ⟨t, ⟨ht, -⟩, sound⟩ := h.sound
  have fits : (schema name).Fits row := sound name rows (ht ▸ stored) row mem
  refine ⟨fits.length_eq.symm, fun i c hc => ?_⟩
  have fit := Mapping.fits_cell fits hc
  constructor
  · cases hk : c.kind with
    | none => exact Or.inl rfl
    | some k => exact Or.inr (fit.kind k hk)
  · intro required
    by_contra null
    simp [fit.nullable (by simpa using null)] at required

/-- The state after a list of operations. -/
def ofOperations (d : Descriptor) (ops : List Operation) : Memory :=
  ops.foldl (fun s o => (o.run s.descriptor ⟨s, []⟩).2.state) (.ofDescriptor d)

theorem reachedBy_ofOperations (d : Descriptor) {m : Mapping} {ops : List Operation}
    (used : ∀ o ∈ ops, o.mapping? = some m) (allowed : ∀ o ∈ ops, may o) :
    (ofOperations d ops).ReachedBy may fun _ => m := by
  have start : (ofDescriptor d).ReachedBy may fun _ => m := .opened d
  unfold ofOperations
  generalize ofDescriptor d = s at start
  induction ops generalizing s with
  | nil => exact start
  | cons o rest ih =>
    obtain ⟨uses, used⟩ := List.forall_mem_cons.mp used
    obtain ⟨allows, allowed⟩ := List.forall_mem_cons.mp allowed
    refine ih used allowed _ (.after o [] start (fun m' hm => ?_) allows)
    exact Option.some.inj (uses.symm.trans hm)

theorem reachable_ofOperations (d : Descriptor) {m : Mapping} {ops : List Operation}
    (used : ∀ o ∈ ops, o.mapping? = some m) : (ofOperations d ops).Reachable fun _ => m := by
  have reached : (ofOperations d ops).ReachedBy (fun _ => True) fun _ => m :=
    reachedBy_ofOperations d used fun _ _ => trivial
  exact reached.reachable

section Accounts

/-- Accounts of an owner, with a balance and a remark of any kind. -/
def accounts : Mapping := ⟨⟨"", "accounts"⟩,
  [.key "id" "id" .int32, .required "owner" "owner" .varchar, .optional "balance" "sum" .decimal,
    ⟨"remark", "remark", none, true, false⟩]⟩

/-- Two accounts are opened and one is renamed, after some attempts. -/
def bookkeeping : List Operation :=
  [.createTable accounts false,
    .insert accounts [.of (.varchar "7"), .of (.varchar "ann"), .of (.varchar "12.125"),
      .of (.boolean true)],
    .insert accounts [.of (.int32 8), .null none, .null none, .null none],
    .insertBatch accounts [[.of (.int64 8), .of (.int32 5), .of (.varchar "1.50"), .null none],
      [.of (.int64 7), .of (.varchar "eve"), .null none, .null none]],
    .update accounts (.allOf [.test "id" (.equal (.of (.int32 8))) true])
      [("owner", .of (.uuid ⟨0⟩)), ("remark", .of (.int64 3))]]

def bank : Memory := ofOperations ⟨"memory", "bank", [], 4, 5000⟩ bookkeeping

theorem reachable_bank : bank.Reachable fun _ => accounts :=
  reachable_ofOperations _ (by decide)

/-- The two accounts as they are stored. -/
def annsAccount : Row := [.of (.int32 7), .of (.varchar "ann"),
  .of (.decimal ⟨false, 12125, 3, by decide, by decide⟩), .of (.boolean true)]

def renamedAccount : Row := [.of (.int32 8), .of (.varchar "00000000-0000-0000-0000-000000000000"),
  .of (.decimal ⟨false, 150, 2, by decide, by decide⟩), .of (.int64 3)]

theorem stored_bank : bank.tables.find? "accounts" = some [annsAccount, renamedAccount] := by
  decide +kernel

theorem stored_fits_bank : renamedAccount.length = accounts.columns.length ∧
    ∀ i c, accounts.columns[i]? = some c →
      (c.kind = none ∨ (renamedAccount.cell i).kind = c.kind) ∧
        (c.nullable = false → (renamedAccount.cell i).isNull = false) :=
  reachable_bank.stored_fits stored_bank (by simp)

end Accounts

end DataAccess.Memory
