import DataAccess.Proofs.Memory.Reachable
import DataAccess.Proofs.Pool.Fresh

/-!
What an operation gives depends on the rows of its table, and on nothing else that was done before.
-/
namespace DataAccess.Memory

namespace Operation

/-- What is given by an operation. -/
def Result : Operation → Type
  | .createTable .. | .dropTable .. => Outcome Unit
  | .insert .. | .insertBatch .. | .update .. | .updateBatch .. | .delete .. | .deleteAll _ =>
    Outcome Affected
  | .compileQuery .. => Outcome Query
  | @execute β _ _ _ => β × Outcome Unit
  | .dispose _ => Unit
  | .count .. => Outcome Nat
  | .countGrouped .. => Outcome (List GroupCount)

def perform {σ : Type} (b : Backend σ) : (o : Operation) → Effect σ o.Result
  | .createTable m ifNotExists => (b.createTable m ifNotExists).run
  | .dropTable m ifExists => (b.dropTable m ifExists).run
  | .insert m row => (b.insert m row).run
  | .insertBatch m rows => (b.insertBatch m rows).run
  | .update m c values => (b.update m c values).run
  | .updateBatch m items => (b.updateBatch m items).run
  | .delete m c => (b.delete m c).run
  | .deleteAll m => (b.deleteAll m).run
  | .compileQuery m c => (b.compileQuery m c).run
  | .execute q receive start => b.execute q receive start
  | .dispose q => b.dispose q
  | .count m c => (b.count m c).run
  | .countGrouped m c groupBy => (b.countGrouped m c groupBy).run

theorem run_eq_perform (d : Descriptor) (o : Operation) (env : Env Memory) :
    (o.run d env).2 = (o.perform (backend d) env).2 := by
  cases o <;> rfl

end Operation

namespace Change

variable {α β : Type} {S : α → α → Prop} {T : β → β → Prop}

/-- Two changes are refused for the same reason, or done alike. -/
inductive Like (S : α → α → Prop) : Change α → Change α → Prop where
  | refused (r : Refusal) : Like S (.error r) (.error r)
  | done {a a' : α} (h : S a a') : Like S (.ok a) (.ok a')

theorem Like.bind {x x' : Change α} {f f' : α → Change β} (hx : Like S x x')
    (hf : ∀ a a', S a a' → Like T (f a) (f' a')) : Like T (x >>= f) (x' >>= f') := by
  cases hx with
  | refused r => exact .refused r
  | done h => exact hf _ _ h

/-- The same step comes first. -/
theorem Like.onward {x : Change α} {f f' : α → Change β} (hf : ∀ a, Like T (f a) (f' a)) :
    Like T (x >>= f) (x >>= f') := by
  cases x with
  | ok a => exact hf a
  | error r => exact .refused r

end Change

namespace Tables

variable {t t' : Tables} {m : Mapping} {n : String}

/-- One table is the same. -/
def Same (n : String) (t t' : Tables) : Prop := t.find? n = t'.find? n

theorem same_put (n : String) (rows : List Row) : Same n (t.put n rows) (t'.put n rows) := by
  rw [Same, Keyed.find?_put_self, Keyed.find?_put_self]

variable (same : Same m.table.fullName t t')

section

include same

theorem Same.rows_eq : t.rows m = t'.rows m := by
  rw [Tables.rows, Tables.rows, same]

theorem Same.create_like (ifNotExists : Bool) :
    Change.Like (Same m.table.fullName) (t.create m ifNotExists) (t'.create m ifNotExists) := by
  unfold Tables.create
  rw [← same]
  cases t.find? m.table.fullName with
  | none => exact .done (same_put _ [])
  | some rows =>
    cases ifNotExists with
    | true => exact .done same
    | false => exact .refused _

theorem Same.drop_like (ifExists : Bool) :
    Change.Like (Same m.table.fullName) (t.drop m ifExists) (t'.drop m ifExists) := by
  unfold Tables.drop
  rw [← same]
  cases t.find? m.table.fullName with
  | some rows =>
    refine .done ?_
    rw [Same, Keyed.find?_erase, Keyed.find?_erase]
    simp
  | none =>
    cases ifExists with
    | true => exact .done same
    | false => exact .refused _

end

/-- The same rows are counted, and one table is the same. -/
def SameCounted (n : String) (x x' : Nat × Tables) : Prop := x.1 = x'.1 ∧ Same n x.2 x'.2

include same

theorem Same.insert_like (row : Row) : Change.Like (SameCounted m.table.fullName)
    (do pure (1, ← t.insert m row)) (do pure (1, ← t'.insert m row)) := by
  have inserted : Change.Like (Same m.table.fullName) (t.insert m row) (t'.insert m row) := by
    unfold Tables.insert
    rw [← same.rows_eq]
    refine .onward fun stored => .onward fun rows => ?_
    split
    · exact .refused _
    · exact .done (same_put ..)
  exact inserted.bind fun _ _ h => .done ⟨rfl, h⟩

theorem Same.update_like (c : Criteria) (values : Assignments) :
    Change.Like (SameCounted m.table.fullName) (t.update m c values) (t'.update m c values) := by
  unfold Tables.update
  rw [← same.rows_eq]
  refine .onward fun _ => .onward fun cells => .onward fun rows => .onward fun hits => ?_
  exact .done ⟨rfl, same_put ..⟩

theorem Same.delete_like (c : Criteria) :
    Change.Like (SameCounted m.table.fullName) (t.delete m c) (t'.delete m c) := by
  unfold Tables.delete
  rw [← same.rows_eq]
  refine .onward fun _ => .onward fun rows => .onward fun hits => ?_
  exact .done ⟨rfl, same_put ..⟩

theorem Same.deleteAll_like :
    Change.Like (SameCounted m.table.fullName) (t.deleteAll m) (t'.deleteAll m) := by
  unfold Tables.deleteAll
  rw [← same.rows_eq]
  exact .onward fun rows => .done ⟨rfl, same_put ..⟩

end Tables

/-- One table is the same, and the queries at hand are as new. -/
structure Agree (n : String) (env env' : Env Memory) : Prop where
  rows : Tables.Same n env.state.tables env'.state.tables
  fresh : env.state.queries.Fresh Query.blank
  fresh' : env'.state.queries.Fresh Query.blank

section

variable {n : String} {m : Mapping} {α β : Type} {q : Query}

theorem tidy_queries : Pool.Tidy Query.blank queriesPlace (Agree n) where
  same _ := rfl
  fresh _ _ h := ⟨h.fresh, h.fresh'⟩
  kept _ hf _ _ h := ⟨h.rows, hf _ h.fresh, hf _ h.fresh'⟩

theorem logs_agree : Effect.Logs (Agree n) := fun _ _ _ _ h => ⟨h.rows, h.fresh, h.fresh'⟩

theorem statement_alike {s : Statement} {work work' : Query → Action Memory α}
    (each : ∀ q, Action.Alike (Agree n) (work q) (work' q)) :
    Action.Alike (Agree n) (statement s work) (statement s work') :=
  QueryPool.during_alike tidy_queries fun q =>
    (Action.Alike.effect (.log logs_agree .debug q.display)).bind fun _ => each q

theorem refused_alike {S : α → α → Prop} {x x' : Change α} {next : α → Action Memory β}
    (like : Change.Like S x x')
    (onward : ∀ a a', S a a' → Action.Alike (Agree n) (next a) (next a')) :
    Action.Alike (Agree n) (refused q x >>= next) (refused q x' >>= next) := by
  cases like with
  | done h => exact onward _ _ h
  | refused r =>
    cases r with
    | caller f => exact fun _ _ h => ⟨rfl, h⟩
    | storage reason =>
      exact fun env env' h => ⟨rfl, logs_agree .error _ env env' h⟩

/-- What is made of the tables is alike, and so is what is done then. -/
theorem tables_alike {S : α → α → Prop} {change : Tables → Change α} {next : α → Action Memory β}
    (like : ∀ t t', Tables.Same n t t' → Change.Like S (change t) (change t'))
    (onward : ∀ a a', S a a' → Action.Alike (Agree n) (next a) (next a')) :
    Action.Alike (Agree n) (currentTables >>= fun t => refused q (change t) >>= next)
      (currentTables >>= fun t => refused q (change t) >>= next) :=
  .bind_of_ok fun _ _ h =>
    ⟨_, _, _, _, rfl, rfl, h, refused_alike (like _ _ h.rows) onward⟩

theorem setTables_alike {t t' : Tables} (same : Tables.Same n t t') :
    Action.Alike (Agree n) (setTables t) (setTables t') :=
  fun _ _ h => ⟨rfl, same, h.fresh, h.fresh'⟩

theorem define_alike {s : Statement} {make : Tables → Change Tables}
    (like : ∀ t t', Tables.Same n t t' → Change.Like (Tables.Same n) (make t) (make t')) :
    Action.Alike (Agree n) (define s make) (define s make) :=
  statement_alike fun _ => tables_alike like fun _ _ => setTables_alike

theorem change_alike {s : Statement} {make : Tables → Change (Nat × Tables)}
    (like : ∀ t t', Tables.Same n t t' → Change.Like (Tables.SameCounted n) (make t) (make t')) :
    Action.Alike (Agree n) (change s make) (change s make) := by
  refine statement_alike fun _ => tables_alike like fun a a' h => ?_
  obtain ⟨rows, t⟩ := a
  obtain ⟨rows', t'⟩ := a'
  obtain ⟨rfl, same⟩ := h
  exact (setTables_alike same).bind fun _ => .pure _

theorem rows_alike (m : Mapping) : Action.Alike (Agree m.table.fullName) (rows q m) (rows q m) := by
  have once (x : Change (List Row)) :
      Action.Alike (Agree m.table.fullName) (refused q x) (refused q x) := by
    cases x with
    | ok rows => exact .pure rows
    | error r =>
      cases r with
      | caller f => exact .of _
      | storage reason => exact .fail logs_agree _
  refine .bind_of_ok fun env env' h => ⟨_, _, _, _, rfl, rfl, h, ?_⟩
  change Action.Alike _ (refused q (env.state.tables.rows m)) (refused q (env'.state.tables.rows m))
  rw [h.rows.rows_eq]
  exact once _

theorem selected_alike (q : Query) (used : ∀ m, q.mapping = some m → m.table.fullName = n) :
    Action.Alike (Agree n) (selected q) (selected q) := by
  unfold selected
  split
  case h_1 m c hm hc =>
    obtain rfl := used m hm
    refine (rows_alike m).bind fun stored => ?_
    exact (Action.Alike.of (c.select m stored)).bind fun _ => .pure _
  case h_2 => exact .of _

theorem compileQuery_alike {R : Env Memory → Env Memory → Prop} (logs : Effect.Logs R)
    (queries : Pool.Tidy Query.blank queriesPlace R) (m : Mapping) (c : Criteria) :
    Action.Alike R (compileQuery m c) (compileQuery m c) :=
  (Action.Alike.of (c.validate m)).bind fun _ =>
    (QueryPool.compile_alike queries).bind fun q =>
      (Action.Alike.effect (.log logs .debug q.display)).bind fun _ => .pure _

/-- From states where its table is the same, an operation gives the same, and its table is the same
afterwards. -/
theorem Operation.perform_alike (d : Descriptor) (o : Operation)
    (used : ∀ m, o.mapping? = some m → m.table.fullName = n) :
    Effect.Alike (Agree n) (o.perform (backend d)) (o.perform (backend d)) := by
  cases o with
  | createTable m ifNotExists =>
    obtain rfl := used m rfl
    exact define_alike fun _ _ same => same.create_like ifNotExists
  | dropTable m ifExists =>
    obtain rfl := used m rfl
    exact define_alike fun _ _ same => same.drop_like ifExists
  | insert m row =>
    obtain rfl := used m rfl
    exact change_alike fun _ _ same => same.insert_like row
  | insertBatch m rows =>
    obtain rfl := used m rfl
    exact Action.Alike.oneByOne
      (fun row => change_alike fun _ _ same => same.insert_like row) rows
  | update m c values =>
    obtain rfl := used m rfl
    exact change_alike fun _ _ same => same.update_like c values
  | updateBatch m items =>
    obtain rfl := used m rfl
    exact Action.Alike.oneByOne
      (fun item => change_alike fun _ _ same => same.update_like item.1 item.2) items
  | delete m c =>
    obtain rfl := used m rfl
    exact change_alike fun _ _ same => same.delete_like c
  | deleteAll m =>
    obtain rfl := used m rfl
    exact change_alike fun _ _ same => same.deleteAll_like
  | compileQuery m c => exact compileQuery_alike logs_agree tidy_queries m c
  | execute q receive start =>
    refine Effect.Alike.bind (selected_alike q used) fun r => ?_
    cases r <;> exact .pure _
  | dispose q => exact QueryPool.release_alike tidy_queries q
  | count m c =>
    obtain rfl := used m rfl
    refine (Action.Alike.of (c.validate m)).bind fun _ => statement_alike fun q => ?_
    refine (rows_alike m).bind fun stored => ?_
    exact (Action.Alike.of (c.count m stored)).bind fun _ => .pure _
  | countGrouped m c groupBy =>
    obtain rfl := used m rfl
    refine (Action.Alike.of (c.validate m)).bind fun _ => statement_alike fun q => ?_
    exact (rows_alike m).bind fun stored => .of _

end

end DataAccess.Memory
