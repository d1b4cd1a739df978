import DataAccess.Proofs.Memory.Failing
import DataAccess.Proofs.Sqlite.Transactions

/-!
What updates and deletions report. The rows they change are told by what their connection sees, and
by nothing that was done on it before; the key they report is the one that was inserted last on that
connection, by whatever statement.
-/
namespace DataAccess

open Outcome

/-- Changes rows of a table and inserts none. -/
def Statement.isEdit : Statement → Bool
  | .update .. | .delete .. | .deleteAll _ => true
  | _ => false

namespace Sqlite

namespace Catalog

variable {c after : Catalog} {w : Written} {reply : Reply}

/-- An edit gives no key. -/
theorem exists_changed_of_answer (edit : w.statement.isEdit) (h : c.answer w = .ok (reply, after)) :
    ∃ n, reply = .changed n none := by
  obtain ⟨d, s⟩ := w
  simp only [answer, bind_eq_ok] at h
  obtain ⟨_, -, h⟩ := h
  cases s with
  | update m criteria values =>
    simp only [update, bind_eq_ok, pure_eq_ok, Prod.mk.injEq] at h
    obtain ⟨_, -, _, -, _, -, _, -, ⟨n, _⟩, -, rfl, -⟩ := h
    exact ⟨n, rfl⟩
  | delete m criteria =>
    simp only [delete, bind_eq_ok, pure_eq_ok, Prod.mk.injEq] at h
    obtain ⟨_, -, _, -, _, -, rfl, -⟩ := h
    exact ⟨_, rfl⟩
  | deleteAll m =>
    simp only [bind_eq_ok, pure_eq_ok, Prod.mk.injEq] at h
    obtain ⟨_, -, rfl, -⟩ := h
    exact ⟨_, rfl⟩
  | _ => cases edit

end Catalog

namespace Database

variable {db db' : Database} {me : Nat} {grips : List Grip}

theorem tables_finish (db : Database) (me : Nat) : (db.finish me).tables = db.tables := by
  unfold finish
  split <;> rfl

theorem tables_holding (db : Database) (me : Nat) (g : Grip) :
    (db.holding me g).tables = db.tables := by
  unfold holding
  split <;> rfl

theorem tables_start? (h : db.start? me grips = some db') : db'.tables = db.tables := by
  unfold start? begin? at h
  split at h
  · rw [Option.some.inj h]
  · split at h
    · rw [Option.some.inj h]
    · split at h
      · cases h
      · obtain rfl := Option.some.inj h
        split <;> exact tables_holding ..

/-- Nobody else holds anything of it or waits for anything. -/
structure Free (db : Database) (me : Nat) : Prop where
  locks : ∀ l ∈ db.locks, l.holder = me
  writer : ∀ w, db.writer = some w → w.holder = me
  pending : db.pending = false

instance (db : Database) (me : Nat) : Decidable (db.Free me) :=
  decidable_of_iff ((∀ l ∈ db.locks, l.holder = me) ∧ (∀ w, db.writer = some w → w.holder = me) ∧
      db.pending = false)
    ⟨fun ⟨locks, writer, pending⟩ => ⟨locks, writer, pending⟩,
      fun ⟨locks, writer, pending⟩ => ⟨locks, writer, pending⟩⟩

theorem Free.refuses (free : db.Free me) (g : Grip) : db.refuses me g = false := by
  refine List.any_eq_false.mpr fun l hl => ?_
  simp [free.locks l hl]

theorem Free.isRemade (free : db.Free me) : db.isRemade me = false := free.refuses _

theorem Free.holding (free : db.Free me) (g : Grip) : (db.holding me g).Free me := by
  unfold Database.holding
  split
  · exact free
  · exact ⟨List.forall_mem_cons.mpr ⟨rfl, free.locks⟩, free.writer, free.pending⟩

theorem Free.start? (free : db.Free me) (grips : List Grip) :
    ∃ begun, db.start? me grips = some begun ∧ begun.Free me := by
  unfold Database.start? begin?
  split
  · exact ⟨db, rfl, free⟩
  · split
    · exact ⟨db, rfl, free⟩
    · rename_i closed
      have nobody : db.isWriter me = false → db.writer = none := by
        intro other
        cases hw : db.writer with
        | none => rfl
        | some w => simp [isWriter, hw, free.writer w hw] at other
      rw [Bool.not_eq_true, Bool.or_eq_false_iff] at closed
      rw [if_neg (by simp [free.pending, free.isRemade, nobody closed.1])]
      refine ⟨_, rfl, ?_⟩
      have held := free.holding ⟨none, false⟩
      split
      · exact ⟨held.locks, fun w hw => Option.some.inj hw ▸ rfl, held.pending⟩
      · exact held

theorem Free.take (free : db.Free me) (grips : List Grip) :
    (take me db grips).2 = none ∧ (take me db grips).1.Free me := by
  induction grips generalizing db with
  | nil => exact ⟨rfl, free⟩
  | cons g rest ih =>
    rw [Database.take, if_neg (by simp [free.refuses])]
    exact ih (free.holding g)

theorem Free.acquire (free : db.Free me) (grips : List Grip) :
    (db.acquire me grips).2 = none ∧ (db.acquire me grips).1.Free me := by
  obtain ⟨begun, started, free⟩ := free.start? grips
  rw [Database.acquire, started]
  exact free.take grips

theorem Free.finish (free : db.Free me) : (db.finish me).Free me := by
  unfold Database.finish
  split
  · refine ⟨fun l hl => free.locks l (List.mem_of_mem_filter hl), fun w hw => ?_, ?_⟩
    · exact free.writer w (Option.filter_eq_some_iff.mp hw).1
    · simp [free.pending]
  · exact free

end Database

namespace Connection

variable {c : Connection} {db begun : Database} {w : Written} {reply : Reply} {text : String}

/-- Whether what was begun is kept or given up, the tables are the same. -/
theorem tables_of_begun {grips : List Grip} (started : db.start? c.serial grips = some begun) :
    (if c.before.isSome then begun else db).tables = db.tables := by
  split
  · exact Database.tables_start? started
  · rfl

/-- An edit was carried out: the tables are other ones, and the key inserted last is the same. -/
structure Edited (c : Connection) (db : Database) (w : Written) (n : Nat) (db' : Database)
    (c' : Connection) : Prop where
  answered : (⟨db.tables, c.own⟩ : Catalog).answer w = .ok (.changed n none, ⟨db'.tables, c'.own⟩)
  changes : c'.changes = n
  lastKey : c'.lastKey = c.lastKey
  before : c'.before = c.before

/-- How one was prepared for it makes no difference. -/
theorem Edited.of_prepare {p : Prepared} {n : Nat} {db' : Database} {c' : Connection}
    (h : (c.prepare text p).Edited db w n db' c') : c.Edited db w n db' c' :=
  ⟨h.answered, h.changes, h.lastKey, h.before⟩

theorem carryOut_edited {grips : List Grip} {outcome : Answer (Reply × Catalog)}
    (edit : w.statement.isEdit) (seen : (⟨db.tables, c.own⟩ : Catalog).answer w = outcome)
    (h : (c.carryOut db grips w outcome).1 = .ok reply) :
    ∃ n, c.Edited db w n (c.carryOut db grips w outcome).2.1
      (c.carryOut db grips w outcome).2.2 := by
  unfold carryOut at h ⊢
  generalize db.acquire c.serial grips = acquired at h ⊢
  obtain ⟨db', _ | r⟩ := acquired
  · cases outcome with
    | error r => cases h
    | ok done =>
      obtain ⟨reply', after⟩ := done
      obtain ⟨n, rfl⟩ := Catalog.exists_changed_of_answer edit seen
      refine ⟨n, ?_, rfl, rfl, rfl⟩
      simp only [Option.elim, note]
      split
      · rw [Database.tables_finish, seen]
      · exact seen
  · cases h

theorem attempt_edited (edit : w.statement.isEdit) (h : (c.attempt db text w).1 = .ok reply) :
    ∃ n, c.Edited db w n (c.attempt db text w).2.1 (c.attempt db text w).2.2 := by
  unfold attempt at h ⊢
  dsimp only at h ⊢
  split at h
  · cases h
  · obtain ⟨n, edited⟩ := carryOut_edited edit rfl h
    exact ⟨n, edited.of_prepare⟩

theorem attemptUnlessRemade_edited (edit : w.statement.isEdit)
    (h : (c.attemptUnlessRemade db text w).1 = .ok reply) :
    ∃ n, c.Edited db w n (c.attemptUnlessRemade db text w).2.1
      (c.attemptUnlessRemade db text w).2.2 := by
  unfold attemptUnlessRemade at h ⊢
  split at h
  · cases h
  · rename_i settled
    rw [if_neg settled]
    exact attempt_edited edit h

/-- However the statement was prepared. -/
theorem run_edited (edit : w.statement.isEdit) (h : (c.run db text w).1 = .ok reply) :
    ∃ n, c.Edited db w n (c.run db text w).2.1 (c.run db text w).2.2 := by
  unfold run at h ⊢
  cases found : c.prepared.find? text with
  | none =>
    simp only [found, mapError_eq_ok] at h ⊢
    exact attemptUnlessRemade_edited edit h
  | some p =>
    simp only [found, mapError_eq_ok] at h ⊢
    split at h
    · rename_i expired
      rw [if_pos expired]
      obtain ⟨n, edited⟩ := attemptUnlessRemade_edited edit h
      exact ⟨n, edited.of_prepare⟩
    · rename_i fresh
      rw [if_neg fresh]
      cases started : db.start? c.serial p.grips with
      | none =>
        simp only [started] at h ⊢
        obtain ⟨n, edited⟩ := carryOut_edited edit rfl h
        exact ⟨n, edited.of_prepare⟩
      | some begun =>
        simp only [started] at h ⊢
        obtain ⟨n, edited⟩ := attempt_edited edit h
        refine ⟨n, ?_, edited.changes, edited.lastKey, edited.before⟩
        rw [← tables_of_begun started]
        exact edited.answered

section Unhindered

variable {n : Nat} {after : Catalog} (free : db.Free c.serial)

include free

theorem carryOut_of_free {outcome : Answer (Reply × Catalog)} (grips : List Grip)
    (answered : outcome = .ok (reply, after)) :
    (c.carryOut db grips w outcome).1 = .ok reply ∧
      (c.carryOut db grips w outcome).2.1.Free c.serial := by
  obtain ⟨had, held⟩ := free.acquire grips
  unfold carryOut
  simp only [answered, had, Option.elim]
  refine ⟨rfl, ?_⟩
  have changed : ({ (db.acquire c.serial grips).1 with tables := after.shared } : Database).Free
      c.serial := ⟨held.locks, held.writer, held.pending⟩
  split
  · exact changed.finish
  · exact changed

theorem attempt_of_free
    (answered : (⟨db.tables, c.own⟩ : Catalog).answer w = .ok (reply, after)) :
    (c.attempt db text w).1 = .ok reply ∧ (c.attempt db text w).2.1.Free c.serial := by
  simp only [attempt, answered, unprepared?]
  exact carryOut_of_free (c := c.prepare text _) free _ rfl

theorem attemptUnlessRemade_of_free
    (answered : (⟨db.tables, c.own⟩ : Catalog).answer w = .ok (reply, after)) :
    (c.attemptUnlessRemade db text w).1 = .ok reply ∧
      (c.attemptUnlessRemade db text w).2.1.Free c.serial := by
  rw [attemptUnlessRemade, if_neg (by simp [free.isRemade])]
  exact attempt_of_free free answered

/-- Nothing hinders a statement that the engine has an answer to. -/
theorem run_of_free (answered : (⟨db.tables, c.own⟩ : Catalog).answer w = .ok (reply, after)) :
    (c.run db text w).1 = .ok reply ∧ (c.run db text w).2.1.Free c.serial := by
  unfold run
  cases c.prepared.find? text with
  | none =>
    simp only [mapError_eq_ok]
    exact attemptUnlessRemade_of_free free answered
  | some p =>
    simp only [mapError_eq_ok]
    split
    · exact attemptUnlessRemade_of_free (c := c.prepare text _) free answered
    · obtain ⟨begun, started, open_⟩ := free.start? p.grips
      rw [started]
      rw [← tables_of_begun started] at answered
      refine attempt_of_free (c := c.prepare text _) ?_ answered
      split
      · exact open_
      · exact free

end Unhindered

end Connection

namespace Link

variable {l l' : Link} {w : Written} {n : Nat} {command : Command} {done : Affected}
  {env : Env Link} {log : List LogRecord}

/-- What a connection sees: the tables of its database, and its own. -/
def catalog (l : Link) : Catalog := ⟨(l.1.database l.2.location).tables, l.2.own⟩

/-- The connection can be used and nobody else holds anything of its database. -/
structure Free (l : Link) : Prop where
  unpoisoned : l.2.poisoned = false
  database : (l.1.database l.2.location).Free l.2.serial

instance (l : Link) : Decidable l.Free :=
  decidable_of_iff (l.2.poisoned = false ∧ (l.1.database l.2.location).Free l.2.serial)
    ⟨fun ⟨unpoisoned, database⟩ => ⟨unpoisoned, database⟩,
      fun ⟨unpoisoned, database⟩ => ⟨unpoisoned, database⟩⟩

/-- An edit was run: what is seen is changed, and the key inserted last is the same. -/
structure Edited (l : Link) (w : Written) (n : Nat) (l' : Link) : Prop where
  answered : l.catalog.answer w = .ok (.changed n none, l'.catalog)
  inserted : l'.2.insertedKey = l.2.insertedKey
  before : l'.2.before = l.2.before
  stays : l.2.Stays l'.2

theorem database_setDatabase (e : Engine) (location : String) (db : Database) :
    (e.setDatabase location db).database location = db := by
  rw [Engine.database, Engine.setDatabase, Keyed.find?_put_self]
  rfl

theorem unpoisoned_of_access {α : Type} {failed : Failure → Failure} {a : α}
    {work : Connection → Database → Except Failure α × Database × Connection}
    (h : (access failed work ⟨l, log⟩).1 = .ok a) : l.2.poisoned = false := by
  by_contra poisoned
  unfold access at h
  rw [Action.bind_effect, Effect.run_state] at h
  simp only [poisoned, if_true] at h
  cases h

theorem run_of_ok (sound : l.2.poisoned = false) (written : command.written = some w)
    {reply : Reply} {db : Database} {c : Connection}
    (ran : l.2.run (l.1.database l.2.location) command.text w = (.ok reply, db, c))
    (log : List LogRecord) :
    run command ⟨l, log⟩ = (.ok reply, ⟨(l.1.setDatabase c.location db, c), log⟩) := by
  rw [run, access_eq sound]
  simp only [written, ran]
  rfl

theorem exists_of_run (written : command.written = some w) {reply : Reply}
    (h : run command ⟨l, log⟩ = (.ok reply, env)) : ∃ db c,
      l.2.run (l.1.database l.2.location) command.text w = (.ok reply, db, c) ∧
        env.state = (l.1.setDatabase c.location db, c) := by
  have sound : l.2.poisoned = false := unpoisoned_of_access (congrArg Prod.fst h)
  rcases ran : l.2.run (l.1.database l.2.location) command.text w with ⟨f | reply', db, c⟩
  · rw [run, access_eq sound] at h
    simp only [written, ran] at h
    cases h
  · cases (run_of_ok sound written ran log).symm.trans h
    exact ⟨db, c, rfl, rfl⟩

/-- What is reported is how many rows the statement changed, and the key that the connection
inserted last. -/
theorem execute_edited (written : command.written = some w) (edit : w.statement.isEdit)
    (h : execute command ⟨l, log⟩ = (.ok done, env)) :
    ∃ n, l.Edited w n env.state ∧ done = ⟨some n, l.2.insertedKey⟩ := by
  rcases ran : run command ⟨l, log⟩ with ⟨f | reply, env₁⟩
  · have failed : execute command ⟨l, log⟩ = (.error f, env₁) := Action.bind_of_error ran
    cases failed.symm.trans h
  · obtain ⟨db, c, run, after⟩ := exists_of_run written ran
    have stays := Connection.run_stays l.2 (l.1.database l.2.location) command.text w
    obtain ⟨n, edited⟩ := Connection.run_edited edit (congrArg Prod.fst run)
    rw [run] at edited stays
    have inserted : c.insertedKey = l.2.insertedKey := by
      rw [Connection.insertedKey, Connection.insertedKey, edited.lastKey]
    have reported : env = env₁ ∧ done = ⟨some env₁.state.2.changes, env₁.state.2.insertedKey⟩ := by
      have next : execute command ⟨l, log⟩ = _ := Action.bind_of_ok ran
      rw [next] at h
      split at h
      · cases h
      · cases h
        exact ⟨rfl, rfl⟩
    obtain ⟨rfl, rfl⟩ := reported
    rw [after]
    refine ⟨n, ⟨?_, inserted, edited.before, stays⟩, ?_⟩
    · rw [catalog, catalog, database_setDatabase]
      exact edited.answered
    · rw [inserted, edited.changes]

/-- Nothing hinders a statement that the engine has an answer to. -/
theorem execute_of_free (free : l.Free) (written : command.written = some w) {after : Catalog}
    (answered : l.catalog.answer w = .ok (.changed n none, after)) (log : List LogRecord) :
    ∃ done env, execute command ⟨l, log⟩ = (.ok done, env) ∧ env.state.Free := by
  have stays := Connection.run_stays l.2 (l.1.database l.2.location) command.text w
  obtain ⟨replied, held⟩ :
      (l.2.run (l.1.database l.2.location) command.text w).1 = .ok (.changed n none) ∧
        (l.2.run (l.1.database l.2.location) command.text w).2.1.Free l.2.serial :=
    Connection.run_of_free free.database answered
  rcases ran : l.2.run (l.1.database l.2.location) command.text w with ⟨r, db, c⟩
  rw [ran] at replied held stays
  obtain rfl : r = .ok (.changed n none) := replied
  have run := run_of_ok free.unpoisoned written ran log
  refine ⟨_, _, Action.bind_of_ok run, stays.poisoned.trans free.unpoisoned, ?_⟩
  rw [database_setDatabase]
  exact stays.serial ▸ held

end Link
end Sqlite
end DataAccess
