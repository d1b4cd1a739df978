import DataAccess.Proofs.Alike
import DataAccess.Proofs.Sqlite.Fleet

/-!
Work on connections to databases in memory. None of it makes another connection of one; the engine
is what storages take it for, as long as it never puts off a rollback.
-/
namespace DataAccess.Sqlite

variable {α β : Type}

namespace Connection

variable {c c' c'' : Connection}

/-- What no statement changes of a connection. -/
structure Stays (c c' : Connection) : Prop where
  serial : c'.serial = c.serial
  identity : c'.identity = c.identity
  poisoned : c'.poisoned = c.poisoned

theorem Stays.refl (c : Connection) : c.Stays c := ⟨rfl, rfl, rfl⟩

theorem Stays.trans (h : c.Stays c') (h' : c'.Stays c'') : c.Stays c'' :=
  ⟨h'.serial.trans h.serial, h'.identity.trans h.identity, h'.poisoned.trans h.poisoned⟩

theorem prepare_stays (c : Connection) (text : String) (p : Prepared) :
    c.Stays (c.prepare text p) := ⟨rfl, rfl, rfl⟩

theorem note_stays (c : Connection) (outcome : Answer (Reply × Catalog)) (s : Statement) :
    c.Stays (c.note outcome s) := by
  unfold note
  split
  · exact ⟨rfl, rfl, rfl⟩
  · split <;> exact ⟨rfl, rfl, rfl⟩
  all_goals exact ⟨rfl, rfl, rfl⟩

theorem control_stays {db db' : Database} {k : Control} (h : c.control db k = .ok (db', c')) :
    c.Stays c' := by
  cases k with
  | begin =>
    simp only [control] at h
    split at h
    · cases h
    · cases h
      exact ⟨rfl, rfl, rfl⟩
  | commit =>
    simp only [control] at h
    split at h
    · cases h
    · cases h
      exact ⟨rfl, rfl, rfl⟩
  | rollback =>
    simp only [control] at h
    split at h
    · cases h
      split <;> exact ⟨rfl, rfl, rfl⟩
    · cases h

theorem control_rollback {own : Tables} (inside : c.before = some own) (db : Database) :
    ∃ db' c', c.control db .rollback = .ok (db', c') ∧ c'.before = none := by
  simp only [control, inside]
  exact ⟨_, _, rfl, rfl⟩

theorem carryOut_stays (c : Connection) (db : Database) (grips : List Grip) (w : Written)
    (outcome : Answer (Reply × Catalog)) : c.Stays (c.carryOut db grips w outcome).2.2 :=
  note_stays ..

theorem attempt_stays (c : Connection) (db : Database) (text : String) (w : Written) :
    c.Stays (c.attempt db text w).2.2 := by
  unfold attempt
  dsimp only
  split
  · exact .refl c
  · exact (prepare_stays ..).trans (carryOut_stays ..)

theorem attemptUnlessRemade_stays (c : Connection) (db : Database) (text : String) (w : Written) :
    c.Stays (c.attemptUnlessRemade db text w).2.2 := by
  unfold attemptUnlessRemade
  split
  · exact .refl c
  · exact attempt_stays ..

theorem run_stays (c : Connection) (db : Database) (text : String) (w : Written) :
    c.Stays (c.run db text w).2.2 := by
  unfold run
  split
  · exact attemptUnlessRemade_stays ..
  · dsimp only
    split
    · exact (prepare_stays ..).trans (attemptUnlessRemade_stays ..)
    · split
      · exact (prepare_stays ..).trans (carryOut_stays ..)
      · exact (prepare_stays ..).trans (attempt_stays ..)

theorem connect_cases (d : Descriptor) (e : Engine) (log : List LogRecord) :
    (∃ f log', connect d ⟨e, log⟩ = (.error f, ⟨e, log'⟩)) ∨
      ∃ c log', connect d ⟨e, log⟩ = (.ok c, ⟨e.connect (home d e.opened), log'⟩) ∧
        c.serial = e.opened ∧ c.identity = d.identity ∧ c.poisoned = false ∧ c.before = none := by
  unfold connect
  cases unknownOption? d with
  | some r => exact Or.inl ⟨_, _, rfl⟩
  | none =>
    cases isReachable d with
    | false => exact Or.inl ⟨_, _, rfl⟩
    | true => exact Or.inr ⟨_, _, rfl, rfl, rfl, rfl, rfl⟩

end Connection

namespace Link

theorem Steady.keeps {work : Effect Link α} (steady : Steady work) (l : Link) :
    Effect.Keeps l.Onward work :=
  .of_leads fun l' log on => on.trans (steady l' log on.unpoisoned)

theorem steady_of_keeps {work : Effect Link α} (h : ∀ l : Link, Effect.Keeps l.Onward work) :
    Steady work := fun l log sound => (h l).leads l log (.refl sound)

variable {failed : Failure → Failure} {l : Link}
  {work work' : Connection → Database → Except Failure α × Database × Connection}

theorem access_eq (sound : l.2.poisoned = false) (log : List LogRecord) :
    let done := work l.2 (l.1.database l.2.location)
    access failed work ⟨l, log⟩ =
      (match done.1 with | .ok a => pure a | .error f => Action.fail (failed f) : Action Link α)
        ⟨(l.1.setDatabase done.2.2.location done.2.1, done.2.2), log⟩ := by
  unfold access
  rw [Action.bind_effect, Effect.run_state]
  dsimp only
  rw [if_neg (by simp [sound])]
  rfl

theorem access_steady (stays : ∀ (c : Connection) db, c.Stays (work c db).2.2) :
    Steady (access failed work).run := by
  intro l log sound
  have stays := stays l.2 (l.1.database l.2.location)
  change l.Onward (access failed work ⟨l, log⟩).2.state
  rw [access_eq sound]
  generalize work l.2 (l.1.database l.2.location) = done at stays ⊢
  obtain ⟨outcome, db, c⟩ := done
  have onward : l.Onward (l.1.setDatabase c.location db, c) :=
    ⟨stays.serial, stays.identity, stays.poisoned.trans sound, Nat.le_refl _⟩
  cases outcome <;> exact onward

theorem run_steady (command : Command) : Steady (run command).run := by
  refine access_steady fun c db => ?_
  cases command.written with
  | some w => exact Connection.run_stays ..
  | none => exact .refl c

theorem execute_steady (command : Command) : Steady (execute command).run := by
  refine steady_of_keeps fun l => ?_
  have ran : Action.Keeps l.Onward (run command) := (run_steady command).keeps l
  refine ran.bind fun reply => ?_
  split
  · exact .fail (Effect.logs_kept _) _
  · exact (Action.Alike.effect Effect.state_keeps).bind fun _ => .pure _

theorem rows_keeps (l : Link) (command : Command) : Action.Keeps l.Onward (rows command) := by
  have ran : Action.Keeps l.Onward (run command) := (run_steady command).keeps l
  refine (Action.Alike.effect Effect.state_keeps).bind fun _ => ran.bind fun reply => ?_
  split
  · dsimp only
    split
    · exact .pure _
    · exact .fail (Effect.logs_kept _) _
  · exact .pure _

theorem query_steady (command : Command) (receive : Receiver β) (start : β) :
    Steady (query command receive start) := by
  refine steady_of_keeps fun l => ?_
  refine Effect.Alike.bind (rows_keeps l command) fun r => ?_
  cases r <;> exact .pure _

/-- Opens and ends transactions unless something stops that. -/
def controlUnless (stopped : Control → Database → Nat → Bool) (failed : Failure → Failure)
    (k : Control) : Action Link Unit :=
  access failed fun c db =>
    match if stopped k db c.serial then .error (.schemaLocked "main") else c.control db k with
    | .ok (db, c) => (.ok (), db, c)
    | .error r => (.error r.failure, db, c)

theorem controlUnless_steady (stopped : Control → Database → Nat → Bool)
    (failed : Failure → Failure) (k : Control) : Steady (controlUnless stopped failed k).run := by
  refine access_steady fun c db => ?_
  split
  · rename_i h
    split at h
    · cases h
    · exact Connection.control_stays h
  · exact .refl c

theorem control_eq : control = controlUnless fun _ => Database.isRemade := rfl

/-- Tables that others remake do not put off a rollback. -/
def promptControl : (Failure → Failure) → Control → Action Link Unit :=
  controlUnless fun k db me => k != .rollback && db.isRemade me

/-- Where no tables are being remade that is what engines do. -/
theorem promptControl_eq {k : Control} (sound : l.2.poisoned = false)
    (h : k ≠ .rollback ∨ (l.1.database l.2.location).isRemade l.2.serial = false)
    (log : List LogRecord) : promptControl failed k ⟨l, log⟩ = control failed k ⟨l, log⟩ := by
  have same : (k != .rollback && (l.1.database l.2.location).isRemade l.2.serial) =
      (l.1.database l.2.location).isRemade l.2.serial := by
    rcases h with other | unmade
    · simp [bne_iff_ne.mpr other]
    · simp [unmade]
  rw [control_eq, promptControl, controlUnless, controlUnless, access_eq sound, access_eq sound,
    same]

theorem promptControl_steady (failed : Failure → Failure) (k : Control) :
    Steady (promptControl failed k).run := controlUnless_steady _ failed k

/-- A transaction that is open is rolled back. -/
theorem promptControl_rollback (sound : l.2.poisoned = false) (inside : l.2.before.isSome)
    (log : List LogRecord) : (promptControl failed .rollback ⟨l, log⟩).1 = .ok () ∧
      (promptControl failed .rollback ⟨l, log⟩).2.state.2.before = none := by
  obtain ⟨own, before⟩ := Option.isSome_iff_exists.mp inside
  obtain ⟨db, c, run, outside⟩ := Connection.control_rollback before (l.1.database l.2.location)
  have rolled : promptControl failed .rollback ⟨l, log⟩ =
      (.ok (), ⟨(l.1.setDatabase c.location db, c), log⟩) := by
    unfold promptControl controlUnless
    rw [access_eq sound]
    simp only [bne_self_eq_false, Bool.false_and, Bool.false_eq_true, if_false, run]
    rfl
  rw [rolled]
  exact ⟨rfl, outside⟩

end Link

namespace Site

/-- An engine of databases in memory that never puts off a rollback. -/
def prompt (d : Descriptor) : Site := { Site.of d with control := Link.promptControl }

theorem prompt_reliable (d : Descriptor) : (prompt d).Reliable where
  connected e log c env h := by
    rcases Connection.connect_cases d e log with ⟨f, log', failed⟩ | ⟨c', log', opened, facts⟩
    · cases failed.symm.trans h
    · cases opened.symm.trans h
      obtain ⟨serial, identity, unpoisoned, outside⟩ := facts
      exact ⟨serial, identity, unpoisoned, outside, rfl⟩
  unconnected e log f env h := by
    rcases Connection.connect_cases d e log with ⟨f', log', failed⟩ | ⟨c', log', opened, -⟩
    · cases failed.symm.trans h
      exact Nat.le_refl _
    · cases opened.symm.trans h
  control := Link.promptControl_steady
  execute := Link.execute_steady
  query := Link.query_steady
  rollback _ _ log sound inside := Link.promptControl_rollback sound inside log

end Site

end DataAccess.Sqlite
