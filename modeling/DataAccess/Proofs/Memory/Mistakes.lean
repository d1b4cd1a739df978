import DataAccess.Proofs.Memory.Refused
import DataAccess.Proofs.Undecodable

/-!
Which of a caller's mistakes an action tells. A fetch tells what is wrong with its criteria,
whatever is stored, and blames the caller for nothing else.
-/
namespace DataAccess

open Outcome

namespace Action

variable {σ α β : Type} {P : σ → Prop} {told told' : Failure → Prop} {done done' : Prop}

/-- Which mistakes of the caller are told, and whether all goes well, in states as they were. -/
def Tells (P : σ → Prop) (a : Action σ α) (told : Failure → Prop) (done : Prop) : Prop :=
  Leads P a fun r s =>
    (∀ f, Misconfigured f → (r = .error f ↔ told f)) ∧ ((∃ x, r = .ok x) ↔ done) ∧ P s

namespace Tells

theorem of (r : Outcome α) : Tells P (of r) (r = .error ·) (∃ x, r = .ok x) :=
  fun _ _ hs => ⟨fun _ _ => Iff.rfl, Iff.rfl, hs⟩

/-- A step that never fails. -/
theorem sure {a : Action σ α} (h : Leads P a fun r s => (∃ x, r = .ok x) ∧ P s) :
    Tells P a (fun _ => False) True := by
  refine h.mono (fun _ hs => hs) fun r s ⟨⟨x, hr⟩, hs⟩ => ?_
  subst hr
  exact ⟨fun _ _ => iff_of_false nofun id, iff_of_true ⟨x, rfl⟩ trivial, hs⟩

theorem pure (x : α) : Tells P (Pure.pure x : Action σ α) (fun _ => False) True :=
  sure fun _ _ hs => ⟨⟨x, rfl⟩, hs⟩

theorem log (level : Level) (message : String) :
    Tells P (effect (Effect.log level message) : Action σ Unit) (fun _ => False) True :=
  sure fun _ _ hs => ⟨⟨(), rfl⟩, hs⟩

/-- The second step tells its mistakes where the first goes well. -/
theorem bind {a : Action σ α} {f : α → Action σ β} (ha : Tells P a told done)
    (hf : ∀ x, Tells P (f x) told' done') :
    Tells P (a >>= f) (fun e => told e ∨ done ∧ told' e) (done ∧ done') := by
  refine Leads.bind ha (fun x => ?_) fun e s ⟨hr, hd, hs⟩ => ?_
  · intro s log ⟨hr, hd, hs⟩
    have done := hd.mp ⟨x, rfl⟩
    obtain ⟨hr', hd', hs'⟩ := hf x s log hs
    refine ⟨fun e he => ?_, ?_, hs'⟩
    · have untold : ¬told e := fun h => nomatch (hr e he).mpr h
      rw [hr' e he]
      simp [untold, done]
    · rw [hd']
      simp [done]
  · have undone : ¬done := fun h => nomatch hd.mpr h
    refine ⟨fun e' he => ?_, by simp [undone], hs⟩
    simpa [undone] using hr e' he

/-- What never fails in the end has no say. -/
theorem onward {a : Action σ α} {f : α → Action σ β} (ha : Tells P a told done)
    (hf : ∀ x, Tells P (f x) (fun _ => False) True) : Tells P (a >>= f) told done := by
  refine (ha.bind hf).mono (fun _ hs => hs) fun r s h => ?_
  simpa using h

end Tells
end Action

namespace Memory

variable {t : Tables} {m : Mapping} {c : Criteria}

/-- Valid criteria are not to blame for what goes wrong then. -/
theorem Tables.fetched_failsAs (valid : c.validate m = .ok ()) :
    FailsAs (· ≠ some .configuration) (t.fetched m c) := by
  obtain ⟨checked, places, placed⟩ := Criteria.validate_eq_ok.mp valid
  have found : FailsAs (· ≠ some .configuration) (t.found m c) := by
    refine (FailsAs.mapError fun _ _ => by simp).bind fun stored _ => ?_
    rw [Criteria.select_eq checked placed]
    exact .ok _
  rw [fetched, valid]
  refine found.bind fun rows _ => FailsAs.mapError ?_
  refine FailsAs.mapM fun row _ f failed => ?_
  rw [Mapping.project_failsAs row f failed]
  decide

/-- A fetch tells what is wrong with its criteria, whatever is stored. -/
theorem fetch_tells (d : Descriptor) (m : Mapping) (c : Criteria) :
    Action.Tells (Holds t) ((backend d).fetch m c) (c.validate m = .error ·)
      (∃ rows, t.fetched m c = .ok rows) := by
  intro s log holds
  obtain ⟨hr, hs⟩ := fetch_settles d m c s log holds
  refine ⟨fun f hf => ?_, ?_, hs⟩
  · cases valid : c.validate m with
    | error g =>
      have refused : compileQuery m c ⟨s, log⟩ = (.error g, ⟨s, log⟩) :=
        Action.bind_of_error (by rw [valid]; rfl)
      have failed : (backend d).fetch m c ⟨s, log⟩ = (.error g, ⟨s, log⟩) :=
        Action.bind_of_error refused
      simp [ExceptT.run, failed]
    | ok u =>
      refine iff_of_false (fun failed => ?_) nofun
      rw [failed] at hr
      exact Tables.fetched_failsAs valid _ hr.symm hf
  · simp only [← hr, mapError_eq_ok]

theorem Tables.fetched_empty (valid : c.validate m = .ok ())
    (stored : t.find? m.table.fullName = some []) : ∃ rows, t.fetched m c = .ok rows := by
  obtain ⟨checked, places, placed⟩ := Criteria.validate_eq_ok.mp valid
  have selected : c.select m [] = .ok [] := by
    rw [Criteria.select_eq checked placed]
    cases h : c.window.limit <;> simp [Window.take, StableSort.sort, h]
  refine ⟨[], ?_⟩
  rw [fetched, valid, found, rows_eq_ok.mpr stored]
  simp only [Except.mapError, Outcome.ok_bind, selected]
  rfl

theorem Tables.fetched_ne_ok (absent : t.find? m.table.fullName = none) (rows : List Row) :
    t.fetched m c ≠ .ok rows := by
  intro h
  obtain ⟨_, -, h⟩ := bind_eq_ok.mp h
  obtain ⟨found, there, -⟩ := bind_eq_ok.mp h
  obtain ⟨stored, there, -⟩ := bind_eq_ok.mp there
  have := rows_eq_ok.mp (mapError_eq_ok.mp there)
  simp [absent] at this

theorem Tables.valid_of_fetched {rows : List Row} (h : t.fetched m c = .ok rows) :
    c.validate m = .ok () := by
  obtain ⟨_, valid, -⟩ := bind_eq_ok.mp h
  exact mapError_eq_ok.mp valid

end Memory

end DataAccess
