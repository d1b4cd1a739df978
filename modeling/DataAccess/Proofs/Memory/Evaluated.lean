import DataAccess.Proofs.Criteria.Within
import DataAccess.Proofs.Memory.Answers
import DataAccess.Proofs.Sql.Verdict

/-!
Valid criteria do not fail once rows are looked at: what finds its table in a storage in process is
answered.
-/
namespace DataAccess.Memory

open Outcome

variable {t : Tables} {m : Mapping} {c : Criteria} {rows : List Row} {s : Memory}

theorem writing_eq_ok {st : Statement} :
    writing st = .ok () ↔ Writable st := by
  rw [writing, mapError_eq_ok, verdict_eq_ok, Writable]

namespace Tables

theorem matched_eq (valid : ∀ e ∈ c.expressions, e.check m = .ok ()) (rows : List Row) :
    matched m c rows = .ok (rows.map (c.passes m)) := by
  rw [matched, mapError_eq_ok, mapM_eq_ok, List.forall₂_map_right_iff, List.forall₂_same]
  exact fun row _ => Criteria.admits_eq_passes valid row

theorem changed_eq_ok {st : Statement} {change : Tables → Change (Nat × Tables)} {a : Affected} :
    t.changed st change = .ok a ↔
      writing st = .ok () ∧ ∃ p, change t = .ok p ∧ Affected.ofRows p.1 = a := by
  simp only [changed, bind_eq_ok, mapError_eq_ok, pure_eq_ok]
  exact ⟨fun ⟨_, h⟩ => h, fun h => ⟨(), h⟩⟩

end Tables

theorem Answers.exists_ok_iff {α : Type} {a : Action Memory α}
    {x : Except (Option FailureKind) α} (h : Answers t a x) {env : Env Memory}
    (holds : Holds t env.state) : (∃ v, (a env).1 = .ok v) ↔ ∃ v, x = .ok v := by
  simp only [← h.result holds env.log, mapError_eq_ok]

theorem Answers.eq_ok {α : Type} {a : Action Memory α} {v : α} (h : Answers t a (.ok v))
    {env : Env Memory} (holds : Holds t env.state) : (a env).1 = .ok v :=
  mapError_eq_ok.mp (h.result holds env.log)

section Serves

variable {env : Env Memory}

end Serves

end DataAccess.Memory
