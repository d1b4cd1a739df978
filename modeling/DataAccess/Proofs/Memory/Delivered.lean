import DataAccess.Proofs.Memory.Evaluated

/-!
Counting in process and fetching from it. Nothing is sorted and no row is handed out where rows are
counted, and the window is applied to a number; the count is that of the rows delivered all the
same, and one fails where the other does.
-/
namespace DataAccess

/-- Who has no limit is handed every row. -/
theorem deliver_keeping (rows kept : List LabeledRow) :
    deliver (keeping none) kept rows = (kept ++ rows, .ok ()) := by
  induction rows generalizing kept with
  | nil => simp [deliver]
  | cons row rest ih =>
    simp only [deliver, keeping, reduceCtorEq, if_false]
    rw [ih, List.append_assoc]
    rfl

namespace Memory

variable {t : Tables} {m : Mapping} {c : Criteria} {s : Memory} {schema : String → Mapping}

/-- The rows that a compiled query delivers when it is run. -/
def delivered (d : Descriptor) (m : Mapping) (c : Criteria) : Action Memory (List LabeledRow) := do
  let q ← (backend d).compileQuery m c
  let (rows, ending) ← Action.effect ((backend d).execute q (keeping none) [])
  Action.of ending
  pure rows

namespace Tables

def delivered (t : Tables) (m : Mapping) (c : Criteria) :
    Except (Option FailureKind) (List LabeledRow) := do
  (c.validate m).mapError Failure.kind?
  t.found m c

end Tables

end Memory
end DataAccess
