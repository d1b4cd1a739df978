import DataAccess.Proofs.Join.Here

/-!
Counting a join takes another way than running it: nothing is sorted, no row is built, and the
window is applied to a number. The count is that of the rows all the same.
-/
namespace DataAccess

theorem JoinPlan.length_sorted (p : JoinPlan) (left right : List Row) :
    (p.sorted left right).length = (p.merge left right).length :=
  (StableSort.sort_perm _).length_eq

namespace Join

section

variable {σ : Type} {P : σ → Prop} {l r : Source σ} {c : JoinCriteria}

theorem fromKeptSide_map {α β : Type} (g : α → β)
    (run : Bool → Source σ → Source σ → JoinCriteria → Action σ α) :
    fromKeptSide l r c (fun flipped l r c => g <$> run flipped l r c) =
      g <$> fromKeptSide l r c run := by
  unfold fromKeptSide
  rw [map_bind]
  refine bind_congr fun _ => ?_
  split
  · rw [map_bind]
  · rfl

/-- The rows that are counted are those of the join. -/
theorem countHere_eq (l r : Source σ) (c : JoinCriteria) :
    countHere l r c = List.length <$> here l r c := by
  unfold here
  rw [← fromKeptSide_map]
  unfold countHere
  congr 1
  funext flipped l r c
  rw [map_bind]
  refine bind_congr fun ⟨p, left, right⟩ => ?_
  rw [map_pure]
  have rows : (c.window.take (p.sorted left right)).length =
      c.window.count (p.merge left right).length := by
    rw [Window.length_take, JoinPlan.length_sorted]
  cases flipped <;> simp [rows]

theorem count_eq (apart : resolve l.backend r.backend c = none) :
    count l r c = List.length <$> fetch l r c := by
  unfold count fetch
  rw [map_bind, apart, countHere_eq]

end

/-- Both fail in one way, or the count is that of the rows. -/
def Tally : Outcome Nat → Outcome (List JoinedRow) → Prop
  | .ok n, .ok rows => n = rows.length
  | .error e, .error f => e.kind? = f.kind?
  | _, _ => False

end Join

namespace Storages

/-- A storage in process, in any state that operations lead to, each table being used through one
mapping. -/
structure MemoryStorage (w : Storages) where
  name : String
  memory : Memory
  schema : String → Mapping
  found : w.memories.find? name = some memory
  reachable : memory.Reachable schema

variable {w : Storages}

def MemoryTable.storage (t : w.MemoryTable) : w.MemoryStorage :=
  ⟨t.name, t.memory, t.schema, t.found, t.reachable⟩

/-- A table of the storage, as it is reached by the storage's name. -/
def MemoryStorage.source (s : w.MemoryStorage) (m : Mapping) : Source Storages :=
  ⟨(Memory.backend s.memory.descriptor).within (memoryPlace s.name s.memory), m⟩

end Storages

namespace Join

variable {w w₁ w₂ : Storages}

end Join
end DataAccess
