import DataAccess.Backend

/-! A storage that joins only in some ways. -/
namespace DataAccess.Backend

variable {σ : Type}

/-- The same storage, changing rows item by item and supporting joins of these kinds alone. -/
def restricted (kinds : List JoinKind) (b : Backend σ) : Backend σ := { b with
  insertBatch := fun m => oneByOne (b.insert m)
  updateBatch := fun m => oneByOne fun (c, values) => b.update m c values
  coerce := Value.coerce
  joins := b.joins.map fun j => { j with supports := (decide <| · ∈ kinds) } }

end DataAccess.Backend
