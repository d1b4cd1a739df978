import DataAccess.Proofs.Criteria.Truth

/-! Criteria that every storage understands: nothing in them is an engine's own text. -/
namespace DataAccess

namespace Expression

def isRaw : Expression → Bool
  | .raw .. => true
  | _ => false

/-- No engine's own text, at any depth. -/
def RawFree (e : Expression) : Prop := ∀ leaf ∈ e.leaves, leaf.isRaw = false

instance : DecidablePred RawFree := fun e =>
  inferInstanceAs (Decidable (∀ leaf ∈ e.leaves, leaf.isRaw = false))

theorem RawFree.member {operator : Connective} {es : List Expression} {orders : List SortKey}
    {window : Window} (h : RawFree (.group operator es orders window)) :
    ∀ e ∈ es, e.RawFree := by
  intro e he leaf hl
  refine h leaf ?_
  rw [leaves, leavesOfAll_eq_flatMap]
  exact List.mem_flatMap.mpr ⟨e, he, hl⟩

theorem not_rawFree_raw (clause : String) (params : List Value) : ¬RawFree (.raw clause params) :=
  fun h => nomatch h (.raw clause params) (by simp [leaves])

end Expression

def Criteria.RawFree (c : Criteria) : Prop := ∀ e ∈ c.expressions, e.RawFree

instance : DecidablePred Criteria.RawFree := fun c =>
  inferInstanceAs (Decidable (∀ e ∈ c.expressions, e.RawFree))

/-- Neither raw clauses nor computed sort keys. -/
structure Criteria.Portable (c : Criteria) : Prop where
  rawFree : c.RawFree
  uncomputed : ∀ k ∈ c.orders, k.direction ≠ .computed

namespace Criteria

theorem portable_iff {c : Criteria} :
    c.Portable ↔ c.RawFree ∧ ∀ k ∈ c.orders, k.direction ≠ .computed :=
  ⟨fun h => ⟨h.rawFree, h.uncomputed⟩, fun h => ⟨h.1, h.2⟩⟩

instance : DecidablePred Portable := fun _ => decidable_of_iff _ portable_iff.symm

end Criteria
end DataAccess
