import DataAccess.Proofs.Join.Index
import Mathlib.Data.List.Nodup

/-!
The places that a merge lists. Each pair of places is listed once: those of partners, and those of
rows without any that are kept.
-/
namespace DataAccess.JoinPlan

variable {p : JoinPlan} {left right : List Row} {a b : Nat}

/-- Whether two rows are found to be partners: they match, and a look-up leads from one to the
other. -/
def finds (p : JoinPlan) (x y : Row) : Bool :=
  p.matchesRows x y && match p.index with
    | none => true
    | some (i, j) => decide ((x.cell i).joinKey?.isSome ∧
        (y.cell j).joinKey? = (x.cell i).joinKey?)

/-- The same by the places of the rows. -/
def findsAt (p : JoinPlan) (left right : List Row) (a b : Nat) : Bool :=
  p.finds (left.getD a []) (right.getD b [])

/-- The places of the rows found for the left row of a place. -/
def partnersAt (p : JoinPlan) (left right : List Row) (a : Nat) : List Nat :=
  (List.range right.length).filter (p.findsAt left right a)

theorem found_eq (p : JoinPlan) (left right : List Row) :
    p.found left right = (List.range left.length).map (p.partnersAt left right) := by
  have partners (x : Row) : p.partners right x (p.candidates right x) =
      (List.range right.length).filter fun b => p.finds x (right.getD b []) := by
    unfold finds
    cases indexed : p.index with
    | none =>
      simp only [candidates, indexed, Bool.and_true]
      rfl
    | some place => rw [candidates_eq indexed, JoinPlan.partners, List.filter_filter]
  simp only [found, partners]
  refine List.ext_getElem (by simp) fun a ha _ => ?_
  have hl : a < left.length := by simpa using ha
  have row : left.getD a [] = left[a] := by simp [hl]
  rw [List.getElem_map, List.getElem_map, List.getElem_range, partnersAt]
  unfold findsAt
  rw [row]

/-- Left rows in their order, and then the right rows without a partner. -/
theorem merge_eq (p : JoinPlan) (left right : List Row) : p.merge left right =
    ((List.range left.length).flatMap fun a => p.pairsOf a (p.partnersAt left right a)) ++
      if p.kind.preservesRight then
        ((List.range right.length).filter fun b => !(List.range left.length).any
          fun a => p.findsAt left right a b).map fun b => (none, some b)
      else [] := by
  have merged : p.merge left right =
      ((p.found left right).zipIdx.flatMap fun e => p.pairsOf e.2 e.1) ++
        if p.kind.preservesRight then
          ((List.range right.length).filter (· ∉ (p.found left right).flatten)).map
            fun b => (none, some b)
        else [] := rfl
  have places : (p.found left right).zipIdx =
      (List.range left.length).map fun a => (p.partnersAt left right a, a) := by
    rw [found_eq]
    exact List.ext_getElem (by simp) fun a _ _ => by simp
  have unmatched (b : Nat) (hb : b ∈ List.range right.length) :
      decide (b ∉ (p.found left right).flatten) =
        !(List.range left.length).any fun a => p.findsAt left right a b := by
    rw [found_eq, Bool.eq_iff_iff]
    simp [partnersAt, List.mem_range.mp hb]
  rw [merged, places, List.flatMap_map, List.filter_congr unmatched]

/-- What the plan lists, place by place. -/
def Lists (p : JoinPlan) (left right : List Row) : PlacePair → Prop
  | (some a, some b) => a < left.length ∧ b < right.length ∧ p.findsAt left right a b = true
  | (some a, none) => p.kind.preservesLeft = true ∧ a < left.length ∧
      ∀ b < right.length, p.findsAt left right a b = false
  | (none, some b) => p.kind.preservesRight = true ∧ b < right.length ∧
      ∀ a < left.length, p.findsAt left right a b = false
  | (none, none) => False

theorem mem_merge_iff {e : PlacePair} : e ∈ p.merge left right ↔ p.Lists left right e := by
  rw [merge_eq, List.mem_append, List.mem_flatMap]
  simp only [List.mem_range, mem_pairsOf]
  obtain ⟨_ | a, _ | b⟩ := e
  · cases p.kind.preservesRight <;> simp [Lists]
  · cases h : p.kind.preservesRight <;> simp [Lists, h]
  · cases p.kind.preservesRight <;>
      simp [Lists, partnersAt, List.filter_eq_nil_iff, and_left_comm]
  · cases p.kind.preservesRight <;> simp [Lists, partnersAt]

theorem nodup_merge (p : JoinPlan) (left right : List Row) : (p.merge left right).Nodup := by
  have pairs (a : Nat) : (p.pairsOf a (p.partnersAt left right a)).Nodup := by
    have partners : (p.partnersAt left right a).Nodup := List.nodup_range.filter _
    unfold pairsOf
    split
    · split <;> simp
    · exact partners.map fun b c h => by simpa using h
  have apart : (List.range left.length).Pairwise (Function.onFun List.Disjoint fun a =>
      p.pairsOf a (p.partnersAt left right a)) := by
    refine List.nodup_range.imp fun hne e ha hb => hne ?_
    exact Option.some.inj ((mem_pairsOf.mp ha).1.symm.trans (mem_pairsOf.mp hb).1)
  rw [merge_eq]
  refine List.Nodup.append (List.nodup_flatMap.mpr ⟨fun a _ => pairs a, apart⟩) ?_ ?_
  · split
    · exact (List.nodup_range.filter _).map fun b c h => by simpa using h
    · exact List.nodup_nil
  · intro e he hr
    obtain ⟨a, -, ha⟩ := List.mem_flatMap.mp he
    have left := (mem_pairsOf.mp ha).1
    split at hr
    · obtain ⟨b, -, rfl⟩ := List.mem_map.mp hr
      cases left
    · cases hr

end DataAccess.JoinPlan
