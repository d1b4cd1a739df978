import DataAccess.Proofs.Join.Presorted

/-!
Filters and joins. A filter of a side whose rows need no partner holds after the join as before it;
a filter of the other side holds with what relates the rows. A right outer join is a left outer one
seen from the other side.
-/
namespace DataAccess.JoinKind

variable {kind : JoinKind} {related : Row → Row → Bool} {keep : Row → Bool}
  {P : JoinedRow → Bool} {ls rs : List Row}

theorem filter_paired_left (h : kind.preservesRight = false) (keep : Row → Bool)
    (same : ∀ l r, P ⟨some l, r⟩ = keep l) :
    (kind.paired related ls rs).filter P = kind.paired related (ls.filter keep) rs := by
  simp only [paired, h, Bool.false_eq_true, if_false, List.append_nil]
  rw [List.filter_flatMap, ← flatMap_filter]
  refine List.flatMap_congr fun l _ => ?_
  have each : ∀ row ∈ (if (rs.filter (related l)).isEmpty then
      if kind.preservesLeft then [⟨some l, none⟩] else []
      else (rs.filter (related l)).map fun r => (⟨some l, some r⟩ : JoinedRow)),
      P row = keep l := by
    intro row hrow
    split at hrow
    · split at hrow
      · obtain rfl := List.mem_singleton.mp hrow
        exact same l none
      · cases hrow
    · obtain ⟨r, -, rfl⟩ := List.mem_map.mp hrow
      exact same l (some r)
  rw [List.filter_congr each]
  cases keep l <;> simp

/-- Where no left row stands without a partner, a left row stands once for each. -/
theorem partnered (h : kind.preservesLeft = false) (l : Row) (partners : List Row) :
    (if partners.isEmpty then if kind.preservesLeft then [⟨some l, none⟩] else []
      else partners.map fun r => (⟨some l, some r⟩ : JoinedRow)) =
    partners.map fun r => ⟨some l, some r⟩ := by
  cases partners <;> simp [h]

theorem filter_paired_right (h : kind.preservesLeft = false) (keep : Row → Bool)
    (same : ∀ l r, P ⟨l, some r⟩ = keep r) :
    (kind.paired related ls rs).filter P = kind.paired related ls (rs.filter keep) := by
  have pairs (left : Option Row) (wanted : Row → Bool) :
      ((rs.filter wanted).map fun r => (⟨left, some r⟩ : JoinedRow)).filter P =
        ((rs.filter keep).filter wanted).map fun r => ⟨left, some r⟩ := by
    rw [List.filter_map, List.filter_comm _ keep]
    exact congrArg _ (List.filter_congr fun r _ => same left r)
  rw [paired, List.filter_append, List.filter_flatMap]
  congr 1
  · refine List.flatMap_congr fun l _ => ?_
    simp only [partnered h]
    exact pairs (some l) (related l)
  · cases kind.preservesRight with
    | false => rfl
    | true => exact pairs none _

theorem paired_and_right (h : kind.preservesRight = false) :
    kind.paired (fun l r => related l r && keep r) ls rs =
      kind.paired related ls (rs.filter keep) := by
  simp only [paired, h, Bool.false_eq_true, if_false, List.filter_filter]

theorem paired_and_left (h : kind.preservesLeft = false) :
    kind.paired (fun l r => related l r && keep l) ls rs =
      kind.paired related (ls.filter keep) rs := by
  simp only [paired, List.any_filter]
  congr 1
  · rw [← flatMap_filter]
    refine List.flatMap_congr fun l _ => ?_
    cases keep l <;> simp [h]
  · simp only [Bool.and_comm]

theorem flatMap_comm_perm {α β γ : Type} (f : α → β → List γ) (xs : List α) (ys : List β) :
    (xs.flatMap fun x => ys.flatMap fun y => f x y).Perm
      (ys.flatMap fun y => xs.flatMap fun x => f x y) := by
  induction xs with
  | nil => simp
  | cons x rest ih =>
    simp only [List.flatMap_cons]
    exact (ih.append_left _).trans (List.flatMap_append_perm ys (f x) _)

theorem map_filter_eq_flatMap {α β : Type} (f : α → β) (wanted : α → Bool) (xs : List α) :
    (xs.filter wanted).map f = xs.flatMap fun a => if wanted a then [f a] else [] := by
  rw [flatMap_filter, List.map_eq_flatMap]

/-- A right outer join is a left outer join with the sides exchanged, but for the order. -/
theorem paired_flip_perm :
    ((JoinKind.leftOuter.paired (fun y x => related x y) rs ls).map .flip).Perm
      (JoinKind.rightOuter.paired related ls rs) := by
  have split (r : Row) : ((if (ls.filter (related · r)).isEmpty then
      if JoinKind.leftOuter.preservesLeft then [⟨some r, none⟩] else []
      else (ls.filter (related · r)).map fun l => (⟨some r, some l⟩ : JoinedRow)).map
        JoinResult.flip) =
      ((ls.filter (related · r)).map fun l => (⟨some l, some r⟩ : JoinedRow)) ++
        if !ls.any (related · r) then [⟨none, some r⟩] else [] := by
    rw [← isEmpty_filter]
    cases ls.filter (related · r) <;> simp [preservesLeft, JoinResult.flip]
  have left : JoinKind.rightOuter.preservesLeft = false := rfl
  simp only [paired, List.map_append, List.map_flatMap, split, partnered left]
  simp only [preservesRight, Bool.false_eq_true, if_false, if_true, List.map_nil, List.append_nil]
  refine (List.flatMap_append_perm rs _ _).symm.trans ?_
  rw [map_filter_eq_flatMap _ (fun r => !ls.any (related · r))]
  refine List.Perm.append_right _ ?_
  simp only [map_filter_eq_flatMap]
  exact flatMap_comm_perm
    (fun r l => if related l r then [(⟨some l, some r⟩ : JoinedRow)] else []) rs ls

end DataAccess.JoinKind
