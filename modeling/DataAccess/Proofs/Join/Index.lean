import DataAccess.Join.Plan
import DataAccess.Proofs.Keyed
import DataAccess.Proofs.Outcome
import DataAccess.Proofs.Value.JoinKey

/-!
Merging by a look-up and by trying all pairs. The look-up finds the rows with the left row's key, so
that it misses just the partners that are equal but have another key.
-/
namespace DataAccess.JoinPlan

/-- Places in the order of the list. -/
theorem filter_zipIdx_eq_range (rows : List Row) (wanted : Row → Bool) :
    (rows.zipIdx.filter fun e => wanted e.1).map (·.2) =
      (List.range rows.length).filter fun i => wanted (rows.getD i []) := by
  have he : rows.zipIdx = (List.range rows.length).map fun i => (rows.getD i [], i) := by
    refine List.ext_getElem (by simp) fun i hi _ => ?_
    have hr : i < rows.length := by simpa using hi
    simp [hr]
  rw [he, List.filter_map, List.map_map]
  exact List.map_id _

/-- Enters a row in the bucket of its key. -/
def enter (place : Nat) (index : Keyed JoinKey (List Nat)) (e : Row × Nat) :
    Keyed JoinKey (List Nat) :=
  match (e.1.cell place).joinKey? with
  | some key => index.put key ((index.find? key).getD [] ++ [e.2])
  | none => index

/-- A bucket is what was in it and the places of the rows with its key. -/
theorem bucket_foldl (place : Nat) (key : JoinKey) (entries : List (Row × Nat))
    (index : Keyed JoinKey (List Nat)) :
    ((entries.foldl (enter place) index).find? key).getD [] = (index.find? key).getD [] ++
      (entries.filter fun e => decide ((e.1.cell place).joinKey? = some key)).map (·.2) := by
  induction entries generalizing index with
  | nil => simp
  | cons entry rest ih =>
    rw [List.foldl_cons, ih, enter]
    cases hk : (entry.1.cell place).joinKey? with
    | none => simp [hk]
    | some k =>
      by_cases he : k = key
      · simp [hk, he, Keyed.find?_put_self]
      · simp [hk, he, Keyed.find?_put_of_ne (Ne.symm he)]

theorem bucket_indexBy (place : Nat) (rows : List Row) (key : JoinKey) :
    ((indexBy place rows).find? key).getD [] = (List.range rows.length).filter fun i =>
      decide (((rows.getD i []).cell place).joinKey? = some key) := by
  have h := bucket_foldl place key rows.zipIdx []
  rw [filter_zipIdx_eq_range rows fun x => decide ((x.cell place).joinKey? = some key)] at h
  exact h

variable {p : JoinPlan} {left right : List Row} {i j : Nat}

/-- The rows that are tried have the left row's key. -/
theorem candidates_eq (indexed : p.index = some (i, j)) (x : Row) :
    p.candidates right x = (List.range right.length).filter fun b =>
      decide ((x.cell i).joinKey?.isSome ∧
        ((right.getD b []).cell j).joinKey? = (x.cell i).joinKey?) := by
  simp only [candidates, indexed]
  cases (x.cell i).joinKey? with
  | none => simp
  | some key => simpa using bucket_indexBy j right key

/-- An indexed plan has an equality that each pair of partners satisfies. -/
theorem equal_of_matchesRows (chosen : indexOf p.operator p.terms = some (i, j)) {x y : Row}
    (h : p.matchesRows x y = true) : (x.cell i).compare (y.cell j) = some .eq := by
  obtain ⟨ho, t, hf, hij⟩ : (p.operator = .and ∨ p.terms.length = 1) ∧
      ∃ t, p.terms.find? isEquality = some t ∧ (t.left, t.right) = (i, j) := by
    unfold indexOf at chosen
    split at chosen
    · exact ⟨‹_›, Option.map_eq_some_iff.mp chosen⟩
    · simp at chosen
  obtain ⟨rfl, rfl⟩ := Prod.mk.inj hij
  have mem := List.mem_of_find?_eq_some hf
  have holds : t.predicate.matchesCells (x.cell t.left) (y.cell t.right) = true := by
    cases hop : p.operator with
    | and =>
      simp only [matchesRows, hop] at h
      exact List.all_eq_true.mp h t mem
    | or =>
      obtain ⟨s, hs⟩ := List.length_eq_one_iff.mp (ho.resolve_left (by simp [hop]))
      simp only [matchesRows, hop] at h
      simp_all
  have equality := List.find?_some hf
  simp only [isEquality, Bool.and_eq_true, decide_eq_true_eq] at equality
  simp only [JoinExpression.matchesCells, equality.1, equality.2, Relation.holds] at holds
  split at holds
  · simp_all
  · simp at holds

/-- The partners found for each left row. -/
def found (p : JoinPlan) (left right : List Row) : List (List Nat) :=
  left.map fun x => p.partners right x (p.candidates right x)

theorem merge_congr {q : JoinPlan} (kind : p.kind = q.kind)
    (h : p.found left right = q.found left right) : p.merge left right = q.merge left right := by
  simp only [found] at h
  simp only [merge, pairsOf, kind, h]

theorem mem_pairsOf {a : Nat} {partners : List Nat} {e : PlacePair} : e ∈ p.pairsOf a partners ↔
    e.1 = some a ∧ match e.2 with
      | some b => b ∈ partners
      | none => p.kind.preservesLeft = true ∧ partners = [] := by
  obtain ⟨l, r⟩ := e
  cases partners with
  | nil => cases r <;> cases h : p.kind.preservesLeft <;> simp [pairsOf, h]
  | cons c rest =>
    have hp : p.pairsOf a (c :: rest) = (c :: rest).map fun b => (some a, some b) := rfl
    rw [hp, List.mem_map]
    cases r with
    | none => simp
    | some b =>
      simp only [Prod.mk.injEq, Option.some.injEq]
      constructor
      · intro h
        obtain ⟨b, hb, rfl, rfl⟩ := h
        exact ⟨rfl, hb⟩
      · rintro ⟨hl, hb⟩
        exact ⟨b, hb, hl.symm, rfl⟩

/-- A left row is paired with its partners and no others. -/
theorem mem_merge {a b : Nat} (ha : a < left.length) :
    (some a, some b) ∈ p.merge left right ↔
      b ∈ p.partners right left[a] (p.candidates right left[a]) := by
  have hf : (p.found left right)[a]? =
      some (p.partners right left[a] (p.candidates right left[a])) := by
    rw [found, List.getElem?_map, List.getElem?_eq_getElem ha]
    rfl
  -- The right rows that are left over are listed without a left row.
  have split : (some a, some b) ∈ p.merge left right ↔
      (some a, some b) ∈ (p.found left right).zipIdx.flatMap fun e => p.pairsOf e.2 e.1 := by
    rw [merge]
    dsimp only
    rw [List.mem_append, or_iff_left]
    · rfl
    · split <;> simp
  rw [split, List.mem_flatMap]
  constructor
  · intro h
    obtain ⟨⟨partners, k⟩, hk, hp⟩ := h
    obtain ⟨same, hb⟩ := mem_pairsOf.mp hp
    obtain rfl := Option.some.inj same
    rw [List.mem_zipIdx_iff_getElem?] at hk
    exact Option.some.inj (hk.symm.trans hf) ▸ hb
  · intro hb
    exact ⟨(_, a), List.mem_zipIdx_iff_getElem?.mpr hf, mem_pairsOf.mpr ⟨rfl, hb⟩⟩

theorem mem_partners {x : Row} {tried : List Nat} {b : Nat} :
    b ∈ p.partners right x tried ↔ b ∈ tried ∧ p.matchesRows x (right.getD b []) = true :=
  List.mem_filter

theorem isSome_joinKey? {v w : Value} {o : Ordering} (h : v.compare w = some o) :
    v.joinKey?.isSome = true := by
  cases v with
  | null k => simp [Value.compare] at h
  | of a => rfl

theorem candidates_withoutIndex (x : Row) :
    p.withoutIndex.candidates right x = List.range right.length := rfl

/-- Where partners have equal keys, the look-up finds them all. -/
theorem merge_withoutIndex (chosen : p.index = indexOf p.operator p.terms)
    (keyed : ∀ i j, p.index = some (i, j) → ∀ x ∈ left, ∀ y ∈ right, p.matchesRows x y = true →
      (x.cell i).joinKey? = (y.cell j).joinKey?) :
    p.merge left right = p.withoutIndex.merge left right := by
  refine merge_congr rfl (List.map_congr_left fun x hx => ?_)
  cases indexed : p.index with
  | none =>
    rw [candidates_withoutIndex]
    simp only [candidates, indexed]
    rfl
  | some place =>
    obtain ⟨i, j⟩ := place
    rw [candidates_eq indexed, candidates_withoutIndex]
    simp only [partners, List.filter_filter]
    refine List.filter_congr fun b hb => ?_
    have hlt : b < right.length := List.mem_range.mp hb
    change (p.matchesRows x (right.getD b []) && _) = p.matchesRows x (right.getD b [])
    cases hm : p.matchesRows x (right.getD b []) with
    | false => rfl
    | true =>
      have hy : right.getD b [] ∈ right := by simp [hlt]
      have hc := equal_of_matchesRows (chosen.symm.trans indexed) hm
      have hk := keyed i j indexed x hx _ hy hm
      rw [Bool.true_and, decide_eq_true_eq]
      exact ⟨isSome_joinKey? hc, hk.symm⟩

theorem index_ofCriteria {l r : Mapping} {c : JoinCriteria} (built : ofCriteria l r c = .ok p) :
    p.index = indexOf p.operator p.terms := by
  unfold ofCriteria at built
  cases ht : c.expressions.mapM (term l r) with
  | error f => simp [ht] at built
  | ok terms =>
    cases ho : c.orders.mapM (order l r) with
    | error f => simp [ht, ho] at built
    | ok orders =>
      simp only [ht, ho, Outcome.ok_bind, Outcome.pure_eq, Except.ok.injEq] at built
      exact built ▸ rfl

/-- The look-up agrees with trying all pairs exactly when no partners are parted decimals. -/
theorem merge_eq_withoutIndex_iff {l r : Mapping} {c : JoinCriteria}
    (built : ofCriteria l r c = .ok p) (indexed : p.index = some (i, j)) :
    p.merge left right = p.withoutIndex.merge left right ↔
      ∀ x ∈ left, ∀ y ∈ right, p.matchesRows x y = true → ¬ (x.cell i).Parted (y.cell j) := by
  have chosen := index_ofCriteria built
  have equal {x y : Row} : p.matchesRows x y = true → (x.cell i).compare (y.cell j) = some .eq :=
    equal_of_matchesRows (chosen.symm.trans indexed)
  constructor
  · intro h x hx y hy hm
    obtain ⟨a, ha, rfl⟩ := List.mem_iff_getElem.mp hx
    obtain ⟨b, hb, rfl⟩ := List.mem_iff_getElem.mp hy
    have hd : right.getD b [] = right[b] := by simp [hb]
    have tried : (some a, some b) ∈ p.withoutIndex.merge left right := by
      rw [mem_merge ha, mem_partners, candidates_withoutIndex, hd]
      exact ⟨List.mem_range.mpr hb, hm⟩
    rw [← h, mem_merge ha, mem_partners, candidates_eq indexed, List.mem_filter] at tried
    have keys := (of_decide_eq_true tried.1.2).2
    rw [hd] at keys
    exact (Value.joinKey?_eq_iff (equal hm)).mp keys.symm
  · intro h
    refine merge_withoutIndex chosen fun i' j' indexed' x hx y hy hm => ?_
    obtain ⟨rfl, rfl⟩ := Prod.mk.inj (Option.some.inj (indexed.symm.trans indexed'))
    exact (Value.joinKey?_eq_iff (equal hm)).mpr (h x hx y hy hm)

/-- Nineteen tenths, written with one place and with twenty-two. -/
def shortPrice : Decimal := ⟨false, 19, 1, by decide, by decide⟩
def longPrice : Decimal := ⟨false, 19000000000000000000000, 22, by decide, by decide⟩

def byPrice : JoinCriteria := (JoinCriteria.ofKind .inner).on ⟨.equal, "price", "price", true⟩
def prices : Mapping := ⟨⟨"", "t"⟩, [.required "price" "price" .decimal]⟩

/-- One price in two spellings is equal to itself, and is not found. -/
theorem merge_ne_withoutIndex_prices : ∃ p, ofCriteria prices prices byPrice = .ok p ∧
    p.merge [[.of (.decimal shortPrice)]] [[.of (.decimal longPrice)]] ≠
      p.withoutIndex.merge [[.of (.decimal shortPrice)]] [[.of (.decimal longPrice)]] := by
  refine ⟨_, rfl, fun h => ?_⟩
  have parted : shortPrice.Parted longPrice := by
    refine ⟨by decide +kernel, by decide +kernel, by decide +kernel⟩
  exact (merge_eq_withoutIndex_iff (l := prices) (r := prices) (c := byPrice) rfl rfl).mp h _
    (List.mem_singleton_self _) _ (List.mem_singleton_self _) (by decide +kernel) parted

end DataAccess.JoinPlan
