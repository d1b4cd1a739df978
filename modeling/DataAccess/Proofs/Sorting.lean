import DataAccess.Evaluation.StableSort
import Mathlib.Data.List.Basic
import Mathlib.Data.List.Perm.Basic

/-!
Sorting where elements may tie. Ties keep their order, so that a sorted list is known from each
class of ties as it was before.
-/
namespace DataAccess

variable {α β : Type}

/-- On the elements in `S` the comparison is a preorder. -/
structure Ranks (S : α → Prop) (compare : α → α → Ordering) : Prop where
  swap : ∀ a b, compare b a = (compare a b).swap
  trans : ∀ a b c, S a → S b → S c → (compare a b).isLE → (compare b c).isLE → (compare a c).isLE

/-- By several comparisons, the first difference deciding. -/
def lexicographic (compares : List (α → α → Ordering)) (a b : α) : Ordering :=
  compares.foldl (fun o compare => o.then (compare a b)) .eq

theorem lexicographic_cons (compare : α → α → Ordering) (rest : List (α → α → Ordering))
    (a b : α) :
    lexicographic (compare :: rest) a b = (compare a b).then (lexicographic rest a b) := by
  have shift (o : Ordering) : rest.foldl (fun o compare => o.then (compare a b)) o =
      o.then (lexicographic rest a b) := by
    unfold lexicographic
    induction rest generalizing o with
    | nil => simp
    | cons c rest ih =>
      rw [List.foldl_cons, List.foldl_cons, ih, ih (Ordering.eq.then (c a b))]
      simp [Ordering.then_assoc]
  rw [lexicographic, List.foldl_cons, shift]
  rfl

theorem lexicographic_eq_eq {compares : List (α → α → Ordering)} {a b : α} :
    lexicographic compares a b = .eq ↔ ∀ compare ∈ compares, compare a b = .eq := by
  induction compares with
  | nil => simp [lexicographic]
  | cons compare rest ih =>
    rw [lexicographic_cons, Ordering.then_eq_eq, ih, List.forall_mem_cons]

/-- Under the first of several keys that is no tie, one is before the other. -/
inductive Precedes {ι : Type} (before level : ι → Prop) : List ι → Prop where
  | here {k : ι} {rest : List ι} (first : before k) : Precedes before level (k :: rest)
  | later {k : ι} {rest : List ι} (tie : level k) (h : Precedes before level rest) :
      Precedes before level (k :: rest)

section Precedes

variable {ι : Type} {before level before' level' : ι → Prop}

theorem precedes_cons {k : ι} {rest : List ι} : Precedes before level (k :: rest) ↔
    before k ∨ level k ∧ Precedes before level rest := by
  constructor
  · intro h
    cases h with
    | here first => exact .inl first
    | later tie h => exact .inr ⟨tie, h⟩
  · rintro (first | ⟨tie, h⟩)
    · exact .here first
    · exact .later tie h

theorem precedes_congr {keys : List ι} (hb : ∀ k ∈ keys, before k ↔ before' k)
    (hl : ∀ k ∈ keys, level k ↔ level' k) :
    Precedes before level keys ↔ Precedes before' level' keys := by
  induction keys with
  | nil => exact ⟨nofun, nofun⟩
  | cons k rest ih =>
    obtain ⟨hbk, hb⟩ := List.forall_mem_cons.mp hb
    obtain ⟨hlk, hl⟩ := List.forall_mem_cons.mp hl
    rw [precedes_cons, precedes_cons, hbk, hlk, ih hb hl]

theorem lexicographic_eq_lt {compare : ι → α → α → Ordering} {keys : List ι} {a b : α} :
    lexicographic (keys.map compare) a b = .lt ↔
      Precedes (fun k => compare k a b = .lt) (fun k => compare k a b = .eq) keys := by
  induction keys with
  | nil => exact ⟨nofun, nofun⟩
  | cons k rest ih =>
    rw [List.map_cons, lexicographic_cons, Ordering.then_eq_lt, ih, precedes_cons]

end Precedes

namespace Ranks

variable {S : α → Prop} {compare other : α → α → Ordering} {a b c : α}

theorem weaken {T : α → Prop} (h : Ranks S compare) (sub : ∀ a, T a → S a) : Ranks T compare where
  swap := h.swap
  trans a b c ha hb hc := h.trans a b c (sub a ha) (sub b hb) (sub c hc)

/-- Comparing by a key. -/
theorem on (h : Ranks S compare) (f : β → α) :
    Ranks (fun b => S (f b)) fun a b => compare (f a) (f b) where
  swap a b := h.swap (f a) (f b)
  trans a b c := h.trans (f a) (f b) (f c)

theorem self (h : Ranks S compare) (a : α) : compare a a = .eq := by
  have hs := h.swap a a
  cases ha : compare a a <;> simp_all

theorem total (h : Ranks S compare) (a b : α) : (compare a b).isLE ∨ (compare b a).isLE := by
  rw [h.swap a b]
  cases compare a b <;> simp

theorem reversed (h : Ranks S compare) : Ranks S fun a b => (compare a b).swap where
  swap a b := congrArg Ordering.swap (h.swap a b)
  trans a b c ha hb hc hab hbc := by
    rw [← h.swap] at hab hbc ⊢
    exact h.trans c b a hc hb ha hbc hab

theorem eq_comm (h : Ranks S compare) : compare a b = .eq ↔ compare b a = .eq := by
  rw [h.swap a b]
  cases compare a b <;> simp

/-- What ties with an element is compared as it is. -/
theorem congr_left (h : Ranks S compare) (ha : S a) (hb : S b) (hc : S c)
    (tie : compare a b = .eq) : compare a c = compare b c := by
  have hab : (compare a b).isLE := by simp [tie]
  have hba : (compare b a).isLE := by simp [h.eq_comm.mp tie]
  have up : (compare a c).isLE ↔ (compare b c).isLE :=
    ⟨h.trans b a c hb ha hc hba, h.trans a b c ha hb hc hab⟩
  have down : (compare c a).isLE ↔ (compare c b).isLE :=
    ⟨fun hca => h.trans c a b hc ha hb hca hab, fun hcb => h.trans c b a hc hb ha hcb hba⟩
  rw [h.swap a c, h.swap b c] at down
  cases hac : compare a c <;> cases hbc : compare b c <;> simp_all

theorem eq_of_isLE (h : Ranks S compare) (hab : (compare a b).isLE) (hba : (compare b a).isLE) :
    compare a b = .eq := by
  rw [h.swap a b] at hba
  cases hc : compare a b <;> simp_all

theorem tie_trans (h : Ranks S compare) (ha : S a) (hb : S b) (hc : S c)
    (hab : compare a b = .eq) (hbc : compare b c = .eq) : compare a c = .eq := by
  rw [h.congr_left ha hb hc hab, hbc]

theorem lt_of_lt_of_isLE (h : Ranks S compare) (ha : S a) (hb : S b) (hc : S c)
    (hab : compare a b = .lt) (hbc : (compare b c).isLE) : compare a c = .lt := by
  by_contra hac
  have hca : (compare c a).isLE := by
    rw [h.swap a c]
    cases hc : compare a c <;> simp_all
  have hba := h.trans b c a hb hc ha hbc hca
  simp [h.swap a b, hab] at hba

/-- First by one comparison, then by another. -/
theorem andThen (h : Ranks S compare) (g : Ranks S other) :
    Ranks S fun a b => (compare a b).then (other a b) where
  swap a b := by rw [Ordering.swap_then, h.swap, g.swap]
  trans a b c ha hb hc hab hbc := by
    cases hab' : compare a b with
    | gt => simp [hab'] at hab
    | eq =>
      rw [hab'] at hab
      rw [h.congr_left ha hb hc hab']
      cases hbc' : compare b c with
      | lt => rfl
      | gt => simp [hbc'] at hbc
      | eq =>
        rw [hbc'] at hbc
        exact g.trans a b c ha hb hc hab hbc
    | lt =>
      have first : (compare b c).isLE := by
        cases hbc' : compare b c <;> simp_all
      simp [h.lt_of_lt_of_isLE ha hb hc hab' first]

theorem constant : Ranks S fun _ _ => .eq where
  swap _ _ := rfl
  trans _ _ _ _ _ _ _ _ := rfl

theorem lexicographic {compares : List (α → α → Ordering)} (h : ∀ c ∈ compares, Ranks S c) :
    Ranks S (lexicographic compares) := by
  induction compares with
  | nil => exact constant
  | cons compare rest ih =>
    obtain ⟨hc, hrest⟩ := List.forall_mem_cons.mp h
    have he : DataAccess.lexicographic (compare :: rest) = fun a b =>
        (compare a b).then (DataAccess.lexicographic rest a b) := by
      funext a b
      exact lexicographic_cons compare rest a b
    rw [he]
    exact hc.andThen (ih hrest)

end Ranks

/-- Each element is no greater than those after it. -/
def Ascending (compare : α → α → Ordering) (xs : List α) : Prop :=
  xs.Pairwise fun a b => (compare a b).isLE

/-- The elements that tie with one. -/
def ties (compare : α → α → Ordering) (z : α) (xs : List α) : List α :=
  xs.filter fun a => compare z a == .eq

/-- In order, what does not tie with the first any more is greater. -/
theorem Ascending.lt_of_mem_dropWhile {S : α → Prop} {compare : α → α → Ordering}
    (h : Ranks S compare) {x : α} {xs : List α} (hxs : ∀ a ∈ x :: xs, S a)
    (sorted : Ascending compare (x :: xs)) {a : α}
    (ha : a ∈ xs.dropWhile fun a => compare x a == .eq) : compare x a = .lt := by
  rw [Ascending, List.pairwise_cons] at sorted
  rw [List.forall_mem_cons] at hxs
  obtain ⟨least, sorted⟩ := sorted
  obtain ⟨hx, hxs⟩ := hxs
  induction xs with
  | nil => simp at ha
  | cons y ys ih =>
    obtain ⟨hy, hys⟩ := List.forall_mem_cons.mp hxs
    obtain ⟨le, least⟩ := List.forall_mem_cons.mp least
    obtain ⟨below, sorted⟩ := List.pairwise_cons.mp sorted
    rcases Ordering.isLE_iff_eq_lt_or_eq_eq.mp le with lt | tie
    · have whole : a ∈ y :: ys := by simpa [lt] using ha
      rcases List.mem_cons.mp whole with rfl | later
      · exact lt
      · exact h.lt_of_lt_of_isLE hx hy (hys a later) lt (below a later)
    · exact ih (by simpa [tie] using ha) least sorted hys

section Unique

variable {S : α → Prop} {compare : α → α → Ordering}

theorem ties_cons_self (h : Ranks S compare) (x : α) (xs : List α) :
    ties compare x (x :: xs) = x :: ties compare x xs := by
  simp [ties, h.self x]

/-- Lists with the same ties have the same elements. -/
theorem mem_of_ties_eq (h : Ranks S compare) {x : α} {xs ys : List α}
    (same : ties compare x (x :: xs) = ties compare x ys) : x ∈ ys := by
  rw [ties_cons_self h] at same
  have : x ∈ ties compare x ys := same ▸ List.mem_cons_self
  exact (List.mem_filter.mp this).1

theorem head_isLE (h : Ranks S compare) {x y : α} {ys : List α}
    (sorted : Ascending compare (y :: ys)) (hx : x ∈ y :: ys) : (compare y x).isLE := by
  rcases List.mem_cons.mp hx with rfl | hx
  · simp [h.self]
  · exact (List.pairwise_cons.mp sorted).1 x hx

/-- A sorted list is known from its ties. -/
theorem eq_of_ties_eq (h : Ranks S compare) {xs ys : List α} (hx : ∀ a ∈ xs, S a)
    (hy : ∀ a ∈ ys, S a) (sx : Ascending compare xs) (sy : Ascending compare ys)
    (same : ∀ z, S z → ties compare z xs = ties compare z ys) : xs = ys := by
  induction xs generalizing ys with
  | nil =>
    cases ys with
    | nil => rfl
    | cons y ys => exact nomatch mem_of_ties_eq h (same y (hy y List.mem_cons_self)).symm
  | cons x xs ih =>
    cases ys with
    | nil => exact nomatch mem_of_ties_eq h (same x (hx x List.mem_cons_self))
    | cons y ys =>
      obtain ⟨hxS, hxs⟩ := List.forall_mem_cons.mp hx
      obtain ⟨hyS, hys⟩ := List.forall_mem_cons.mp hy
      -- The heads are in both lists, so neither is after the other.
      have tie : compare x y = .eq := h.eq_of_isLE
        (head_isLE h sx (mem_of_ties_eq h (same y hyS).symm))
        (head_isLE h sy (mem_of_ties_eq h (same x hxS)))
      have head : x = y := by
        have atx := same x hxS
        rw [ties_cons_self h] at atx
        simp only [ties, List.filter_cons, tie, beq_self_eq_true, if_true] at atx
        exact (List.cons.inj atx).1
      subst head
      refine congrArg (x :: ·) (ih hxs hys (List.pairwise_cons.mp sx).2
        (List.pairwise_cons.mp sy).2 fun z hz => ?_)
      have rest := same z hz
      simp only [ties, List.filter_cons] at rest ⊢
      split at rest
      · exact (List.cons.inj rest).2
      · exact rest

end Unique

namespace StableSort

variable {S : α → Prop} {compare : α → α → Ordering}

theorem insert_perm (x : α) (xs : List α) : (insert compare x xs).Perm (x :: xs) := by
  induction xs with
  | nil => exact List.Perm.refl _
  | cons y rest ih =>
    rw [insert]
    split
    · exact (ih.cons y).trans (List.Perm.swap x y rest)
    · exact List.Perm.refl _

theorem forall_mem_insert {T : α → Prop} {x : α} {xs : List α} (hx : T x) (hxs : ∀ a ∈ xs, T a) :
    ∀ a ∈ insert compare x xs, T a := by
  intro a ha
  rcases List.mem_cons.mp ((insert_perm x xs).mem_iff.mp ha) with rfl | ha
  · exact hx
  · exact hxs a ha

theorem foldl_perm (xs sorted : List α) :
    (xs.foldl (fun sorted x => insert compare x sorted) sorted).Perm (xs ++ sorted) := by
  induction xs generalizing sorted with
  | nil => exact List.Perm.refl _
  | cons x rest ih =>
    exact (ih _).trans (((insert_perm x sorted).append_left rest).trans List.perm_middle)

theorem sort_perm (xs : List α) : (sort compare xs).Perm xs := by
  refine (List.reverse_perm _).trans ?_
  have h : (xs.foldl (fun sorted x => insert compare x sorted) []).Perm (xs ++ []) :=
    foldl_perm xs []
  rwa [List.append_nil] at h

theorem mem_sort {a : α} {xs : List α} : a ∈ sort compare xs ↔ a ∈ xs := (sort_perm xs).mem_iff

/-- Each element is no less than those after it. -/
def Descending (compare : α → α → Ordering) (xs : List α) : Prop :=
  xs.Pairwise fun a b => (compare b a).isLE

theorem insert_descending (h : Ranks S compare) {x : α} {xs : List α} (hx : S x)
    (hxs : ∀ a ∈ xs, S a) (sorted : Descending compare xs) :
    Descending compare (insert compare x xs) := by
  induction xs with
  | nil => exact List.pairwise_singleton _ _
  | cons y rest ih =>
    obtain ⟨hy, hrest⟩ := List.forall_mem_cons.mp hxs
    obtain ⟨below, tail⟩ := List.pairwise_cons.mp sorted
    rw [insert]
    split
    · rename_i hlt
      have first : (compare x y).isLE := by simp [hlt]
      exact List.pairwise_cons.mpr ⟨forall_mem_insert first below, ih hrest tail⟩
    · rename_i hge
      have hyx : (compare y x).isLE := by
        rw [h.swap x y]
        cases hc : compare x y <;> simp_all
      refine List.pairwise_cons.mpr ⟨fun a ha => ?_, sorted⟩
      rcases List.mem_cons.mp ha with rfl | ha
      · exact hyx
      · exact h.trans a y x (hrest a ha) hy hx (below a ha) hyx

theorem foldl_descending (h : Ranks S compare) {xs sorted : List α} (hxs : ∀ a ∈ xs, S a)
    (hs : ∀ a ∈ sorted, S a) (descending : Descending compare sorted) :
    Descending compare (xs.foldl (fun sorted x => insert compare x sorted) sorted) := by
  induction xs generalizing sorted with
  | nil => exact descending
  | cons x rest ih =>
    obtain ⟨hx, hrest⟩ := List.forall_mem_cons.mp hxs
    exact ih hrest (forall_mem_insert hx hs) (insert_descending h hx hs descending)

theorem sort_ascending (h : Ranks S compare) {xs : List α} (hxs : ∀ a ∈ xs, S a) :
    Ascending compare (sort compare xs) :=
  List.pairwise_reverse.mpr (foldl_descending h hxs (fun _ h => nomatch h) List.Pairwise.nil)

theorem insert_filter (P : α → Bool) {x : α} {xs : List α}
    (level : P x → ∀ b ∈ xs, P b → compare x b ≠ .lt) :
    (insert compare x xs).filter P = (x :: xs).filter P := by
  induction xs with
  | nil => rfl
  | cons y rest ih =>
    rw [insert]
    split
    · rename_i hlt
      have hr := ih fun hx b hb => level hx b (List.mem_cons_of_mem y hb)
      simp only [List.filter_cons] at hr ⊢
      by_cases hx : P x
      · have hy : ¬ P y := fun hy => level hx y List.mem_cons_self hy hlt
        simp_all
      · simp_all
    · rfl

/-- Elements none of which is less than another stay as they are. -/
theorem sort_filter (P : α → Bool) {xs : List α}
    (level : ∀ a ∈ xs, ∀ b ∈ xs, P a → P b → compare a b ≠ .lt) :
    (sort compare xs).filter P = xs.filter P := by
  have grow (ys sorted : List α) (hy : ∀ a ∈ ys, a ∈ xs) (hs : ∀ a ∈ sorted, a ∈ xs) :
      (ys.foldl (fun sorted x => insert compare x sorted) sorted).filter P =
        (ys.filter P).reverse ++ sorted.filter P := by
    induction ys generalizing sorted with
    | nil => rfl
    | cons y rest ih =>
      obtain ⟨hy, hrest⟩ := List.forall_mem_cons.mp hy
      rw [List.foldl_cons, ih _ hrest (forall_mem_insert hy hs),
        insert_filter P fun hp b hb => level y hy b (hs b hb) hp]
      by_cases hp : P y <;> simp [hp]
  rw [sort, List.filter_reverse, grow xs [] (fun _ h => h) (by simp)]
  simp

theorem numbered_zipIdx (xs : List α) (P : α × Nat → Bool) :
    (xs.zipIdx.filter P).Pairwise fun a b => a.2 < b.2 := by
  refine List.Pairwise.filter P ?_
  have numbers : (xs.zipIdx.map Prod.snd).Pairwise (· < ·) := by
    rw [List.zipIdx_map_snd]
    exact List.pairwise_lt_range' 1
  exact List.pairwise_map.mp numbers

/-- Elements with numbers are sorted by what they are, and ties by their numbers. -/
theorem sort_numbered (h : Ranks S compare) {xs : List (α × Nat)} (hxs : ∀ a ∈ xs, S a.1)
    (numbered : xs.Pairwise fun a b => a.2 < b.2) :
    (sort (fun a b => compare a.1 b.1) xs).Pairwise fun a b =>
      compare a.1 b.1 = .lt ∨ compare a.1 b.1 = .eq ∧ a.2 < b.2 := by
  have first : Ranks (fun a : α × Nat => S a.1) fun a b => compare a.1 b.1 := h.on Prod.fst
  rw [List.pairwise_iff_forall_sublist]
  intro a b pair
  have mem {c : α × Nat} (hc : c ∈ [a, b]) : c ∈ xs := mem_sort.mp (pair.subset hc)
  have le : (compare a.1 b.1).isLE :=
    List.pairwise_iff_forall_sublist.mp (sort_ascending first hxs) pair
  rcases Ordering.isLE_iff_eq_lt_or_eq_eq.mp le with lt | tie
  · exact .inl lt
  · refine .inr ⟨tie, ?_⟩
    -- The two stand among the ties of the first, which are as they were.
    let P (c : α × Nat) : Bool := compare a.1 c.1 == .eq
    have level : ∀ c ∈ xs, ∀ d ∈ xs, P c → P d → compare c.1 d.1 ≠ .lt := by
      intro c hc d hd htc htd
      have tie := h.tie_trans (hxs c hc) (hxs a (mem (by simp))) (hxs d hd)
        (h.eq_comm.mp (by simpa [P] using htc)) (by simpa [P] using htd)
      simp [tie]
    have among := pair.filter P
    have both : [a, b].filter P = [a, b] := by simp [P, h.self, tie]
    rw [both, sort_filter P level] at among
    exact List.pairwise_iff_forall_sublist.mp numbered (among.trans List.filter_sublist)

theorem map_insert {f : α → β} {other : β → β → Ordering}
    (same : ∀ a b, compare a b = other (f a) (f b)) (x : α) (xs : List α) :
    (insert compare x xs).map f = insert other (f x) (xs.map f) := by
  induction xs with
  | nil => rfl
  | cons y rest ih =>
    rw [insert, List.map_cons, insert, same]
    split
    · rw [List.map_cons, ih]
    · rfl

theorem map_sort {f : α → β} {other : β → β → Ordering}
    (same : ∀ a b, compare a b = other (f a) (f b)) (xs : List α) :
    (sort compare xs).map f = sort other (xs.map f) := by
  have grow (ys sorted : List α) :
      (ys.foldl (fun sorted x => insert compare x sorted) sorted).map f =
        (ys.map f).foldl (fun sorted x => insert other x sorted) (sorted.map f) := by
    induction ys generalizing sorted with
    | nil => rfl
    | cons y rest ih =>
      rw [List.foldl_cons, ih, map_insert same, List.map_cons, List.foldl_cons]
  rw [sort, List.map_reverse, grow]
  rfl

/-- The library's sort is stable as well. -/
theorem mergeSort_ties (h : Ranks S compare) {xs : List α} (hxs : ∀ a ∈ xs, S a) :
    Ascending compare (xs.mergeSort fun a b => (compare a b).isLE) ∧
      ∀ z, S z → ties compare z (xs.mergeSort fun a b => (compare a b).isLE) =
        ties compare z xs := by
  -- It asks for a preorder on a whole type.
  let le (a b : { a // S a }) : Bool := (compare a.1 b.1).isLE
  have trans (a b c) : le a b → le b c → le a c := h.trans _ _ _ a.2 b.2 c.2
  have total (a b) : le a b || le b a := by simpa [le] using h.total a.1 b.1
  let inside := xs.attachWith S hxs
  have outside : inside.map Subtype.val = xs := List.attachWith_map_subtype_val hxs
  have sorted : (inside.mergeSort le).map Subtype.val =
      xs.mergeSort fun a b => (compare a b).isLE := by
    rw [List.map_mergeSort (s := fun a b => (compare a b).isLE) fun a _ b _ => rfl, outside]
  constructor
  · rw [← sorted]
    exact List.pairwise_map.mpr (List.pairwise_mergeSort trans total inside)
  · intro z hz
    let P (a : { a // S a }) : Bool := compare z a.1 == .eq
    have level : (inside.filter P).Pairwise fun a b => le a b := by
      refine List.pairwise_of_forall_mem_list fun a ha b hb => ?_
      have hza : compare z a.1 = .eq := by simpa [P] using (List.mem_filter.mp ha).2
      have hzb : compare z b.1 = .eq := by simpa [P] using (List.mem_filter.mp hb).2
      simp [le, h.tie_trans a.2 hz b.2 (h.eq_comm.mp hza) hzb]
    have kept : inside.filter P = (inside.mergeSort le).filter P := by
      have sub := (List.sublist_mergeSort trans total level List.filter_sublist).filter P
      rw [List.filter_filter] at sub
      simp only [Bool.and_self] at sub
      exact sub.eq_of_length ((List.mergeSort_perm inside le).filter P).length_eq.symm
    rw [ties, ties, ← sorted, List.filter_map]
    conv_rhs => rw [← outside, List.filter_map]
    exact congrArg (List.map Subtype.val) kept.symm

/-- Lists with the same ties are sorted into one. -/
theorem sort_eq_mergeSort (h : Ranks S compare) {xs ys : List α} (hx : ∀ a ∈ xs, S a)
    (hy : ∀ a ∈ ys, S a) (same : ∀ z, S z → ties compare z xs = ties compare z ys) :
    sort compare xs = ys.mergeSort fun a b => (compare a b).isLE := by
  have level (z : α) (hz : S z) : ties compare z (sort compare xs) = ties compare z xs := by
    refine sort_filter _ fun a ha b hb hza hzb hlt => ?_
    have hab := h.tie_trans (hx a ha) hz (hx b hb) (h.eq_comm.mp (by simpa using hza))
      (by simpa using hzb)
    simp [hab] at hlt
  obtain ⟨sorted, sameties⟩ := mergeSort_ties h hy
  refine eq_of_ties_eq h (fun a ha => hx a (mem_sort.mp ha))
    (fun a ha => hy a (List.mem_mergeSort.mp ha)) (sort_ascending h hx) sorted fun z hz => ?_
  rw [level z hz, same z hz, sameties z hz]

end StableSort
end DataAccess
