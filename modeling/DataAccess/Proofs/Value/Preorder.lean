import DataAccess.Proofs.Value.Ranks

/-!
Where cells of all kinds are in order. NULLs and cells that do not compare go by rank. Numbers stand
on one line but for two exceptions: NaN ties with each of them, and decimals, which compare exactly
with each other, meet other numbers as doubles.
-/
namespace DataAccess

theorem Decimal.compare_of_integers {d e : Decimal} {m n : Int} (hm : d.integer? = some m)
    (hn : e.integer? = some n) : d.compare e = Ord.compare m n := by
  have right := Int.mul_right_comm n (Nat.pow 10 e.scale) (Nat.pow 10 d.scale)
  rw [compare, integer?_eq_some_iff.mp hm, integer?_eq_some_iff.mp hn, right,
    compare_mul_right _ _ e.unit_pos, compare_mul_right _ _ d.unit_pos]

theorem Decimal.toBinary64_ne_nan (d : Decimal) : d.toBinary64 ≠ .nan := by
  simp only [toBinary64]
  split_ifs <;> exact nofun

theorem isLE_of_not_isLE {α : Type} {cmp : α → α → Ordering} [Std.OrientedCmp cmp] {a b : α}
    (h : ¬(cmp a b).isLE) : (cmp b a).isLE := by
  have swap : cmp b a = (cmp a b).swap := Std.OrientedCmp.eq_swap
  cases hc : cmp a b <;> simp_all

/-- Only numbers share a rank. -/
theorem Kind.eq_of_rank_eq {k l : Kind} (h : k.rank = l.rank) : k = l ∨ k.rank = 2 := by
  cases k <;> cases l <;>
    first | exact .inl rfl | exact .inr rfl | exact absurd h (by decide)

namespace Scalar

def isNumber (s : Scalar) : Bool := s.double?.isSome

/-- A number other than NaN. -/
def Placed (s : Scalar) : Prop := s.isNumber = true ∧ s ≠ .float64 .nan

/-- Where a number meets those of other kinds: at its integer, or at its double. -/
def place (s : Scalar) : Int × Int :=
  match s.integer?, s.double? with
  | some n, _ => (0, n * Binary64.one)
  | none, some x => x.standing
  | none, none => (0, 0)

theorem isNumber_iff_rank {s : Scalar} : s.isNumber = true ↔ s.kind.rank = 2 := by
  cases s <;> simp [isNumber, double?, kind, Kind.rank]

def comparePlaces : Int × Int → Int × Int → Ordering :=
  compareLex (compareOn Prod.fst) (compareOn Prod.snd)

instance : Std.TransCmp comparePlaces :=
  inferInstanceAs (Std.TransCmp (compareLex (compareOn Prod.fst) (compareOn Prod.snd)))

theorem eq_of_comparePlaces {p q : Int × Int} (h : comparePlaces p q = .eq) : p = q := by
  have parts : Ord.compare p.1 q.1 = .eq ∧ Ord.compare p.2 q.2 = .eq := Ordering.then_eq_eq.mp h
  exact Prod.ext (compare_eq_iff_eq.mp parts.1) (compare_eq_iff_eq.mp parts.2)

theorem place_of_integer {s : Scalar} {n : Int} (h : s.integer? = some n) :
    s.place = (0, n * Binary64.one) := by
  rw [place, h]

theorem comparePlaces_integers (m n : Int) :
    comparePlaces (0, m * Binary64.one) (0, n * Binary64.one) = Ord.compare m n := by
  have first : Ord.compare (0 : Int) 0 = .eq := rfl
  change (Ord.compare (0 : Int) 0).then (Ord.compare (m * Binary64.one : Int) _) = _
  rw [first, Ordering.eq_then]
  exact Decimal.compare_mul_right m n Binary64.one_pos

theorem compareInt_eq_places (n : Int) {x : Binary64} (h : x ≠ .nan) :
    Binary64.compareInt n x = some (comparePlaces (0, n * Binary64.one) x.standing) := by
  cases x with
  | nan => exact (h rfl).elim
  | infinite s => cases s <;> rfl
  | finite s a => rfl

/-- A number without integer stands at a double. -/
theorem Placed.double {s : Scalar} (h : s.Placed) (fraction : s.integer? = none) :
    ∃ x, s.double? = some x ∧ x ≠ .nan ∧ s.place = x.standing := by
  obtain ⟨number, notNaN⟩ := h
  obtain ⟨x, hx⟩ := Option.isSome_iff_exists.mp number
  refine ⟨x, hx, ?_, by rw [place, fraction, hx]⟩
  cases s with
  | float64 y =>
    obtain rfl : y = x := Option.some.inj hx
    exact fun h => notNaN (congrArg _ h)
  | decimal d =>
    obtain rfl : d.toBinary64 = x := Option.some.inj hx
    exact d.toBinary64_ne_nan
  | int32 n => cases fraction
  | int64 n => cases fraction
  | _ => cases hx

theorem compareNumbers_eq_places {a b : Scalar} (ha : a.Placed) (hb : b.Placed) :
    compareNumbers a b = some (comparePlaces a.place b.place) := by
  cases hm : a.integer? with
  | some m =>
    rw [place_of_integer hm]
    cases hn : b.integer? with
    | some n =>
      rw [place_of_integer hn, comparePlaces_integers]
      simp only [compareNumbers, hm, hn]
    | none =>
      obtain ⟨y, hy, notNaN, there⟩ := hb.double hn
      rw [there, ← compareInt_eq_places m notNaN]
      simp only [compareNumbers, hm, hn, hy, compareWide_of_integer? hm, Option.bind_some]
  | none =>
    obtain ⟨x, hx, notNaN, here⟩ := ha.double hm
    rw [here]
    cases hn : b.integer? with
    | some n =>
      have swapped : comparePlaces x.standing (0, n * Binary64.one) =
          (comparePlaces (0, n * Binary64.one) x.standing).swap := Std.OrientedCmp.eq_swap
      rw [place_of_integer hn, swapped]
      simp only [compareNumbers, hm, hn, hx, compareWide_of_integer? hn, Option.bind_some,
        compareInt_eq_places n notNaN, Option.map_some]
    | none =>
      obtain ⟨y, hy, notNaN', there⟩ := hb.double hn
      simp only [compareNumbers, hm, hn, hx, hy, Option.bind_some, there]
      exact Binary64.compare_eq_standing notNaN notNaN'

/-- NaN and what is no number meet nothing. -/
theorem compareNumbers_of_not_placed {a : Scalar} (h : ¬a.Placed) (b : Scalar) :
    compareNumbers a b = none := by
  have nowhere : a.integer? = none ∧ (a.double? = none ∨ a.double? = some .nan) := by
    cases a with
    | float64 x =>
      obtain rfl : x = .nan := by simpa [Placed, isNumber, double?] using h
      exact ⟨rfl, .inr rfl⟩
    | int32 n => simp [Placed, isNumber, double?] at h
    | int64 n => simp [Placed, isNumber, double?] at h
    | decimal d => simp [Placed, isNumber, double?] at h
    | _ => exact ⟨rfl, .inl rfl⟩
  obtain ⟨fraction, double⟩ := nowhere
  have integer (n : Int) : Binary64.compareWide n .nan = none := rfl
  rcases double with none | nan
  · cases hn : b.integer? <;>
      simp only [compareNumbers, fraction, none, hn, Option.bind_none, Option.map_none]
  · cases hn : b.integer? with
    | some n =>
      simp only [compareNumbers, fraction, nan, hn, Option.bind_some, integer, Option.map_none]
    | none =>
      simp only [compareNumbers, fraction, nan, hn, Option.bind_some]
      cases b.double? <;> rfl

theorem compare_of_kind_ne {a b : Scalar} (h : a.kind ≠ b.kind) :
    a.compare b = compareNumbers a b := by
  cases a <;> cases b <;> first | rfl | exact absurd rfl h

theorem sortCompare_self (a : Scalar) : a.sortCompare a = .eq := by
  have := sortCompare_swap a a
  cases h : a.sortCompare a <;> simp_all

/-- Numbers meet at their places, two decimals apart. -/
theorem sortCompare_places {a b : Scalar} (ha : a.Placed) (hb : b.Placed)
    (mixed : a.kind ≠ .decimal ∨ b.kind ≠ .decimal) :
    a.sortCompare b = comparePlaces a.place b.place := by
  have same : a.compare b = compareNumbers a b := by
    by_cases kinds : a.kind = b.kind
    · have number := ha.1
      cases a <;> cases b <;>
        first
        | rfl
        | exact absurd number Bool.false_ne_true
        | exact absurd rfl (mixed.elim id id)
    · exact compare_of_kind_ne kinds
  rw [sortCompare, same, compareNumbers_eq_places ha hb, Option.getD_some]

theorem sortCompare_nan {a : Scalar} (number : a.isNumber = true) :
    (float64 .nan).sortCompare a = .eq := by
  have notPlaced : ¬(float64 .nan).Placed := fun h => h.2 rfl
  have none : (float64 .nan).compare a = none := by
    by_cases kinds : (float64 .nan).kind = a.kind
    · cases a <;> first | rfl | cases kinds
    · rw [compare_of_kind_ne kinds, compareNumbers_of_not_placed notPlaced]
  rw [sortCompare, none, isNumber_iff_rank.mp number]
  rfl

/-- Where ranks differ, they decide. -/
theorem sortCompare_of_rank_ne {a b : Scalar} (h : a.kind.rank ≠ b.kind.rank) :
    a.sortCompare b = Ord.compare a.kind.rank b.kind.rank := by
  have none : compareNumbers a b = none := by
    by_cases number : a.kind.rank = 2
    · have notPlaced : ¬b.Placed := fun hb =>
        h (number.trans (isNumber_iff_rank.mp hb.1).symm)
      rw [compareNumbers_swap b a, compareNumbers_of_not_placed notPlaced]
      rfl
    · exact compareNumbers_of_not_placed (fun ha => number (isNumber_iff_rank.mp ha.1)) b
  rw [sortCompare, compare_of_kind_ne fun same => h (congrArg _ same), none]
  rfl

theorem rank_le {a b : Scalar} (h : (a.sortCompare b).isLE) : a.kind.rank ≤ b.kind.rank := by
  by_cases same : a.kind.rank = b.kind.rank
  · exact Nat.le_of_eq same
  · rw [sortCompare_of_rank_ne same] at h
    exact Nat.isLE_compare.mp h

end Scalar

namespace Value

/-- Nothing is out of line. Where there is NaN, all numbers tie; and where a number of another kind
stands between the places of two decimals, against their order, all three tie. -/
structure Orderly (S : Value → Prop) : Prop where
  nan : S (.of (.float64 .nan)) → ∀ a b, S (.of a) → S (.of b) →
    a.isNumber = true → b.isNumber = true → a.sortCompare b = .eq
  decimals : ∀ d e x, S (.of (.decimal d)) → S (.of (.decimal e)) → S (.of x) → x.Placed →
    x.kind ≠ .decimal → (d.compare e).isLE →
    (Scalar.comparePlaces (Scalar.decimal e).place x.place).isLE →
    (Scalar.comparePlaces x.place (Scalar.decimal d).place).isLE →
    d.compare e = .eq ∧ (Scalar.decimal d).place = (Scalar.decimal e).place

variable {S : Value → Prop}

namespace Orderly

open Scalar

variable {d e : Decimal} {x : Scalar} (h : Orderly S) (hd : S (.of (.decimal d)))
  (he : S (.of (.decimal e))) (hx : S (.of x)) (px : x.Placed) (kx : x.kind ≠ .decimal)

include h hd he hx px kx

theorem place_le (hde : (d.compare e).isLE) (hex : (comparePlaces (decimal e).place x.place).isLE) :
    (comparePlaces (decimal d).place x.place).isLE := by
  by_contra above
  obtain ⟨-, same⟩ := h.decimals d e x hd he hx px kx hde hex (isLE_of_not_isLE above)
  exact above (same ▸ hex)

theorem le_place (hxd : (comparePlaces x.place (decimal d).place).isLE) (hde : (d.compare e).isLE) :
    (comparePlaces x.place (decimal e).place).isLE := by
  by_contra below
  obtain ⟨-, same⟩ := h.decimals d e x hd he hx px kx hde (isLE_of_not_isLE below) hxd
  exact below (same ▸ hxd)

theorem le_of_places (hdx : (comparePlaces (decimal d).place x.place).isLE)
    (hxe : (comparePlaces x.place (decimal e).place).isLE) : (d.compare e).isLE := by
  by_contra above
  obtain ⟨same, -⟩ := h.decimals e d x he hd hx px kx (isLE_of_not_isLE above) hdx hxe
  have tie : d.compare e = .eq := Std.OrientedCmp.eq_comm.mp same
  simp [tie] at above

end Orderly

theorem placed_decimal (d : Decimal) : (Scalar.decimal d).Placed := ⟨rfl, nofun⟩

theorem exists_decimal {s : Scalar} (h : s.kind = .decimal) : ∃ d, s = .decimal d := by
  cases s with
  | decimal d => exact ⟨d, rfl⟩
  | _ => cases h

/-- Numbers of an orderly set are in order. -/
theorem Orderly.trans_numbers (h : Orderly S) {a b c : Scalar} (ha : S (.of a)) (hb : S (.of b))
    (hc : S (.of c)) (pa : a.Placed) (pb : b.Placed) (pc : c.Placed)
    (hab : (a.sortCompare b).isLE) (hbc : (b.sortCompare c).isLE) : (a.sortCompare c).isLE := by
  have meet {s t : Scalar} (ps : s.Placed) (pt : t.Placed)
      (mixed : s.kind ≠ .decimal ∨ t.kind ≠ .decimal) :
      s.sortCompare t = Scalar.comparePlaces s.place t.place :=
    Scalar.sortCompare_places ps pt mixed
  have line (mab : a.kind ≠ .decimal ∨ b.kind ≠ .decimal)
      (mbc : b.kind ≠ .decimal ∨ c.kind ≠ .decimal)
      (mac : a.kind ≠ .decimal ∨ c.kind ≠ .decimal) : (a.sortCompare c).isLE := by
    rw [meet pa pb mab] at hab
    rw [meet pb pc mbc] at hbc
    rw [meet pa pc mac]
    exact Std.TransCmp.isLE_trans hab hbc
  -- Two decimals are compared by their digits, any other two numbers by their places.
  by_cases da : a.kind = .decimal
  · obtain ⟨d, rfl⟩ := exists_decimal da
    by_cases db : b.kind = .decimal
    · obtain ⟨e, rfl⟩ := exists_decimal db
      by_cases dc : c.kind = .decimal
      · obtain ⟨f, rfl⟩ := exists_decimal dc
        have own : (d.compare f).isLE := Std.TransCmp.isLE_trans hab hbc
        exact own
      · rw [meet pb pc (.inr dc)] at hbc
        rw [meet pa pc (.inr dc)]
        exact h.place_le ha hb hc pc dc hab hbc
    · by_cases dc : c.kind = .decimal
      · obtain ⟨e, rfl⟩ := exists_decimal dc
        rw [meet pa pb (.inr db)] at hab
        rw [meet pb pc (.inl db)] at hbc
        exact h.le_of_places ha hc hb pb db hab hbc
      · exact line (.inr db) (.inl db) (.inr dc)
  · by_cases both : b.kind = .decimal ∧ c.kind = .decimal
    · obtain ⟨d, rfl⟩ := exists_decimal both.1
      obtain ⟨e, rfl⟩ := exists_decimal both.2
      rw [meet pa pb (.inl da)] at hab
      rw [meet pa pc (.inl da)]
      exact h.le_place hb hc ha pa da hab hbc
    · exact line (.inl da) (not_and_or.mp both) (.inl da)

theorem Orderly.trans_scalars (h : Orderly S) {a b c : Scalar} (ha : S (.of a)) (hb : S (.of b))
    (hc : S (.of c)) (hab : (a.sortCompare b).isLE) (hbc : (b.sortCompare c).isLE) :
    (a.sortCompare c).isLE := by
  have first := Scalar.rank_le hab
  have second := Scalar.rank_le hbc
  by_cases ends : a.kind.rank = c.kind.rank
  · by_cases number : a.kind.rank = 2
    · have na := Scalar.isNumber_iff_rank.mpr number
      have nb : b.isNumber = true := Scalar.isNumber_iff_rank.mpr (by omega)
      have nc : c.isNumber = true := Scalar.isNumber_iff_rank.mpr (by omega)
      by_cases nan : S (.of (.float64 .nan))
      · rw [h.nan nan a c ha hc na nc]
        rfl
      · have notNaN {s : Scalar} (hs : S (.of s)) : s ≠ .float64 .nan := fun same => nan (same ▸ hs)
        exact h.trans_numbers ha hb hc ⟨na, notNaN ha⟩ ⟨nb, notNaN hb⟩ ⟨nc, notNaN hc⟩ hab hbc
    · -- one kind, and no NaN among it
      have kinds : a.kind = b.kind ∧ a.kind = c.kind :=
        ⟨(Kind.eq_of_rank_eq (by omega)).resolve_right number,
          (Kind.eq_of_rank_eq ends).resolve_right number⟩
      have notNaN {s : Scalar} (same : a.kind = s.kind) : s.Sortable a.kind :=
        ⟨same.symm, fun nan => number (by rw [same, nan]; rfl)⟩
      exact Scalar.sortCompare_trans (notNaN rfl) (notNaN kinds.1) (notNaN kinds.2) hab hbc
  · rw [Scalar.sortCompare_of_rank_ne ends]
    exact Nat.isLE_compare.mpr (Nat.le_trans first second)

theorem Orderly.ranks (h : Orderly S) : Ranks S sortCompare :=
  ranks_of_scalars fun _ _ _ ha hb hc => h.trans_scalars ha hb hc

/-- What is in order is orderly. -/
theorem Orderly.of_ranks (h : Ranks S sortCompare) : Orderly S where
  nan hn a b ha hb na nb := by
    have first : sortCompare (.of a) (.of (.float64 .nan)) = .eq :=
      h.eq_comm.mp (Scalar.sortCompare_nan na)
    exact h.tie_trans ha hn hb first (Scalar.sortCompare_nan nb)
  decimals d e x hd he hx px kx hde hex hxd := by
    have meet (f : Decimal) : sortCompare (.of (.decimal f)) (.of x) =
        Scalar.comparePlaces (Scalar.decimal f).place x.place :=
      Scalar.sortCompare_places (placed_decimal f) px (.inr kx)
    have meet' (f : Decimal) : sortCompare (.of x) (.of (.decimal f)) =
        Scalar.comparePlaces x.place (Scalar.decimal f).place :=
      Scalar.sortCompare_places px (placed_decimal f) (.inl kx)
    rw [← meet] at hex
    rw [← meet'] at hxd
    have hde : (sortCompare (.of (.decimal d)) (.of (.decimal e))).isLE := hde
    have hdx := h.trans _ _ _ hd he hx hde hex
    have hxe := h.trans _ _ _ hx hd he hxd hde
    have there : (Scalar.decimal d).place = x.place :=
      Scalar.eq_of_comparePlaces ((meet d).symm.trans (h.eq_of_isLE hdx hxd))
    have here : (Scalar.decimal e).place = x.place :=
      Scalar.eq_of_comparePlaces ((meet e).symm.trans (h.eq_of_isLE hex hxe))
    exact ⟨h.eq_of_isLE hde (h.trans _ _ _ he hx hd hex hxd), there.trans here.symm⟩

/-- Numbers of any width are in order where none is NaN and decimals are whole. -/
theorem orderly_of_whole (noNaN : ¬S (.of (.float64 .nan)))
    (whole : ∀ d, S (.of (.decimal d)) → d.integer? ≠ none) : Orderly S where
  nan hn := absurd hn noNaN
  decimals d e x hd he _ _ _ hde hex hxd := by
    obtain ⟨m, hm⟩ := Option.ne_none_iff_exists'.mp (whole d hd)
    obtain ⟨n, hn⟩ := Option.ne_none_iff_exists'.mp (whole e he)
    have places : Scalar.comparePlaces (Scalar.decimal d).place (Scalar.decimal e).place =
        d.compare e := by
      have here : (Scalar.decimal d).place = _ := Scalar.place_of_integer hm
      have there : (Scalar.decimal e).place = _ := Scalar.place_of_integer hn
      rw [here, there, Scalar.comparePlaces_integers, Decimal.compare_of_integers hm hn]
    have tie := Std.OrientedCmp.isLE_antisymm (places ▸ hde) (Std.TransCmp.isLE_trans hex hxd)
    exact ⟨places ▸ tie, Scalar.eq_of_comparePlaces tie⟩

/-- Smaller cells stay smaller, or become ties, and ties stay ties. -/
def TransitiveOn (S : Value → Prop) : Prop := ∀ u v w, S u → S v → S w →
  ((sortCompare u v).isLE → (sortCompare v w).isLE → (sortCompare u w).isLE) ∧
  (sortCompare u v = .eq → sortCompare v w = .eq → sortCompare u w = .eq)

/-- Comparing for a sort is reflexive and the same from both sides. It is transitive, ties included,
on orderly cells and on no others. -/
theorem sortCompare_preorder_iff (S : Value → Prop) :
    (∀ v, sortCompare v v = .eq) ∧ (∀ v w, sortCompare w v = (sortCompare v w).swap) ∧
      (TransitiveOn S ↔ Orderly S) := by
  refine ⟨fun v => ?_, sortCompare_swap, fun h => ?_, fun h => ?_⟩
  · cases v with
    | null k => rfl
    | of a => exact Scalar.sortCompare_self a
  · exact .of_ranks ⟨sortCompare_swap, fun u v w hu hv hw => (h u v w hu hv hw).1⟩
  · exact fun u v w hu hv hw => ⟨h.ranks.trans u v w hu hv hw, h.ranks.tie_trans hu hv hw⟩

def decimalOne : Decimal := ⟨false, 1, 0, by decide, Decimal.zero.scale_le⟩

/-- Below one, but its double is one. -/
def nearOne : Decimal := ⟨false, 9999999999999999999999999999, 28, by decide, by decide⟩

/-- Two ties with NaN, which ties with one. The decimal next to one ties with the integer one, which
ties with the decimal one. -/
theorem sortCompare_preorder_iff_nearOne :
    ¬TransitiveOn (· ∈ [.of (.int64 2), .of (.float64 .nan), .of (.int64 1)]) ∧
      ¬TransitiveOn (· ∈ [.of (.decimal nearOne), .of (.int64 1), .of (.decimal decimalOne)]) := by
  constructor
  · intro transitive
    have orderly := (sortCompare_preorder_iff _).2.2.mp transitive
    have tie := orderly.nan (by simp) (.int64 2) (.int64 1) (by simp) (by simp) rfl rfl
    exact absurd tie (by decide)
  · intro transitive
    have orderly := (sortCompare_preorder_iff _).2.2.mp transitive
    have tie := (orderly.decimals nearOne decimalOne (.int64 1) (by simp) (by simp) (by simp)
      ⟨rfl, nofun⟩ nofun (by decide +kernel) (by decide +kernel) (by decide +kernel)).1
    exact absurd tie (by decide +kernel)

end Value
end DataAccess
