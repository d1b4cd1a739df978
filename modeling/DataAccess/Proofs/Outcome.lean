import DataAccess.Failure
import Mathlib.Data.List.Forall2

/-!
When steps in a row succeed, or in which failure they end, whatever they give.
-/
namespace DataAccess.Outcome

variable {ε δ α β γ : Type}

@[simp] theorem ok_bind (a : α) (f : α → Except ε β) : (Except.ok a >>= f) = f a := rfl

@[simp] theorem error_bind (e : ε) (f : α → Except ε β) :
    (Except.error e >>= f) = Except.error e := rfl

@[simp] theorem pure_eq (a : α) : (pure a : Except ε α) = .ok a := rfl

theorem bind_eq_ok {x : Except ε α} {f : α → Except ε β} {b : β} :
    (x >>= f) = .ok b ↔ ∃ a, x = .ok a ∧ f a = .ok b := by
  cases x <;> simp

theorem map_eq_ok {x : Except ε α} {f : α → β} {b : β} :
    x.map f = .ok b ↔ ∃ a, x = .ok a ∧ f a = b := by
  cases x <;> simp [Except.map]

theorem map_eq_error {x : Except ε α} {f : α → β} {e : ε} : x.map f = .error e ↔ x = .error e := by
  cases x <;> simp [Except.map]

theorem mapError_eq_ok {x : Except ε α} {f : ε → δ} {a : α} :
    x.mapError f = .ok a ↔ x = .ok a := by
  cases x <;> simp [Except.mapError]

theorem pure_eq_ok {a b : α} : (pure a : Except ε α) = .ok b ↔ a = b := by
  simp

theorem mapM_cons {f : α → Except ε β} {a : α} {rest : List α} {ys : List β} :
    (a :: rest).mapM f = .ok ys ↔
      ∃ b bs, f a = .ok b ∧ rest.mapM f = .ok bs ∧ ys = b :: bs := by
  rw [List.mapM_cons, bind_eq_ok]
  simp only [bind_eq_ok, pure_eq_ok]
  constructor
  · intro h
    obtain ⟨b, hb, bs, hbs, rfl⟩ := h
    exact ⟨b, bs, hb, hbs, rfl⟩
  · intro h
    obtain ⟨b, bs, hb, hbs, rfl⟩ := h
    exact ⟨b, hb, bs, hbs, rfl⟩

/-- One result for each element. -/
theorem mapM_eq_ok {f : α → Except ε β} {xs : List α} {ys : List β} :
    xs.mapM f = .ok ys ↔ List.Forall₂ (fun x y => f x = .ok y) xs ys := by
  induction xs generalizing ys with
  | nil => simp [eq_comm]
  | cons a rest ih =>
    rw [mapM_cons, List.forall₂_cons_left_iff]
    simp only [ih]

/-- Two passes over a list are one for each element. -/
theorem mapM_mapM_eq_ok {f : α → Except ε β} {g : β → Except ε γ} {xs : List α} {zs : List γ} :
    (∃ ys, xs.mapM f = .ok ys ∧ ys.mapM g = .ok zs) ↔
      List.Forall₂ (fun x z => (f x >>= g) = .ok z) xs zs := by
  simp only [mapM_eq_ok, bind_eq_ok]
  constructor
  · intro h
    obtain ⟨ys, first, second⟩ := h
    induction first generalizing zs with
    | nil =>
      cases second
      exact .nil
    | cons hf _ ih =>
      cases second with
      | cons hg rest => exact .cons ⟨_, hf, hg⟩ (ih rest)
  · intro h
    induction h with
    | nil => exact ⟨[], .nil, .nil⟩
    | cons here _ ih =>
      obtain ⟨y, hf, hg⟩ := here
      obtain ⟨ys, first, second⟩ := ih
      exact ⟨y :: ys, .cons hf first, .cons hg second⟩

/-- A pass over other elements that gives the other results. -/
theorem mapM_map_of_eq_ok {α' β' : Type} {f : α → Except ε β} {f' : α' → Except ε β'} {g : α → α'}
    {k : β → β'} {xs : List α} {ys : List β} (h : xs.mapM f = .ok ys)
    (each : ∀ x y, f x = .ok y → f' (g x) = .ok (k y)) : (xs.map g).mapM f' = .ok (ys.map k) := by
  rw [mapM_eq_ok, List.forall₂_map_left_iff, List.forall₂_map_right_iff]
  exact (mapM_eq_ok.mp h).imp each

theorem mem_of_mapM_eq_ok {f : α → Except ε β} {xs : List α} {ys : List β}
    (h : xs.mapM f = .ok ys) {y : β} (hy : y ∈ ys) : ∃ x ∈ xs, f x = .ok y := by
  have pairs := mapM_eq_ok.mp h
  clear h
  induction pairs with
  | nil => simp at hy
  | cons hab _ ih =>
    rcases List.mem_cons.mp hy with rfl | hy
    · exact ⟨_, List.mem_cons_self, hab⟩
    · obtain ⟨x, hx, hxy⟩ := ih hy
      exact ⟨x, List.mem_cons_of_mem _ hx, hxy⟩

theorem exists_mapM_eq_ok {f : α → Except ε β} {xs : List α} :
    (∃ ys, xs.mapM f = .ok ys) ↔ ∀ x ∈ xs, ∃ y, f x = .ok y := by
  induction xs with
  | nil => simp
  | cons a rest ih =>
    rw [List.forall_mem_cons, ← ih]
    simp only [mapM_cons]
    constructor
    · intro h
      obtain ⟨_, b, bs, hb, hbs, rfl⟩ := h
      exact ⟨⟨b, hb⟩, bs, hbs⟩
    · intro ⟨⟨b, hb⟩, bs, hbs⟩
      exact ⟨_, b, bs, hb, hbs, rfl⟩

theorem exists_ok_of_isOk {x : Except ε α} (h : x.isOk = true) : ∃ a, x = .ok a := by
  cases x with
  | ok a => exact ⟨a, rfl⟩
  | error e => cases h

theorem eq_ok_of_toOption {x : Except ε α} {a : α} (h : x.toOption = some a) : x = .ok a := by
  cases x with
  | ok b => exact congrArg Except.ok (Option.some.inj h)
  | error e => cases h

theorem exists_error_of_isOk {x : Except ε α} (h : x.isOk = false) : ∃ e, x = .error e := by
  cases x with
  | ok a => cases h
  | error e => exact ⟨e, rfl⟩

def verdict (x : Except ε α) : Except ε Unit := x.map fun _ => ()

@[simp] theorem verdict_ok (a : α) : verdict (.ok a : Except ε α) = .ok () := rfl

@[simp] theorem verdict_error (e : ε) : verdict (.error e : Except ε α) = .error e := rfl

@[simp] theorem verdict_unit (x : Except ε Unit) : verdict x = x := by
  cases x <;> rfl

theorem verdict_eq_ok {x : Except ε α} : verdict x = .ok () ↔ ∃ a, x = .ok a := by
  cases x <;> simp

theorem verdict_eq_error {x : Except ε α} {e : ε} : verdict x = .error e ↔ x = .error e := by
  cases x <;> simp

theorem verdict_ne_ok {x : Except ε α} : verdict x ≠ .ok () ↔ ∃ e, x = .error e := by
  cases x <;> simp

@[simp] theorem verdict_map (x : Except ε α) (f : α → β) : verdict (x.map f) = verdict x := by
  cases x <;> rfl

/-- What is made of a result in the end has no say. -/
@[simp] theorem verdict_bind_pure (x : Except ε α) (f : α → β) :
    verdict (x >>= fun a => pure (f a)) = verdict x := by
  cases x <;> rfl

/-- Steps in a row end alike where each of them does. -/
theorem verdict_bind_congr {x : Except ε α} {y : Except ε β} {f : α → Except ε γ}
    {g : β → Except ε δ} (first : verdict x = verdict y)
    (next : ∀ a b, x = .ok a → y = .ok b → verdict (f a) = verdict (g b)) :
    verdict (x >>= f) = verdict (y >>= g) := by
  cases x with
  | error e =>
    obtain rfl := verdict_eq_error.mp first.symm
    rfl
  | ok a =>
    obtain ⟨b, rfl⟩ := verdict_eq_ok.mp first.symm
    exact next a b rfl rfl

theorem verdict_mapM_congr {f : α → Except ε β} {g : α → Except ε γ} {as : List α}
    (each : ∀ a ∈ as, verdict (f a) = verdict (g a)) :
    verdict (as.mapM f) = verdict (as.mapM g) := by
  induction as with
  | nil => rfl
  | cons a rest ih =>
    obtain ⟨first, others⟩ := List.forall_mem_cons.mp each
    rw [List.mapM_cons, List.mapM_cons]
    refine verdict_bind_congr first fun _ _ _ _ => ?_
    rw [verdict_bind_pure, verdict_bind_pure, ih others]

/-- Steps go on where a guard lets them. -/
theorem guarded_eq_ok {p : Prop} [Decidable p] {e : ε} {f : PUnit → Except ε α} {x : Except ε α}
    {a : α} : (if p then throw e >>= f else x) = .ok a ↔ ¬p ∧ x = .ok a := by
  by_cases h : p
  · rw [if_pos h]
    exact iff_of_false (fun failed => nomatch failed) fun h' => h'.1 h
  · rw [if_neg h]
    exact (and_iff_right h).symm

/-- If at all, then a failure such as this. -/
def FailsAs (p : ε → Prop) (x : Except ε α) : Prop := ∀ e, x = .error e → p e

namespace FailsAs

variable {p : ε → Prop}

theorem ok (a : α) : FailsAs p (.ok a : Except ε α) := by
  intro e h
  cases h

theorem error {e : ε} (h : p e) : FailsAs p (.error e : Except ε α) := by
  intro e' he
  exact Except.error.inj he ▸ h

theorem bind {x : Except ε α} {f : α → Except ε β} (first : FailsAs p x)
    (next : ∀ a, x = .ok a → FailsAs p (f a)) : FailsAs p (x >>= f) := by
  cases x with
  | error e => exact error (first e rfl)
  | ok a => exact next a rfl

theorem map {x : Except ε α} (h : FailsAs p x) (f : α → β) : FailsAs p (x.map f) := by
  cases x with
  | error e => exact error (h e rfl)
  | ok a => exact ok (f a)

theorem mapError {q : δ → Prop} {x : Except ε α} {f : ε → δ} (h : FailsAs (fun e => q (f e)) x) :
    FailsAs q (x.mapError f) := by
  cases x with
  | error e => exact error (h e rfl)
  | ok a => exact ok a

theorem mapM {f : α → Except ε β} {as : List α} (each : ∀ a ∈ as, FailsAs p (f a)) :
    FailsAs p (as.mapM f) := by
  induction as with
  | nil => exact ok []
  | cons a rest ih =>
    obtain ⟨first, others⟩ := List.forall_mem_cons.mp each
    rw [List.mapM_cons]
    exact first.bind fun _ _ => (ih others).bind fun _ _ => ok _

end FailsAs

end DataAccess.Outcome
