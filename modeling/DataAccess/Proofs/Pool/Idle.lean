import DataAccess.Pool
import DataAccess.Proofs.Effect
import Mathlib.Data.List.Perm.Basic

/-!
Idle objects, under each key and all together. Leases and their ends as steps of a pool that is not
poisoned.
-/
namespace DataAccess

namespace Keyed

variable {κ α : Type} [DecidableEq κ]

/-- A list in place of another: what was there goes, and nothing else. -/
theorem flatMap_put_perm (key : κ) (l : List α) (entries : Keyed κ (List α)) :
    ((entries.find? key).getD [] ++ (entries.put key l).flatMap Prod.snd).Perm
      (l ++ entries.flatMap Prod.snd) := by
  induction entries with
  | nil => simp [put, find?]
  | cons entry rest ih =>
    obtain ⟨k, old⟩ := entry
    by_cases hk : k = key
    · simp only [put, find?, hk, if_true, Option.getD_some, List.flatMap_cons]
      rw [← List.append_assoc, ← List.append_assoc]
      exact List.perm_append_comm.append_right _
    · simp only [put, find?, hk, if_false, List.flatMap_cons]
      have behind := (ih.append_left old).trans (List.perm_append_comm_assoc ..)
      exact (List.perm_append_comm_assoc ..).trans behind

theorem keys_put_nodup {entries : Keyed κ α} (distinct : (entries.map Prod.fst).Nodup) (key : κ)
    (a : α) : ((entries.put key a).map Prod.fst).Nodup := by
  have keys (entries : Keyed κ α) : ∀ k ∈ (entries.put key a).map Prod.fst,
      k = key ∨ k ∈ entries.map Prod.fst := by
    induction entries with
    | nil => simp [put]
    | cons entry rest ih =>
      by_cases hk : entry.1 = key
      · simp [put, hk]
      · simp only [put, hk, if_false, List.map_cons, List.forall_mem_cons]
        exact ⟨by simp, fun k hm => (ih k hm).imp_right (List.mem_cons_of_mem _)⟩
  induction entries with
  | nil => simp [put]
  | cons entry rest ih =>
    obtain ⟨fresh, distinct⟩ := List.nodup_cons.mp distinct
    by_cases hk : entry.1 = key
    · simp only [put, hk, if_true, List.map_cons, List.nodup_cons]
      exact ⟨hk ▸ fresh, distinct⟩
    · simp only [put, hk, if_false, List.map_cons, List.nodup_cons]
      exact ⟨fun hm => (keys rest _ hm).elim hk fresh, ih distinct⟩

theorem find?_eq_none {entries : Keyed κ α} {key : κ} (fresh : key ∉ entries.map Prod.fst) :
    entries.find? key = none := by
  induction entries with
  | nil => rfl
  | cons entry rest ih =>
    obtain ⟨hk, fresh⟩ := not_or.mp (List.mem_cons.not.mp fresh)
    simp only [find?, Ne.symm hk, if_false]
    exact ih fresh

/-- Under distinct keys each list is found. -/
theorem map_find?_of_nodup {entries : Keyed κ (List α)}
    (distinct : (entries.map Prod.fst).Nodup) :
    (entries.map Prod.fst).map (fun key => (entries.find? key).getD []) =
      entries.map Prod.snd := by
  induction entries with
  | nil => rfl
  | cons entry rest ih =>
    obtain ⟨k, l⟩ := entry
    obtain ⟨fresh, distinct⟩ := List.nodup_cons.mp distinct
    rw [List.map_cons, List.map_cons, List.map_cons, ← ih distinct]
    refine List.cons_eq_cons.mpr ⟨by simp [find?], List.map_congr_left fun key hm => ?_⟩
    have hk : k ≠ key := fun h => fresh (h ▸ hm)
    simp [find?, hk]

end Keyed

namespace Pool

variable {κ τ σ : Type} [DecidableEq κ]

/-- All objects that are idle, under whatever key. -/
def allIdle (p : Pool κ τ) : List τ := p.idle.flatMap Prod.snd

variable {p p' : Pool κ τ} {key : κ} {object : τ}

theorem takeIdle?_eq_some : p.takeIdle? key = some (object, p') ↔ ∃ rest,
    p.idleUnder key = object :: rest ∧
      p' = { p with idle := p.idle.put key rest, reused := p.reused + 1 } := by
  unfold takeIdle?
  cases p.idleUnder key with
  | nil => simp
  | cons first rest =>
    constructor
    · intro h
      obtain ⟨rfl, rfl⟩ := Prod.mk.inj (Option.some.inj h)
      exact ⟨rest, rfl, rfl⟩
    · intro h
      obtain ⟨_, hl, rfl⟩ := h
      obtain ⟨rfl, rfl⟩ := List.cons.inj hl
      rfl

/-- An idle object is handed out. -/
structure Taken (p : Pool κ τ) (key : κ) (object : τ) (p' : Pool κ τ) : Prop where
  under : ∀ k, p.idleUnder k = if k = key then object :: p'.idleUnder k else p'.idleUnder k
  all : p.allIdle.Perm (object :: p'.allIdle)
  counters : p'.created = p.created ∧ p'.reused = p.reused + 1
  fixed : p'.maxIdle = p.maxIdle ∧ p'.poisoned = p.poisoned
  keys : (p.idle.map Prod.fst).Nodup → (p'.idle.map Prod.fst).Nodup

theorem taken_of_takeIdle? (h : p.takeIdle? key = some (object, p')) :
    p.Taken key object p' := by
  obtain ⟨rest, hu, rfl⟩ := takeIdle?_eq_some.mp h
  refine ⟨fun k => ?_, ?_, ⟨rfl, rfl⟩, ⟨rfl, rfl⟩, fun distinct => ?_⟩
  · by_cases hk : k = key
    · rw [if_pos hk, hk, hu, idleUnder, Keyed.find?_put_self]
      rfl
    · rw [if_neg hk, idleUnder, idleUnder, Keyed.find?_put_of_ne hk]
  · have perm := Keyed.flatMap_put_perm key rest p.idle
    rw [idleUnder] at hu
    rw [hu, List.cons_append] at perm
    refine ((List.perm_append_left_iff rest).mp ?_).symm
    exact List.perm_middle.trans perm
  · exact Keyed.keys_put_nodup distinct key rest

theorem Taken.mem (h : p.Taken key object p') : object ∈ p.idleUnder key := by
  rw [h.under, if_pos rfl]
  exact List.mem_cons_self

theorem Taken.mem_of_mem (h : p.Taken key object p') {k : κ} {x : τ}
    (hx : x ∈ p'.idleUnder k) : x ∈ p.idleUnder k := by
  rw [h.under]
  split
  · exact List.mem_cons_of_mem _ hx
  · exact hx

/-- An object is given back: it is kept where there is room. -/
theorem idleUnder_giveBack (sound : p.poisoned = false) (key k : κ) (object : τ) :
    (p.giveBack key object).idleUnder k =
      if k = key ∧ p.hasRoom key = true then object :: p.idleUnder key else p.idleUnder k := by
  simp only [giveBack, sound, Bool.false_eq_true, if_false]
  by_cases hk : k = key
  · subst hk
    rw [idleUnder, Keyed.find?_put_self]
    cases p.hasRoom k <;> simp
  · rw [idleUnder, Keyed.find?_put_of_ne hk]
    simp [idleUnder, hk]

theorem allIdle_giveBack (sound : p.poisoned = false) (key : κ) (object : τ) :
    (p.giveBack key object).allIdle.Perm
      (if p.hasRoom key = true then object :: p.allIdle else p.allIdle) := by
  simp only [giveBack, sound, Bool.false_eq_true, if_false]
  have perm (l : List τ) := Keyed.flatMap_put_perm key l p.idle
  cases p.hasRoom key with
  | true =>
    refine (List.perm_append_left_iff (p.idleUnder key)).mp ((perm _).trans ?_)
    exact List.perm_middle.symm
  | false => exact (List.perm_append_left_iff (p.idleUnder key)).mp (perm _)

theorem giveBack_fixed (p : Pool κ τ) (key : κ) (object : τ) :
    (p.giveBack key object).created = p.created ∧ (p.giveBack key object).reused = p.reused ∧
      (p.giveBack key object).maxIdle = p.maxIdle ∧
      (p.giveBack key object).poisoned = p.poisoned := by
  unfold giveBack
  split <;> simp

theorem giveBack_keys (distinct : (p.idle.map Prod.fst).Nodup) (key : κ) (object : τ) :
    ((p.giveBack key object).idle.map Prod.fst).Nodup := by
  unfold giveBack
  split
  · exact distinct
  · exact Keyed.keys_put_nodup distinct key _

variable {pool : Place σ (Pool κ τ)} {create : Action σ τ} {s : σ}

theorem lease_of_taken (sound : (pool.get s).poisoned = false)
    (same : pool.set (pool.get s) s = s) (h : (pool.get s).takeIdle? key = some (object, p'))
    (log : List LogRecord) :
    lease pool key create ⟨s, log⟩ = (.ok object, ⟨pool.set p' s, log⟩) := by
  rw [lease, Action.bind_effect, Effect.run_read same]
  simp only [sound, Bool.false_eq_true, if_false, h]
  rfl

theorem lease_of_none (sound : (pool.get s).poisoned = false)
    (same : pool.set (pool.get s) s = s) (h : (pool.get s).takeIdle? key = none)
    (log : List LogRecord) :
    lease pool key create ⟨s, log⟩ = (create >>= fun object => do
      Action.effect (Effect.within pool (Effect.modify noteCreated))
      pure object) ⟨s, log⟩ := by
  rw [lease, Action.bind_effect, Effect.run_read same]
  simp only [sound, Bool.false_eq_true, if_false, h]

theorem release_eq (sound : (pool.get s).poisoned = false) (same : pool.set (pool.get s) s = s)
    (key : κ) (object : τ) (log : List LogRecord) :
    release pool key object ⟨s, log⟩ =
      ((), ⟨pool.set ((pool.get s).giveBack key object) s, log⟩) := by
  rw [release, Effect.run_bind, Effect.run_read same]
  simp only [sound, Bool.false_eq_true, if_false]
  rfl

end Pool
end DataAccess
