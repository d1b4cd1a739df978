import DataAccess.Pool.Desk
import DataAccess.Proofs.Pool.Idle
import Mathlib.Algebra.GroupWithZero.Nat
import Mathlib.Data.List.Count

/-!
Where the objects of a pool are. Each is numbered when it is made. Leases are taken, used and ended
in any order, and while an object is being made the pool may be used for others. Whatever was done,
each object is in one place, under its own key, and comes back as the reset left it.
-/
namespace DataAccess.Pool

variable {κ τ : Type} [DecidableEq κ]

/-- An object with its number, the key it was made for, and what its last lease left of it. -/
structure Item (κ τ : Type) where
  number : Nat
  origin : κ
  object : τ
  left : Option τ

namespace Item

def reset (reset : τ → τ) (x : Item κ τ) : Item κ τ :=
  { x with object := reset x.object, left := some x.object }

def change (f : τ → τ) (x : Item κ τ) : Item κ τ := { x with object := f x.object }

end Item

/-- How an object goes for good. -/
inductive Exit where
  | detached | cleared | full

/-- A pool, who has its objects, and how many were made and handed out. -/
structure Ledger (κ τ : Type) where
  pool : Pool κ (Item κ τ)
  leases : List (Lease κ (Item κ τ))
  gone : List (Exit × Item κ τ)
  made : Nat
  got : Nat

namespace Ledger

def opened (name : String) (maxIdle : Nat) : Ledger κ τ := ⟨.new name maxIdle, [], [], 0, 0⟩

def poolPlace : Place (Ledger κ τ) (Pool κ (Item κ τ)) := ⟨pool, fun pool b => { b with pool }⟩

/-- What is made gets the next number. -/
def enter (key : κ) (create : Action (Ledger κ τ) τ) : Action (Ledger κ τ) (Item κ τ) := do
  let object ← create
  let b ← Action.effect Effect.state
  Action.effect (Effect.setState { b with made := b.made + 1 })
  pure ⟨b.made, key, object, none⟩

def get (key : κ) (create : Action (Ledger κ τ) τ) :
    Action (Ledger κ τ) (Lease κ (Item κ τ)) := do
  let l ← Lease.take poolPlace key (enter key create)
  Action.effect (Effect.modify fun b => { b with leases := l :: b.leases, got := b.got + 1 })
  pure l

/-- The holder of a lease does something with the object. -/
def use (i : Nat) (f : τ → τ) : Effect (Ledger κ τ) Unit := Effect.modify fun b =>
  { b with leases := b.leases.modify i fun l => { l with object := l.object.change f } }

def drop (reset : τ → τ) (i : Nat) : Effect (Ledger κ τ) Unit := do
  let b ← Effect.state
  match b.leases[i]? with
  | some l =>
    Effect.setState { b with
      leases := b.leases.eraseIdx i
      gone := if b.pool.hasRoom l.key then b.gone else (.full, l.object.reset reset) :: b.gone }
    Lease.finish poolPlace (Item.reset reset) l
  | none => pure ()

def detach (i : Nat) : Effect (Ledger κ τ) Unit := Effect.modify fun b =>
  match b.leases[i]? with
  | some l => { b with leases := b.leases.eraseIdx i, gone := (.detached, l.object) :: b.gone }
  | none => b

def clear : Effect (Ledger κ τ) Unit := Effect.modify fun b =>
  { b with pool := b.pool.clear, gone := b.pool.allIdle.map (.cleared, ·) ++ b.gone }

/-- Steps in a row, through the pool or a clone of it. Making an object may take steps as well. -/
inductive Follows (reset : τ → τ) : Ledger κ τ → Ledger κ τ → Prop where
  | refl (b : Ledger κ τ) : Follows reset b b
  | get {b c : Ledger κ τ} (before : Follows reset b c) (key : κ)
      (create : Action (Ledger κ τ) τ) (log : List LogRecord)
      (making : ∀ env, Follows reset env.state (create env).2.state) :
      Follows reset b (get key create ⟨c, log⟩).2.state
  | use {b c : Ledger κ τ} (before : Follows reset b c) (i : Nat) (f : τ → τ)
      (log : List LogRecord) : Follows reset b (use i f ⟨c, log⟩).2.state
  | drop {b c : Ledger κ τ} (before : Follows reset b c) (i : Nat) (log : List LogRecord) :
      Follows reset b (drop reset i ⟨c, log⟩).2.state
  | detach {b c : Ledger κ τ} (before : Follows reset b c) (i : Nat) (log : List LogRecord) :
      Follows reset b (detach i ⟨c, log⟩).2.state
  | clear {b c : Ledger κ τ} (before : Follows reset b c) (log : List LogRecord) :
      Follows reset b (clear ⟨c, log⟩).2.state

def leasedNumbers (b : Ledger κ τ) : List Nat := b.leases.map (·.object.number)
def idleNumbers (b : Ledger κ τ) : List Nat := b.pool.allIdle.map (·.number)
def goneNumbers (b : Ledger κ τ) : List Nat := b.gone.map (·.2.number)

/-- The books are right, at most so many objects being idle under a key. -/
structure Right (reset : τ → τ) (most : Nat) (b : Ledger κ τ) : Prop where
  sound : b.pool.poisoned = false
  bound : b.pool.maxIdle = most
  keys : (b.pool.idle.map Prod.fst).Nodup
  places : (b.leasedNumbers ++ (b.idleNumbers ++ b.goneNumbers)).Perm (List.range b.made)
  leased : ∀ l ∈ b.leases, l.object.origin = l.key
  idle : ∀ key, ∀ x ∈ b.pool.idleUnder key,
    x.origin = key ∧ ∃ y, x.left = some y ∧ x.object = reset y
  room : ∀ key, (b.pool.idleUnder key).length ≤ most
  created : b.pool.created = b.made
  reused : b.pool.created + b.pool.reused = b.got

variable {reset : τ → τ} {most : Nat} {b c : Ledger κ τ} {key : κ} {create : Action (Ledger κ τ) τ}
  {log log' : List LogRecord}

theorem right_opened (name : String) (maxIdle : Nat) :
    (opened name maxIdle : Ledger κ τ).Right reset maxIdle where
  sound := rfl
  bound := rfl
  keys := List.nodup_nil
  places := List.Perm.refl _
  leased := by simp [opened]
  idle := by simp [opened, Pool.new, idleUnder, Keyed.find?]
  room := by simp [opened, Pool.new, idleUnder, Keyed.find?]
  created := rfl
  reused := rfl

/-- The books after an idle object was handed out. -/
def handOut (b : Ledger κ τ) (key : κ) (x : Item κ τ) (p : Pool κ (Item κ τ)) : Ledger κ τ :=
  { b with pool := p, leases := ⟨key, x⟩ :: b.leases, got := b.got + 1 }

/-- The books after an object was made and handed out. -/
def handOutNew (b : Ledger κ τ) (key : κ) (object : τ) : Ledger κ τ :=
  { b with
    pool := b.pool.noteCreated
    leases := ⟨key, b.made, key, object, none⟩ :: b.leases
    made := b.made + 1
    got := b.got + 1 }

theorem get_of_taken (sound : b.pool.poisoned = false) {x : Item κ τ} {p : Pool κ (Item κ τ)}
    (h : b.pool.takeIdle? key = some (x, p)) (create : Action (Ledger κ τ) τ)
    (log : List LogRecord) :
    get key create ⟨b, log⟩ = (.ok ⟨key, x⟩, ⟨b.handOut key x p, log⟩) := by
  have taken : Pool.lease poolPlace key (enter key create) ⟨b, log⟩ =
    (.ok x, ⟨{ b with pool := p }, log⟩) := lease_of_taken sound rfl h log
  have leased : Lease.take poolPlace key (enter key create) ⟨b, log⟩ =
    (.ok ⟨key, x⟩, ⟨{ b with pool := p }, log⟩) := Action.bind_of_ok taken
  exact Action.bind_of_ok leased

theorem get_of_made (sound : b.pool.poisoned = false) (h : b.pool.takeIdle? key = none)
    {object : τ} (making : create ⟨b, log⟩ = (.ok object, ⟨c, log'⟩)) :
    get key create ⟨b, log⟩ =
      (.ok ⟨key, c.made, key, object, none⟩, ⟨c.handOutNew key object, log'⟩) := by
  have entered : enter key create ⟨b, log⟩ =
    (.ok ⟨c.made, key, object, none⟩, ⟨{ c with made := c.made + 1 }, log'⟩) :=
    Action.bind_of_ok making
  have made : Pool.lease poolPlace key (enter key create) ⟨b, log⟩ =
      (.ok ⟨c.made, key, object, none⟩,
        ⟨{ c with made := c.made + 1, pool := c.pool.noteCreated }, log'⟩) :=
    (lease_of_none sound rfl h log).trans (Action.bind_of_ok entered)
  have leased : Lease.take poolPlace key (enter key create) ⟨b, log⟩ =
      (.ok ⟨key, c.made, key, object, none⟩,
        ⟨{ c with made := c.made + 1, pool := c.pool.noteCreated }, log'⟩) :=
    Action.bind_of_ok made
  exact Action.bind_of_ok leased

/-- A failure to make an object is the whole's, and nothing else was done. -/
theorem get_of_failed (sound : b.pool.poisoned = false) (h : b.pool.takeIdle? key = none)
    {f : Failure} {env : Env (Ledger κ τ)} (making : create ⟨b, log⟩ = (.error f, env)) :
    get key create ⟨b, log⟩ = (.error f, env) := by
  have entered : enter key create ⟨b, log⟩ = (.error f, env) := Action.bind_of_error making
  have failed : Pool.lease poolPlace key (enter key create) ⟨b, log⟩ = (.error f, env) :=
    (lease_of_none sound rfl h log).trans (Action.bind_of_error entered)
  have leased : Lease.take poolPlace key (enter key create) ⟨b, log⟩ = (.error f, env) :=
    Action.bind_of_error failed
  exact Action.bind_of_error leased

theorem Right.handOut (right : b.Right reset most) {x : Item κ τ} {p : Pool κ (Item κ τ)}
    (taken : b.pool.Taken key x p) : (b.handOut key x p).Right reset most where
  sound := taken.fixed.2.trans right.sound
  bound := taken.fixed.1.trans right.bound
  keys := taken.keys right.keys
  places := by
    have moved : (x.number :: (p.allIdle.map (·.number))).Perm b.idleNumbers :=
      (taken.all.map (fun y : Item κ τ => y.number)).symm
    refine List.Perm.trans ?_ right.places
    exact List.perm_middle.symm.trans ((moved.append_right b.goneNumbers).append_left _)
  leased := List.forall_mem_cons.mpr ⟨(right.idle key x taken.mem).1, right.leased⟩
  idle k y hy := right.idle k y (taken.mem_of_mem hy)
  room k := by
    have fits := right.room k
    rw [taken.under k] at fits
    change (p.idleUnder k).length ≤ most
    split at fits
    · exact Nat.le_of_succ_le fits
    · exact fits
  created := taken.counters.1.trans right.created
  reused := by
    change p.created + p.reused = b.got + 1
    rw [taken.counters.1, taken.counters.2, ← right.reused, Nat.add_assoc]

theorem Right.handOutNew (right : b.Right reset most) (key : κ) (object : τ) :
    (b.handOutNew key object).Right reset most where
  sound := right.sound
  bound := right.bound
  keys := right.keys
  places := by
    change (b.made :: _).Perm (List.range (b.made + 1))
    rw [List.range_succ]
    exact (right.places.cons b.made).trans (List.perm_append_singleton ..).symm
  leased := List.forall_mem_cons.mpr ⟨rfl, right.leased⟩
  idle := right.idle
  room := right.room
  created := congrArg (· + 1) right.created
  reused := by
    change b.pool.created + 1 + b.pool.reused = b.got + 1
    rw [← right.reused, Nat.add_right_comm]

/-- Taking a lease keeps the books right, as making an object does. -/
theorem Right.get (right : b.Right reset most)
    (making : ∀ env : Env (Ledger κ τ),
      env.state.Right reset most → (create env).2.state.Right reset most)
    (key : κ) (log : List LogRecord) : (get key create ⟨b, log⟩).2.state.Right reset most := by
  cases h : b.pool.takeIdle? key with
  | some taken =>
    rw [get_of_taken right.sound h]
    exact right.handOut (taken_of_takeIdle? h)
  | none =>
    -- The pool may have been used meanwhile: what counts are the books after the making.
    have made := making ⟨b, log⟩ right
    rcases hc : create ⟨b, log⟩ with ⟨f | object, env⟩
    · rw [get_of_failed right.sound h hc]
      rwa [hc] at made
    · rw [get_of_made right.sound h hc]
      rw [hc] at made
      exact Right.handOutNew made key object

theorem map_modify {α β : Type} (g : α → β) {f : α → α} (same : ∀ a, g (f a) = g a)
    (l : List α) (i : Nat) : (l.modify i f).map g = l.map g := by
  refine List.ext_getElem? fun j => ?_
  rw [List.getElem?_map, List.getElem?_map, List.getElem?_modify]
  cases l[j]? with
  | none => rfl
  | some a =>
    change some (g (if i = j then f a else a)) = some (g a)
    split
    · rw [same]
    · rfl

theorem Right.use (right : b.Right reset most) (i : Nat) (f : τ → τ) (log : List LogRecord) :
    (use i f ⟨b, log⟩).2.state.Right reset most := by
  let after (l : Lease κ (Item κ τ)) := { l with object := l.object.change f }
  have same {α : Type} (g : Lease κ (Item κ τ) → α) (hg : ∀ l, g (after l) = g l) :
      (b.leases.modify i after).map g = b.leases.map g := map_modify g hg b.leases i
  have numbers := same (·.object.number) fun _ => rfl
  have origins := same (·.object.origin) fun _ => rfl
  have keys := same (·.key) fun _ => rfl
  refine { right with places := ?_, leased := List.map_inj_left.mp ?_ }
  · change (List.map _ (b.leases.modify i after) ++ _).Perm _
    rw [numbers]
    exact right.places
  · exact origins.trans ((List.map_inj_left.mpr right.leased).trans keys.symm)

/-- An object that is no longer leased is idle or gone. -/
theorem Right.places_of_left (right : b.Right reset most) {i : Nat} {l : Lease κ (Item κ τ)}
    (h : b.leases[i]? = some l) {others : List Nat}
    (moved : others.Perm (l.object.number :: (b.idleNumbers ++ b.goneNumbers))) :
    ((b.leases.eraseIdx i).map (·.object.number) ++ others).Perm (List.range b.made) := by
  obtain ⟨hi, rfl⟩ := List.getElem?_eq_some_iff.mp h
  have leases := List.getElem_cons_eraseIdx_perm hi
  have numbers := leases.map (fun l : Lease κ (Item κ τ) => l.object.number)
  refine List.Perm.trans ?_ right.places
  exact (moved.append_left _).trans (List.perm_middle.trans (numbers.append_right _))

theorem Right.leased_of_left (right : b.Right reset most) (i : Nat) :
    ∀ l ∈ b.leases.eraseIdx i, l.object.origin = l.key :=
  fun l hl => right.leased l (List.mem_of_mem_eraseIdx hl)

theorem Right.detach (right : b.Right reset most) (i : Nat) (log : List LogRecord) :
    (detach i ⟨b, log⟩).2.state.Right reset most := by
  cases h : b.leases[i]? with
  | none =>
    have same : (Ledger.detach i ⟨b, log⟩).2.state = b := by
      simp [Ledger.detach, Effect.modify, h]
    rwa [same]
  | some l =>
    have left : (Ledger.detach i ⟨b, log⟩).2.state =
        { b with leases := b.leases.eraseIdx i, gone := (.detached, l.object) :: b.gone } := by
      simp [Ledger.detach, Effect.modify, h]
    rw [left]
    refine { right with
      places := right.places_of_left h ?_
      leased := right.leased_of_left i }
    exact List.perm_middle

/-- The books after a lease was ended. -/
def takeBack (b : Ledger κ τ) (i : Nat) (key : κ) (x : Item κ τ) : Ledger κ τ :=
  { b with
    pool := b.pool.giveBack key x
    leases := b.leases.eraseIdx i
    gone := if b.pool.hasRoom key then b.gone else (.full, x) :: b.gone }

theorem drop_of_lease (sound : b.pool.poisoned = false) {i : Nat} {l : Lease κ (Item κ τ)}
    (h : b.leases[i]? = some l) (reset : τ → τ) (log : List LogRecord) :
    drop reset i ⟨b, log⟩ = ((), ⟨b.takeBack i l.key (l.object.reset reset), log⟩) := by
  let left : Ledger κ τ := { b with
    leases := b.leases.eraseIdx i
    gone := if b.pool.hasRoom l.key then b.gone else (.full, l.object.reset reset) :: b.gone }
  have back : release poolPlace l.key (l.object.reset reset) ⟨left, log⟩ =
    ((), ⟨b.takeBack i l.key (l.object.reset reset), log⟩) := release_eq sound rfl ..
  rw [drop, Effect.run_bind, Effect.state]
  simp only [h]
  exact back

theorem Right.takeBack (right : b.Right reset most) {i : Nat} {l : Lease κ (Item κ τ)}
    (h : b.leases[i]? = some l) :
    (b.takeBack i l.key (l.object.reset reset)).Right reset most where
  sound := (giveBack_fixed ..).2.2.2.trans right.sound
  bound := (giveBack_fixed ..).2.2.1.trans right.bound
  keys := giveBack_keys right.keys ..
  places := by
    refine right.places_of_left h ?_
    have idle := (allIdle_giveBack right.sound l.key (l.object.reset reset)).map
      (fun x : Item κ τ => x.number)
    refine (idle.append_right _).trans ?_
    unfold Ledger.takeBack goneNumbers
    cases b.pool.hasRoom l.key with
    | true => exact List.Perm.refl _
    | false => exact List.perm_middle
  leased := right.leased_of_left i
  idle k x hx := by
    have origin := right.leased l (List.mem_of_getElem? h)
    have back : x ∈ (b.pool.giveBack l.key (l.object.reset reset)).idleUnder k := hx
    rw [idleUnder_giveBack right.sound] at back
    split at back
    case isTrue hk =>
      obtain ⟨rfl, -⟩ := hk
      -- What is given back was leased under the key, and has been reset.
      rcases List.mem_cons.mp back with rfl | old
      · exact ⟨origin, l.object.object, rfl, rfl⟩
      · exact right.idle _ x old
    case isFalse => exact right.idle k x back
  room k := by
    change ((b.pool.giveBack l.key (l.object.reset reset)).idleUnder k).length ≤ most
    rw [idleUnder_giveBack right.sound]
    split
    case isTrue hk =>
      have less : (b.pool.idleUnder l.key).length < b.pool.maxIdle := by
        simpa [hasRoom, right.sound] using hk.2
      exact right.bound ▸ less
    case isFalse => exact right.room k
  created := (giveBack_fixed ..).1.trans right.created
  reused := by
    have fixed := giveBack_fixed b.pool l.key (l.object.reset reset)
    change (b.pool.giveBack _ _).created + (b.pool.giveBack _ _).reused = b.got
    rw [fixed.1, fixed.2.1, right.reused]

theorem Right.drop (right : b.Right reset most) (i : Nat) (log : List LogRecord) :
    (drop reset i ⟨b, log⟩).2.state.Right reset most := by
  cases h : b.leases[i]? with
  | none =>
    have same : (Ledger.drop reset i ⟨b, log⟩).2.state = b := by
      simp [Ledger.drop, Effect.run_bind, Effect.state, h]
      rfl
    rwa [same]
  | some l =>
    rw [drop_of_lease right.sound h]
    exact right.takeBack h

theorem Right.clear (right : b.Right reset most) (log : List LogRecord) :
    (clear ⟨b, log⟩).2.state.Right reset most := by
  have emptied : (Ledger.clear ⟨b, log⟩).2.state =
      { b with
        pool := { b.pool with idle := [] }
        gone := b.pool.allIdle.map (.cleared, ·) ++ b.gone } := by
    simp [Ledger.clear, Effect.modify, Pool.clear, right.sound]
  rw [emptied]
  refine { right with
    keys := List.nodup_nil
    places := ?_
    idle := by simp [idleUnder, Keyed.find?]
    room := by simp [idleUnder, Keyed.find?] }
  have places := right.places
  simp only [leasedNumbers, idleNumbers, goneNumbers] at places ⊢
  simpa [allIdle, Function.comp_def] using places

/-- Steps keep the books right. -/
theorem Follows.right (follows : Follows reset b c) (right : b.Right reset most) :
    c.Right reset most := by
  induction follows with
  | refl b => exact right
  | get before key create log making ih makes => exact (ih right).get makes key log
  | use before i f log ih => exact (ih right).use i f log
  | drop before i log ih => exact (ih right).drop i log
  | detach before i log ih => exact (ih right).detach i log
  | clear before log ih => exact (ih right).clear log

theorem Right.count (right : b.Right reset most) (n : Nat) :
    b.leasedNumbers.count n + b.idleNumbers.count n + b.goneNumbers.count n =
      if n < b.made then 1 else 0 := by
  have counted := right.places.count_eq n
  rw [List.count_append, List.count_append, ← Nat.add_assoc] at counted
  rw [counted, List.count_range]

theorem Right.idleCount (right : b.Right reset most) (key : κ) :
    b.pool.idleCount key = (b.pool.idleUnder key).length := by
  simp [Pool.idleCount, right.sound]

/-- The idle objects are counted key by key. -/
theorem Right.idle_eq_sum (right : b.Right reset most) :
    ∃ keys : List κ, keys.Nodup ∧ (∀ key, key ∉ keys → b.pool.idleCount key = 0) ∧
      b.pool.stats.idle = (keys.map b.pool.idleCount).sum := by
  refine ⟨b.pool.idle.map Prod.fst, right.keys, fun key fresh => ?_, ?_⟩
  · rw [right.idleCount, idleUnder, Keyed.find?_eq_none fresh]
    rfl
  · have lists := congrArg (List.map List.length) (Keyed.map_find?_of_nodup right.keys)
    have counts : (b.pool.idle.map Prod.fst).map b.pool.idleCount =
        (b.pool.idle.map Prod.snd).map List.length := by
      rw [← lists]
      exact (List.map_congr_left fun key _ => right.idleCount key).trans List.map_map.symm
    rw [counts]
    simp [stats, right.sound, List.length_flatMap, Function.comp_def]

/-- What a lease is taken of: an object that waited as it was reset, or one that was made. -/
theorem Right.leased_of_get (right : b.Right reset most) {l : Lease κ (Item κ τ)}
    {env : Env (Ledger κ τ)} (had : Ledger.get key create ⟨b, log⟩ = (.ok l, env)) :
    l.key = key ∧ l ∈ env.state.leases ∧
      ((l.object ∈ b.pool.idleUnder key ∧
          ∃ y, l.object.left = some y ∧ l.object.object = reset y) ∨
        ∃ env', create ⟨b, log⟩ = (.ok l.object.object, env') ∧ l.object.left = none) := by
  cases h : b.pool.takeIdle? key with
  | some taken =>
    have idle := (taken_of_takeIdle? h).mem
    rw [get_of_taken right.sound h] at had
    obtain ⟨hl, rfl⟩ := Prod.mk.inj had
    obtain rfl := Except.ok.inj hl
    exact ⟨rfl, List.mem_cons_self, Or.inl ⟨idle, (right.idle key _ idle).2⟩⟩
  | none =>
    rcases hc : create ⟨b, log⟩ with ⟨f | object, env'⟩
    · rw [get_of_failed right.sound h hc] at had
      cases (Prod.mk.inj had).1
    · rw [get_of_made right.sound h hc] at had
      obtain ⟨hl, rfl⟩ := Prod.mk.inj had
      obtain rfl := Except.ok.inj hl
      exact ⟨rfl, List.mem_cons_self, Or.inr ⟨env', rfl, rfl⟩⟩

/-- Where no lease is had, no object could be made, and that is all that was done. -/
theorem Right.failed_of_get (right : b.Right reset most) {f : Failure} {env : Env (Ledger κ τ)}
    (failed : Ledger.get key create ⟨b, log⟩ = (.error f, env)) :
    create ⟨b, log⟩ = (.error f, env) := by
  cases h : b.pool.takeIdle? key with
  | some taken =>
    rw [get_of_taken right.sound h] at failed
    cases (Prod.mk.inj failed).1
  | none =>
    rcases hc : create ⟨b, log⟩ with ⟨g | object, env'⟩
    · rw [get_of_failed right.sound h hc] at failed
      obtain ⟨hf, rfl⟩ := Prod.mk.inj failed
      rw [Except.error.inj hf]
    · rw [get_of_made right.sound h hc] at failed
      cases (Prod.mk.inj failed).1

/-- Whatever was done with a pool, each object that was made is in one place only, under the key it
was made for, and at most so many are idle under a key. The counters are right. A lease that is not
had is the failure to make an object and changes nothing; one that is had is of an object that was
just made or that was reset since it was leased last. -/
theorem Follows.accounted {name : String} {maxIdle : Nat}
    (run : Follows reset (opened name maxIdle) b) :
    (∀ n, b.leasedNumbers.count n + b.idleNumbers.count n + b.goneNumbers.count n =
        if n < b.made then 1 else 0) ∧
      (∀ l ∈ b.leases, l.object.origin = l.key) ∧
      (∀ key, (∀ x ∈ b.pool.idleUnder key, x.origin = key) ∧ b.pool.idleCount key ≤ maxIdle) ∧
      (b.pool.stats.created = b.made ∧ b.pool.stats.created + b.pool.stats.reused = b.got ∧
        ∃ keys : List κ, keys.Nodup ∧ (∀ key, key ∉ keys → b.pool.idleCount key = 0) ∧
          b.pool.stats.idle = (keys.map b.pool.idleCount).sum) ∧
      ∀ key create log,
        (∀ f env, Ledger.get key create ⟨b, log⟩ = (.error f, env) →
          create ⟨b, log⟩ = (.error f, env)) ∧
        ∀ l env, Ledger.get key create ⟨b, log⟩ = (.ok l, env) →
          l.key = key ∧ l ∈ env.state.leases ∧
            ((l.object ∈ b.pool.idleUnder key ∧
                ∃ y, l.object.left = some y ∧ l.object.object = reset y) ∨
              ∃ env', create ⟨b, log⟩ = (.ok l.object.object, env') ∧ l.object.left = none) := by
  have right := run.right (right_opened name maxIdle)
  refine ⟨right.count, right.leased, fun key => ?_, ?_, fun key create log => ?_⟩
  · exact ⟨fun x hx => (right.idle key x hx).1, right.idleCount key ▸ right.room key⟩
  · exact ⟨right.created, right.reused, right.idle_eq_sum⟩
  · exact ⟨fun _ _ => right.failed_of_get, fun _ _ => right.leased_of_get⟩

section Errands

def making (text : String) : Action (Ledger String Command) Command := pure (.ofText text)

/-- A command is leased on the way, and then none is made. -/
def failing : Action (Ledger String Command) Command := do
  let _ ← get "rows" (making "rows")
  Action.of (.error (.other "no such table"))

/-- Two leases of one key end, where one object may be idle; the object that was kept is leased
again, and a lease of another key fails. -/
def errands : Ledger String Command :=
  let b := (get "rows" (making "rows") ⟨opened "command" 1, []⟩).2.state
  let b := (get "rows" (making "rows") ⟨b, []⟩).2.state
  let b := (use 0 (fun c => { c with params := [.of (.int32 7)] }) ⟨b, []⟩).2.state
  let b := (drop Command.reset 0 ⟨b, []⟩).2.state
  let b := (drop Command.reset 0 ⟨b, []⟩).2.state
  let b := (get "rows" (making "rows") ⟨b, []⟩).2.state
  (get "items" failing ⟨b, []⟩).2.state

theorem follows_errands : Follows Command.reset (opened "command" 1) errands := by
  have made (text : String) (env : Env (Ledger String Command)) :
    Follows Command.reset env.state (making text env).2.state := .refl _
  have first := Follows.get (.refl (opened "command" 1)) "rows" (making "rows") [] (made _)
  have second := first.get "rows" (making "rows") [] (made _)
  have used := second.use 0 (fun c => { c with params := [.of (.int32 7)] }) []
  have again := ((used.drop 0 []).drop 0 []).get "rows" (making "rows") [] (made _)
  refine again.get "items" failing [] fun env => ?_
  have state : (failing env).2.state = (get "rows" (making "rows") env).2.state := by
    rcases hg : get "rows" (making "rows") env with ⟨f | l, env'⟩
    · have failed : failing env = (.error f, env') := Action.bind_of_error hg
      rw [failed]
    · have failed : failing env = (.error _, env') := Action.bind_of_ok hg
      rw [failed]
  rw [state]
  exact (Follows.refl env.state).get "rows" (making "rows") env.log (made _)

theorem accounted_errands :
    (errands.leasedNumbers = [2, 1] ∧ errands.idleNumbers = [] ∧ errands.goneNumbers = [0] ∧
        errands.made = 3 ∧ errands.got = 4) ∧
      (∀ n, errands.leasedNumbers.count n + errands.idleNumbers.count n +
        errands.goneNumbers.count n = if n < errands.made then 1 else 0) ∧
      ∀ key, errands.pool.idleCount key ≤ 1 :=
  ⟨by decide, follows_errands.accounted.1, fun key => (follows_errands.accounted.2.2.1 key).2⟩

end Errands

end Ledger
end DataAccess.Pool
