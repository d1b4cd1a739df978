import DataAccess.Proofs.Memory.Reachable
import Mathlib.Algebra.GroupWithZero.Nat
import Mathlib.Data.Set.List

/-!
Failures. An operation that fails leaves the tables as they were. A batch is its items in turn, up
to the first that fails: what came before stays done, and nothing after is tried.
-/
namespace DataAccess

namespace Affected

/-- Counts add up in a word; a key that all report stands. -/
theorem sum_of_key {first : Nat} (fits : first < Nat.pow 2 64) (key : Option Int64)
    (counts : List Nat) : sum ⟨some first, key⟩ (counts.map fun n => ⟨some n, key⟩) =
      ⟨some ((first + counts.sum) % Nat.pow 2 64), key⟩ := by
  unfold sum
  induction counts generalizing first with
  | nil => simp [Nat.mod_eq_of_lt fits]
  | cons n rest ih =>
    have step : append ⟨some first, key⟩ ⟨some n, key⟩ =
        ⟨some ((first + n) % Nat.pow 2 64), key⟩ := by simp [append]
    rw [List.map_cons, List.foldl_cons, step, ih (Nat.mod_lt _ (by decide)), Nat.mod_add_mod,
      List.sum_cons, Nat.add_assoc]

theorem sum_ofRows {first : Nat} (fits : first < Nat.pow 2 64) (counts : List Nat) :
    sum (ofRows first) (counts.map ofRows) = ofRows ((first + counts.sum) % Nat.pow 2 64) :=
  sum_of_key fits none counts

/-- What all that is done reports as key, the whole does. -/
theorem sum_of_key_cons (key : Option Int64) (n : Nat) (counts : List Nat) :
    sum (ofRows 0) ((n :: counts).map fun n => ⟨some n, key⟩) =
      ⟨some ((n :: counts).sum % Nat.pow 2 64), key⟩ := by
  have first : append (ofRows 0) ⟨some n, key⟩ = ⟨some (n % Nat.pow 2 64), key⟩ := by
    simp [append, ofRows]
  rw [List.map_cons, sum, List.foldl_cons, first]
  refine (sum_of_key (Nat.mod_lt _ (by decide)) key counts).trans ?_
  rw [Nat.mod_add_mod, List.sum_cons]

end Affected

namespace Backend

variable {σ β : Type} {change : β → Action σ Affected}

/-- Each item in turn, whatever comes of the others. -/
def inTurn (change : β → Action σ Affected) : List β → Effect σ (List (Outcome Affected))
  | [] => pure []
  | item :: rest => do
    let r ← (change item).run
    pure (r :: (← inTurn change rest))

theorem inTurn_cons (item : β) (rest : List β) (env : Env σ) :
    inTurn change (item :: rest) env = ((change item env).1 :: (inTurn change rest
      (change item env).2).1, (inTurn change rest (change item env).2).2) := rfl

/-- The batch from an item on, given what was reported before. -/
def onward (change : β → Action σ Affected) (sum : Affected) (items : List β) : Action σ Affected :=
  items.foldlM (fun sum item => return sum.append (← change item)) sum

variable {sum : Affected} {item : β} {rest : List β} {env env' : Env σ}

theorem onward_of_ok {report : Affected} (h : change item env = (.ok report, env')) :
    onward change sum (item :: rest) env = onward change (sum.append report) rest env' := by
  have step : (do return sum.append (← change item) : Action σ Affected) env =
      (.ok (sum.append report), env') := Action.bind_of_ok h
  rw [onward, List.foldlM_cons]
  exact Action.bind_of_ok step

theorem onward_of_error {f : Failure} (h : change item env = (.error f, env')) :
    onward change sum (item :: rest) env = (.error f, env') := by
  have step : (do return sum.append (← change item) : Action σ Affected) env = (.error f, env') :=
    Action.bind_of_error h
  rw [onward, List.foldlM_cons]
  exact Action.bind_of_error step

/-- Items that are done leave the others to do. -/
theorem onward_append {items : List β} {reports : List Affected}
    (done : inTurn change items env = (reports.map .ok, env')) (sum : Affected) (rest : List β) :
    onward change sum (items ++ rest) env = onward change (sum.sum reports) rest env' := by
  induction items generalizing env sum reports with
  | nil =>
    obtain ⟨hr, rfl⟩ := Prod.mk.inj done
    obtain rfl : reports = [] := by simpa using hr.symm
    rfl
  | cons item items ih =>
    rw [inTurn_cons, Prod.mk.injEq] at done
    obtain ⟨hr, he⟩ := done
    cases reports with
    | nil => simp at hr
    | cons report reports =>
      obtain ⟨first, others⟩ := List.cons.inj hr
      rw [List.cons_append, onward_of_ok (Prod.ext first rfl), ih (Prod.ext others he)]
      rfl

/-- Where every item is done, so is the batch. -/
theorem oneByOne_of_ok {items : List β} {reports : List Affected}
    (done : inTurn change items env = (reports.map .ok, env')) :
    oneByOne change items env = (.ok (.sum (.ofRows 0) reports), env') := by
  have run := onward_append done (.ofRows 0) []
  rw [List.append_nil] at run
  exact run

/-- The first item that fails ends the batch. -/
theorem oneByOne_of_error {items : List β} {i : Nat} (hi : i < items.length)
    {reports : List Affected} (done : inTurn change (items.take i) env = (reports.map .ok, env'))
    {f : Failure} {env'' : Env σ} (failed : change items[i] env' = (.error f, env'')) :
    oneByOne change items env = (.error f, env'') := by
  have run := onward_append done (.ofRows 0) (items[i] :: items.drop (i + 1))
  rw [← List.drop_eq_getElem_cons hi, List.take_append_drop, List.drop_eq_getElem_cons hi] at run
  exact run.trans (onward_of_error failed)

theorem exists_reports {rs : List (Outcome Affected)}
    (done : ∀ r ∈ rs, ∃ report, r = .ok report) : ∃ reports : List Affected,
      rs = reports.map .ok := by
  have mem : rs ∈ Set.range (List.map Except.ok) := by
    rw [Set.range_list_map]
    exact fun r hr => (done r hr).imp fun _ => Eq.symm
  exact mem.imp fun _ => Eq.symm

/-- Facts of each report, and of the state, that every item keeps. -/
theorem inTurn_leads {P : σ → Prop} {Q : Outcome Affected → Prop} (items : List β)
    (each : ∀ item ∈ items, Action.Leads P (change item) fun r s => Q r ∧ P s) :
    Effect.Leads P (inTurn change items) fun rs s => (∀ r ∈ rs, Q r) ∧ P s := by
  induction items with
  | nil => exact fun s log hs => ⟨List.forall_mem_nil _, hs⟩
  | cons item rest ih =>
    obtain ⟨first, others⟩ := List.forall_mem_cons.mp each
    intro s log hs
    obtain ⟨hr, hs'⟩ := first s log hs
    obtain ⟨hrs, hs''⟩ := ih others _ (change item ⟨s, log⟩).2.log hs'
    exact ⟨List.forall_mem_cons.mpr ⟨hr, hrs⟩, hs''⟩

end Backend

namespace Memory

open Backend

/-- What a batch comes to, next to its items done in turn. -/
structure ItemByItem {β : Type} (change : β → Action Memory Affected) (items : List β)
    (batch : Action Memory Affected) (env : Env Memory) : Prop where
  /-- The first item that fails gives the failure, and what was done before stays. -/
  failed : ∀ i (hi : i < items.length) (f : Failure),
    (∀ r ∈ (inTurn change (items.take i) env).1, ∃ report, r = .ok report) →
    (change items[i] (inTurn change (items.take i) env).2).1 = .error f →
      (batch env).1 = .error f ∧
        (batch env).2.state.tables = (inTurn change (items.take i) env).2.state.tables
  /-- Where none fails, the counts add up in a word. -/
  done : (∀ r ∈ (inTurn change items env).1, ∃ report, r = .ok report) →
    ∃ counts : List Nat, (inTurn change items env).1 = counts.map (fun n => .ok (.ofRows n)) ∧
      batch env = (.ok (.ofRows (counts.sum % Nat.pow 2 64)), (inTurn change items env).2)

variable {α β : Type} {t : Tables} {s : Memory}

/-- What fails has done nothing. -/
theorem Tried.tables {did : Outcome α → Tables → Prop} {r : Outcome α} (tried : Tried t did r s)
    (succeeds : ∀ r t', did r t' → ∃ a, r = .ok a) {f : Failure} (failed : r = .error f) :
    s.tables = t := by
  obtain ⟨t', ⟨rfl, -⟩, hdid | ⟨-, -, rfl⟩⟩ := tried
  · obtain ⟨a, hr⟩ := succeeds r _ hdid
    simp [failed] at hr
  · rfl

/-- A change that reports its rows, or fails. -/
def Counted (a : Action Memory Affected) : Prop :=
  ∀ t, Action.Leads (Holds t) a (Tried t fun r _ => ∃ n, r = .ok (.ofRows n))

theorem counted_insert (m : Mapping) (row : Row) : Counted (insert m row) := fun _ =>
  (insert_leads m row).mono (fun _ h => h) fun _ _ ⟨t', h, hd⟩ => ⟨t', h, hd.imp And.left id⟩

theorem counted_update (m : Mapping) (c : Criteria) (values : Assignments) :
    Counted (update m c values) := fun _ =>
  (update_leads m c values).mono (fun _ h => h) fun _ _ ⟨t', h, hd⟩ => ⟨t', h, hd.imp And.left id⟩

namespace Counted

variable {a : Action Memory Affected} {change : β → Action Memory Affected} {items : List β}
  {env : Env Memory}

theorem tables (counted : Counted a) (fit : env.state.queries.poisoned = false) {f : Failure}
    (failed : (a env).1 = .error f) : (a env).2.state.tables = env.state.tables :=
  (counted _ env.state env.log ⟨rfl, fit⟩).tables (fun _ _ hn => hn.imp' _ fun _ hr => hr) failed

theorem leads (counted : Counted a) : Action.Leads (fun s => s.queries.poisoned = false) a
    fun r s => (∀ report, r = .ok report → ∃ n, report = .ofRows n) ∧
      s.queries.poisoned = false := by
  intro s log fit
  obtain ⟨t', h, ⟨n, hr⟩ | ⟨f, hr, -⟩⟩ := counted s.tables s log ⟨rfl, fit⟩
  · refine ⟨fun report hreport => ⟨n, ?_⟩, h.2⟩
    exact Except.ok.inj (hreport.symm.trans hr)
  · refine ⟨fun report hreport => ?_, h.2⟩
    cases hreport.symm.trans hr

/-- A batch of changes is its items in turn. -/
theorem itemByItem (each : ∀ item, Counted (change item))
    (fit : env.state.queries.poisoned = false) :
    ItemByItem change items (oneByOne change items) env where
  failed i hi f done failed := by
    obtain ⟨reports, hr⟩ := exists_reports done
    have before := inTurn_leads (items.take i) fun item _ => (each item).leads
    obtain ⟨-, fit'⟩ := before env.state env.log fit
    rw [oneByOne_of_error hi (Prod.ext hr rfl) (Prod.ext failed rfl)]
    exact ⟨rfl, (each items[i]).tables fit' failed⟩
  done done := by
    obtain ⟨reports, hr⟩ := exists_reports done
    have all := inTurn_leads items fun item _ => (each item).leads
    obtain ⟨numbers, -⟩ := all env.state env.log fit
    have mem : reports ∈ Set.range (List.map Affected.ofRows) := by
      rw [Set.range_list_map]
      intro report hreport
      have mem : .ok report ∈ (inTurn change items env).1 := hr ▸ List.mem_map_of_mem hreport
      exact (numbers _ mem report rfl).imp fun _ => Eq.symm
    obtain ⟨counts, rfl⟩ := mem
    refine ⟨counts, hr.trans (List.map_map ..), ?_⟩
    rw [oneByOne_of_ok (Prod.ext hr rfl), Affected.sum_ofRows (by decide), Nat.zero_add]

end Counted

variable {schema : String → Mapping}

/-- An operation that fails leaves every table as it was. A batch fails as its first item that
fails, the items before it done; where none fails, it reports the sum of what they report. -/
theorem Reachable.untouched (h : s.Reachable schema) (log : List LogRecord) :
    (∀ (o : Operation) (f : Failure), o.isBatch = false →
      (o.outcome s.descriptor ⟨s, log⟩).1 = .error f →
        (o.outcome s.descriptor ⟨s, log⟩).2.state.tables = s.tables) ∧
    (∀ m rows, ItemByItem (insert m) rows ((backend s.descriptor).insertBatch m rows) ⟨s, log⟩) ∧
    ∀ m items, ItemByItem (fun item => update m item.1 item.2) items
      ((backend s.descriptor).updateBatch m items) ⟨s, log⟩ := by
  obtain ⟨t, holds, -⟩ := h.sound
  refine ⟨fun o f single failed => ?_, fun m rows => ?_, fun m items => ?_⟩
  · have ends := o.outcome_leads s.descriptor single s log ⟨rfl, holds.2⟩
    exact Tried.tables ends (fun _ _ did => ⟨_, did.1⟩) failed
  · exact Counted.itemByItem (counted_insert m) holds.2
  · exact Counted.itemByItem (fun item => counted_update m item.1 item.2) holds.2

/-- Two accounts to open, and one that is there between them. -/
def openings : List Row :=
  [[.of (.int32 9), .of (.varchar "bob"), .null none, .null none], annsAccount,
    [.of (.int32 10), .of (.varchar "joe"), .null none, .null none]]

/-- The account that is there is refused alone, and ends the batch after one is opened; without it
the others are counted. -/
theorem untouched_bank :
    (∃ f, ((Operation.insert accounts annsAccount).outcome bank.descriptor ⟨bank, []⟩).1 =
        .error f ∧
      ((Operation.insert accounts annsAccount).outcome bank.descriptor ⟨bank, []⟩).2.state.tables =
        bank.tables) ∧
    (∃ f, ((backend bank.descriptor).insertBatch accounts openings ⟨bank, []⟩).1 = .error f ∧
      ((backend bank.descriptor).insertBatch accounts openings ⟨bank, []⟩).2.state.tables =
        (inTurn (insert accounts) (openings.take 1) ⟨bank, []⟩).2.state.tables) ∧
    ∃ counts : List Nat, (inTurn (insert accounts) (openings.eraseIdx 1) ⟨bank, []⟩).1 =
        counts.map (fun n => .ok (.ofRows n)) ∧
      ((backend bank.descriptor).insertBatch accounts (openings.eraseIdx 1) ⟨bank, []⟩).1 =
        .ok (.ofRows (counts.sum % Nat.pow 2 64)) := by
  obtain ⟨single, inserts, -⟩ := reachable_bank.untouched []
  have done (items : List Row)
      (h : (inTurn (insert accounts) items ⟨bank, []⟩).1.all Except.isOk = true) :
      ∀ r ∈ (inTurn (insert accounts) items ⟨bank, []⟩).1, ∃ report, r = .ok report :=
    fun r hr => Outcome.exists_ok_of_isOk (List.all_eq_true.mp h r hr)
  have alone : ((Operation.insert accounts annsAccount).outcome
      bank.descriptor ⟨bank, []⟩).1.isOk = false := by
    decide +kernel
  have second : (insert accounts openings[1]
      (inTurn (insert accounts) (openings.take 1) ⟨bank, []⟩).2).1.isOk = false := by
    decide +kernel
  refine ⟨?_, ?_, ?_⟩
  · obtain ⟨f, failed⟩ := Outcome.exists_error_of_isOk alone
    exact ⟨f, failed, single _ f rfl failed⟩
  · obtain ⟨f, failed⟩ := Outcome.exists_error_of_isOk second
    exact ⟨f, (inserts accounts openings).failed 1 (by decide) f
      (done (openings.take 1) (by decide +kernel)) failed⟩
  · obtain ⟨counts, hc, run⟩ := (inserts accounts (openings.eraseIdx 1)).done
      (done (openings.eraseIdx 1) (by decide +kernel))
    exact ⟨counts, hc, congrArg Prod.fst run⟩

end Memory
end DataAccess
