import DataAccess.Proofs.Memory.Performed

/-!
Tables are kept under their full names. Two tables are apart just when those differ, which they do
where no name has a dot in it.
-/
namespace DataAccess

namespace TableRef

theorem last_part_eq {s s' n n' : List Char} (hn : '.' ∉ n) (hn' : '.' ∉ n')
    (same : s ++ '.' :: n = s' ++ '.' :: n') : s = s' ∧ n = n' := by
  rcases List.append_eq_append_iff.mp same with ⟨c, rfl, hc⟩ | ⟨c, rfl, hc⟩
  · cases c with
    | nil => simpa using hc
    | cons x c =>
      obtain ⟨-, rfl⟩ := List.cons.inj hc
      simp at hn
  · cases c with
    | nil => simpa using hc.symm
    | cons x c =>
      obtain ⟨-, rfl⟩ := List.cons.inj hc
      simp at hn'

/-- Where names have no dots, the full name tells the schema from the name. -/
theorem fullName_injective {a b : TableRef} (ha : '.' ∉ a.name.toList) (hb : '.' ∉ b.name.toList)
    (same : a.fullName = b.fullName) : a = b := by
  obtain ⟨schema, name⟩ := a
  obtain ⟨schema', name'⟩ := b
  have chars := congrArg String.toList same
  simp only [fullName] at chars
  split at chars <;> split at chars
  case isTrue.isTrue hs hs' => rw [hs, hs', String.toList_inj.mp chars]
  case isTrue.isFalse => exact (ha (by simp [chars])).elim
  case isFalse.isTrue => exact (hb (by simp [← chars])).elim
  case isFalse.isFalse =>
    simp only [String.toList_append, List.append_assoc] at chars
    obtain ⟨hs, hn⟩ := last_part_eq ha hb chars
    obtain rfl := String.toList_inj.mp hs
    obtain rfl : name = name' := String.toList_inj.mp hn
    rfl

end TableRef

namespace Memory

variable {n : String} {d : Descriptor} {o : Operation} {t t' : Tables}

/-- An operation changes no table but its own. -/
theorem Operation.Makes.same (made : o.Makes t t')
    (other : ∀ m, o.mapping? = some m → n ≠ m.table.fullName) : Tables.Same n t' t := by
  induction made with
  | createTable done =>
    rcases Tables.eq_of_create done with rfl | rfl
    · exact Keyed.find?_put_of_ne (other _ rfl) ..
    · rfl
  | dropTable done =>
    rcases Tables.eq_of_drop done with rfl | rfl
    · rw [Tables.Same, Keyed.find?_erase, if_neg (other _ rfl)]
    · rfl
  | insert width done =>
    obtain ⟨_, _, _, _, _, rfl⟩ := Tables.exists_of_insert done
    exact Keyed.find?_put_of_ne (other _ rfl) ..
  | update done =>
    obtain ⟨_, _, _, _, _, _, _, _, rfl⟩ := Tables.exists_of_update done
    exact Keyed.find?_put_of_ne (other _ rfl) ..
  | delete done =>
    obtain ⟨_, _, _, _, _, _, rfl⟩ := Tables.exists_of_delete done
    exact Keyed.find?_put_of_ne (other _ rfl) ..
  | deleteAll done =>
    obtain ⟨_, _, _, rfl⟩ := Tables.exists_of_deleteAll done
    exact Keyed.find?_put_of_ne (other _ rfl) ..
  | insertBatch _ _ ih => exact ih other
  | updateBatch _ _ ih => exact ih other

/-- The queries at hand are as new after any operation. -/
theorem Operation.run_fresh {env : Env Memory} (fresh : env.state.queries.Fresh Query.blank) :
    (o.run d env).2.state.queries.Fresh Query.blank := by
  let own := (o.mapping?.map (·.table.fullName)).getD ""
  have alike := o.perform_alike (n := own) d fun m hm => by simp [own, hm]
  rw [run_eq_perform]
  exact (alike env env ⟨rfl, fresh, fresh⟩).2.fresh

theorem Operation.run_same {env : Env Memory} (fresh : env.state.queries.Fresh Query.blank)
    (other : ∀ m, o.mapping? = some m → n ≠ m.table.fullName) :
    Tables.Same n (o.run d env).2.state.tables env.state.tables := by
  have keeps := o.keeps d (I := fun t => Tables.Same n t env.state.tables)
    fun t t' made same => (made.same other).trans same
  obtain ⟨t, h, same⟩ := keeps env.state env.log ⟨_, ⟨rfl, fresh.sound⟩, rfl⟩
  exact (h.1 ▸ same :)

theorem Operation.run_eq (d d' : Descriptor) (o : Operation) : o.run d = o.run d' := by
  cases o <;> rfl

/-- What agrees on a table agrees on it after any operation on both. -/
theorem Operation.run_agree {d' : Descriptor} {env env' : Env Memory} (agree : Agree n env env') :
    Agree n (o.run d env).2 (o.run d' env').2 := by
  rw [run_eq d' d]
  by_cases used : ∃ m, o.mapping? = some m ∧ n = m.table.fullName
  · obtain ⟨m, hm, rfl⟩ := used
    rw [run_eq_perform, run_eq_perform]
    refine (o.perform_alike d (fun m' hm' => ?_) env env' agree).2
    rw [Option.some.inj (hm'.symm.trans hm)]
  · have other (m : Mapping) (hm : o.mapping? = some m) : n ≠ m.table.fullName :=
      fun same => used ⟨m, hm, same⟩
    exact ⟨((run_same agree.fresh other).trans agree.rows).trans (run_same agree.fresh' other).symm,
      run_fresh agree.fresh, run_fresh agree.fresh'⟩

def Operation.isOn (a : TableRef) (o : Operation) : Bool := o.mapping?.any fun m => m.table = a

/-- Whatever was done before: an operation on one table leaves what is seen of the other as it is,
and one on the other gives what it gives where the first was never touched. -/
structure Isolated (a b : TableRef) : Prop where
  unchanged : ∀ d ops o log m, Operation.isOn a o = true → m.table = b →
    (o.run d ⟨ofOperations d ops, log⟩).2.state.tables.rows m = (ofOperations d ops).tables.rows m
  unaffected : ∀ d ops o log log', Operation.isOn b o = true →
    (o.perform (backend d) ⟨ofOperations d ops, log⟩).1 =
      (o.perform (backend d) ⟨ofOperations d (ops.filter fun o => !o.isOn a), log'⟩).1

theorem ofOperations_fresh (d : Descriptor) (ops : List Operation) :
    (ofOperations d ops).queries.Fresh Query.blank := by
  have start : (ofDescriptor d).queries.Fresh Query.blank := Pool.fresh_new ..
  unfold ofOperations
  generalize ofDescriptor d = s at start
  induction ops generalizing s with
  | nil => exact start
  | cons o rest ih => exact ih _ (Operation.run_fresh start)

/-- Operations on a table of another full name may be left out. -/
theorem ofOperations_agree {a : TableRef} (other : n ≠ a.fullName) (d : Descriptor)
    (ops : List Operation) (log log' : List LogRecord) :
    Agree n ⟨ofOperations d ops, log⟩ ⟨ofOperations d (ops.filter fun o => !o.isOn a), log'⟩ := by
  have blank : (ofDescriptor d).queries.Fresh Query.blank := Pool.fresh_new ..
  have start : Agree n ⟨ofDescriptor d, log⟩ ⟨ofDescriptor d, log'⟩ := ⟨rfl, blank, blank⟩
  have steps (s s' : Memory) (agree : Agree n ⟨s, log⟩ ⟨s', log'⟩) : Agree n
      ⟨ops.foldl (fun s o => (o.run s.descriptor ⟨s, []⟩).2.state) s, log⟩
      ⟨(ops.filter fun o => !o.isOn a).foldl (fun s o => (o.run s.descriptor ⟨s, []⟩).2.state) s',
        log'⟩ := by
    induction ops generalizing s s' with
    | nil => exact agree
    | cons o rest ih =>
      rw [List.filter_cons]
      -- One side leaves the operation out; any other is run on both.
      cases on : o.isOn a with
      | true =>
        have apart (m : Mapping) (hm : o.mapping? = some m) : n ≠ m.table.fullName := by
          obtain rfl : m.table = a := by simpa [Operation.isOn, hm] using on
          exact other
        have fresh : (⟨s, []⟩ : Env Memory).state.queries.Fresh Query.blank := agree.fresh
        have frame := Operation.run_same (d := s.descriptor) fresh apart
        exact ih _ _ ⟨frame.trans agree.rows, Operation.run_fresh fresh, agree.fresh'⟩
      | false =>
        have both : Agree n (o.run s.descriptor ⟨s, []⟩).2 (o.run s'.descriptor ⟨s', []⟩).2 :=
          Operation.run_agree ⟨agree.rows, agree.fresh, agree.fresh'⟩
        exact ih _ _ ⟨both.rows, both.fresh, both.fresh'⟩
  exact steps _ _ start

theorem isolated_iff {a b : TableRef} : Isolated a b ↔ a.fullName ≠ b.fullName := by
  constructor
  · intro isolated same
    let d : Descriptor := ⟨"memory", "a", [], 4, 5000⟩
    let m : Mapping := ⟨a, [.key "id" "id" .int32]⟩
    have unchanged := isolated.unchanged d [] (.createTable m false) []
      { m with table := b } (by simp [Operation.isOn, Operation.mapping?, m]) rfl
    have made : ((Operation.createTable m false).run d ⟨ofOperations d [], []⟩).2.state.tables =
      [(a.fullName, [])] := rfl
    have absent : (ofOperations d []).tables = [] := rfl
    rw [made, absent] at unchanged
    simp [Tables.rows, Keyed.find?, same] at unchanged
  · intro other
    refine ⟨fun d ops o log m on hm => ?_, fun d ops o log log' on => ?_⟩
    · refine Tables.Same.rows_eq (Operation.run_same (ofOperations_fresh d ops) fun m' hm' => ?_)
      obtain rfl : m'.table = a := by simpa [Operation.isOn, hm'] using on
      exact hm ▸ other.symm
    · have agree := ofOperations_agree other.symm d ops log log'
      refine (o.perform_alike d (fun m' hm' => ?_) _ _ agree).1
      obtain rfl : m'.table = b := by simpa [Operation.isOn, hm'] using on
      rfl

/-- Tables are isolated from each other when their full names differ, as they do where names have no
dots in them; otherwise they are one table. -/
theorem tables_isolated (a b : TableRef) : (Isolated a b ↔ a.fullName ≠ b.fullName) ∧
    (a ≠ b → '.' ∉ a.name.toList → '.' ∉ b.name.toList → Isolated a b) := by
  refine ⟨isolated_iff, fun other ha hb => isolated_iff.mpr fun same => ?_⟩
  exact other (TableRef.fullName_injective ha hb same)

/-- One name in two schemas. -/
theorem tables_isolated_schemas : Isolated ⟨"", "accounts"⟩ ⟨"old", "accounts"⟩ :=
  (tables_isolated _ _).2 (by decide) (by decide) (by decide)

/-- A dot in a name is taken for the one behind a schema. -/
theorem not_isolated_dotted : ¬∀ a b : TableRef, a ≠ b → Isolated a b := by
  intro isolated
  have apart : (⟨"", "a.b"⟩ : TableRef) ≠ ⟨"a", "b"⟩ := by decide
  exact isolated_iff.mp (isolated _ _ apart) (by decide)

end Memory
end DataAccess
