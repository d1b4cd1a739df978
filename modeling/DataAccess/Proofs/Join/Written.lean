import DataAccess.Proofs.Join.Here
import DataAccess.Proofs.Sql.JoinBody

/-!
A join here and the join that its SQL means return the same rows, but for their order.
-/
namespace DataAccess

namespace JoinCriteria

variable {c : JoinCriteria}

/-- The same rows without a window. -/
def unlimited (c : JoinCriteria) : JoinCriteria := { c with window := .all }

theorem Built.unlimited (built : c.Built) : c.unlimited.Built := by
  induction built with
  | ofKind kind => exact .ofKind kind
  | on e before ih => exact .on e ih
  | operator op before ih => exact .operator op ih
  | orderBy side property direction before ih => exact .orderBy side property direction ih
  | withFilter side filter before ih =>
    have := Built.withFilter side filter ih
    cases side <;> exact this
  | start n before ih => exact ih
  | limit n before ih => exact ih
  | flip before flips ih =>
    obtain ⟨kind, hk, rfl⟩ := flip_eq_ok.mp flips
    exact .flip ih (flip_eq_ok.mpr ⟨kind, hk, rfl⟩)

theorem Accepted.unlimited {m : Sql.Pair} (accepted : c.Accepted m) : c.unlimited.Accepted m where
  nonempty := accepted.nonempty
  joined := accepted.joined
  sorted := accepted.sorted
  filtered side f hf := accepted.filtered side f (by cases side <;> exact hf)

end JoinCriteria

namespace Join

variable {w : Storages} {c : JoinCriteria} {ls rs : List Row}

theorem exists_gives (l r : w.MemoryTable) (built : c.Built) (accepted : c.Accepted (tables l r))
    (left : l.rows? = some ls) (right : r.rows? = some rs) (keyed : c.Keyed (tables l r) ls rs)
    (window : c.window = .all) : ∃ rows, Gives l r c rows ∧ rows.Perm (c.kind.paired
      (c.related (tables l r)) (c.passing (tables l r) .left ls)
      (c.passing (tables l r) .right rs)) := by
  obtain ⟨-, ⟨p, planned⟩, valid⟩ := JoinCriteria.accepted_iff.mp accepted
  obtain ⟨lps, -, hls⟩ := JoinCriteria.select_side built .left (valid .left) ls
  obtain ⟨rps, -, hrs⟩ := JoinCriteria.select_side built .right (valid .right) rs
  refine ⟨_, ⟨p, _, _, planned, ⟨valid .left, ls, left, hls⟩, ⟨valid .right, rs, right, hrs⟩, rfl⟩,
    ?_⟩
  have found : c.Keyed (tables l r)
      (StableSort.sort (Row.compareAt lps) (c.passing (tables l r) .left ls))
      (StableSort.sort (Row.compareAt rps) (c.passing (tables l r) .right rs)) :=
    keyed.subset (fun _ h => JoinCriteria.mem_passing (StableSort.mem_sort.mp h))
      fun _ h => JoinCriteria.mem_passing (StableSort.mem_sort.mp h)
  rw [Window.map_take, JoinPlan.map_rowsOf_sorted planned found, window]
  exact (StableSort.sort_perm _).trans
    (JoinKind.paired_perm (StableSort.sort_perm _) (StableSort.sort_perm _))

theorem exists_found (l r : w.MemoryTable) (built : c.Built) (accepted : c.Accepted (tables l r))
    (left : l.rows? = some ls) (right : r.rows? = some rs) (keyed : c.Keyed (tables l r) ls rs)
    (window : c.window = .all) : ∃ rows, Found l r c rows ∧ rows.Perm (c.kind.paired
      (c.related (tables l r)) (c.passing (tables l r) .left ls)
      (c.passing (tables l r) .right rs)) := by
  by_cases kind : c.kind = .rightOuter
  · obtain ⟨flipped, flips⟩ := exists_flip kind
    have whole : flipped.window = .all := by
      obtain ⟨_, -, rfl⟩ := JoinCriteria.flip_eq_ok.mp flips
      exact window
    obtain ⟨rows, gives, perm⟩ := exists_gives r l (built.flip flips)
      (JoinCriteria.accepted_flip flips accepted) right left (JoinCriteria.keyed_flip flips keyed)
      whole
    refine ⟨rows.map .flip, ⟨accepted.nonempty, ?_⟩, ?_⟩
    · rw [if_pos kind]
      exact ⟨flipped, rows, flips, gives, rfl⟩
    · have related : flipped.related (tables r l) = fun y x => c.related (tables l r) x y :=
        JoinCriteria.related_flip (m := tables l r) flips
      have passing (side : Side) (stored : List Row) :
          flipped.passing (tables r l) side stored = c.passing (tables l r) side.other stored :=
        JoinCriteria.passing_flip (m := tables l r) flips side stored
      rw [JoinCriteria.kind_flip flips kind, related, passing .left, passing .right] at perm
      rw [kind]
      exact (perm.map JoinResult.flip).trans JoinKind.paired_flip_perm
  · obtain ⟨rows, gives, perm⟩ := exists_gives l r built accepted left right keyed window
    refine ⟨rows, ⟨accepted.nonempty, ?_⟩, perm⟩
    rwa [if_neg kind]

/-- What the SQL of a join means is what a join here returns: for tables of storages in process, in
any state that operations lead to, and for accepted criteria, the text of the common dialects is
read, with its parameters, as a join of the same tables, and the join here returns its rows in some
order, the window aside. -/
theorem here_perm_written (l r : w.MemoryTable) (built : c.Built)
    (accepted : c.Accepted (tables l r)) (left : l.rows? = some ls) (right : r.rows? = some rs)
    (keyed : c.Keyed (tables l r) ls rs) {d : Sql.Dialect} (common : d.Common)
    {stored : Sql.Tables} (storedLeft : stored l.mapping.table = some (l.mapping, ls))
    (storedRight : stored r.mapping.table = some (r.mapping, rs)) (log : List LogRecord) :
    ∃ ps body rows found, Sql.joinBody d (tables l r) c = .ok ps ∧
      Sql.readBody? ps.params (d.write ps) = some body ∧ body.rows? stored = some rows ∧
      ((here l.source r.source c.unlimited).run ⟨w, log⟩).1 = .ok found ∧ found.Perm rows := by
  obtain ⟨ps, body, written, read, means⟩ := Sql.joinBody_conveyed common
    (fun side => by cases side with | left => exact l.distinct | right => exact r.distinct)
    accepted storedLeft storedRight
  obtain ⟨found, hfound, perm⟩ := exists_found l r built.unlimited accepted.unlimited left right
    keyed rfl
  exact ⟨ps, body, _, found, written, read, means,
    ((here_leads l r c.unlimited w log fun _ => rfl).1 found).mpr hfound, perm⟩

/-- Children and parents, also those without the other, of some people only. -/
def someFamilies : JoinCriteria :=
  (((JoinCriteria.ofKind .outer).on ⟨.equal, "parent", "id", true⟩).withFilter .left
    (.allOf [.test "id" (.greater (.of (.int32 1))) true])).withFilter .right
    (.anyOf [.test "parent" (.equal (.null none)) true,
      .test "id" (.greater (.of (.int32 2))) true])

theorem here_perm_written_someFamilies :
    ∃ ps body rows found,
      Sql.joinBody .sqlite (tables familyTable familyTable) someFamilies = .ok ps ∧
      Sql.readBody? ps.params (Sql.Dialect.sqlite.write ps) = some body ∧
      body.rows? (fun t => if t = people.table then some (people,
        [person 1 (.null (some .int32)), person 3 (.of (.int32 1)), person 2 (.of (.int32 1))])
        else none) = some rows ∧
      ((here familyTable.source familyTable.source someFamilies.unlimited).run
        ⟨familyWorld, []⟩).1 = .ok found ∧ found.Perm rows := by
  have rows : familyTable.rows? = some [person 1 (.null (some .int32)),
      person 3 (.of (.int32 1)), person 2 (.of (.int32 1))] := by decide +kernel
  have built : someFamilies.Built := .withFilter .right _ (.withFilter .left _ (.on _ (.ofKind _)))
  have accepted : someFamilies.Accepted (tables familyTable familyTable) :=
    JoinCriteria.accepted_iff.mpr ⟨nofun, ⟨_, rfl⟩, fun side => by cases side <;> rfl⟩
  refine here_perm_written familyTable familyTable built accepted rows rows ?_
    Sql.Dialect.common_sqlite (if_pos rfl) (if_pos rfl) []
  unfold JoinCriteria.Keyed
  decide +kernel

end Join
end DataAccess
