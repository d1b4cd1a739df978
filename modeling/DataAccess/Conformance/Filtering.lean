import DataAccess.Conformance.Items

/-! Rows found by every sort of clause, in order, and in part. -/
namespace DataAccess.Conformance

open Native (toValue)

variable {σ : Type}

def is (property : String) (clause : Clause) : Expression := .test property clause true
def isNot (property : String) (clause : Clause) : Expression := .test property clause false

def only (property : String) (clause : Clause) : Criteria := .allOf [is property clause]

def text (s : String) : Value := toValue s
def small (n : Int32) : Value := toValue n
def amount (n : Nat) : Value := toValue (price (100 * n))

/-- The keys of the products that are found, in the order of the keys unless there is another. -/
def found (b : Backend σ) (c : Criteria) : Action σ (List Int64) := do
  let c := if c.orders.isEmpty then c.orderBy "id" .ascending else c
  pure ((← products.findMany b c).map (·.id))

def expectFound (b : Backend σ) (c : Criteria) (ids : List Int64) : Action σ Unit := do
  expect "the products found" ((← found b c) == ids)

/-- What must fail, and how. -/
def expectFailure {α : Type} (what : String) (fits : Failure → Bool) (a : Action σ α) :
    Action σ Unit := do
  match ← Action.effect a.run with
  | .ok _ => expect what false
  | .error f => expect what (fits f)

def isConfiguration (f : Failure) : Bool := f.kind? == some .configuration

def comparisons : List (Criteria × List Int64) := [
  (only "name" (.equal (text "Mouse")), [2]),
  (.allOf [isNot "name" (.equal (text "Mouse"))], [1, 3, 4, 5]),
  (only "name" (.equalIgnoringCase (text "MOUSE")), [2]),
  (only "price" (.greater (amount 50)), [3, 5]),
  (only "quantity" (.lesser (small 5)), [2, 3]),
  (only "price" (.between (amount 19) (amount 89)), [1, 2, 5]),
  (.allOf [isNot "price" (.between (amount 19) (amount 89))], [3, 4]),
  (only "available" (.equal (toValue true)), [1, 3, 4]),
  (only "added" (.greater (Native.toNullable (Date.ofParts? 2024 1 15))), [2, 5]),
  (only "code" (.equal (Native.toNullable (Uuid.ofText? keyboardCode))), [1])]

def patterns : List (Criteria × List Int64) := [
  (only "name" (.like "Mo%"), [2, 3]),
  (only "name" (.likeIgnoringCase "mo%"), [2, 3, 4]),
  (only "name" (.like "_ouse"), [2])]

def membership : List (Criteria × List Int64) := [
  (only "flags" (.hasBits 2), [1, 3, 5]),
  (only "id" (.inList [small 1, small 3, small 9]), [1, 3]),
  (only "note" (.equal (.null none)), [2, 4]),
  (.allOf [isNot "note" (.equal (.null none))], [1, 3, 5]),
  (only "added" (.equal (.null none)), [3])]

def mouseOrDear : Criteria :=
  .anyOf [is "name" (.equal (text "Mouse")), is "price" (.greater (amount 100))]

def keyboardsAndWebcams : Criteria := .allOf [
  is "quantity" (.greater (small 1)),
  .nested (.anyOf [is "name" (.equal (text "Keyboard")), is "name" (.equal (text "Webcam"))])]

def windows : List (Criteria × List Int64) := [
  (Criteria.all.orderBy "price" .descending, [3, 5, 1, 2, 4]),
  ((Criteria.all.orderBy "available" .ascending).orderBy "name" .ascending, [2, 5, 1, 3, 4]),
  ((Criteria.all.start 1).limit 2, [2, 3]),
  (Criteria.all.start 3, [4, 5]),
  (Criteria.all.limit 1, [1]),
  (Criteria.all.start 10, [])]

def expectAll (b : Backend σ) (cases : List (Criteria × List Int64)) : Action σ Unit :=
  cases.forM fun (c, ids) => expectFound b c ids

def roundTrip (b : Backend σ) : Action σ Unit := do
  let all ← products.findMany b (Criteria.all.orderBy "id" .ascending)
  expect "what is stored is what is found" (all == productRows)
  let monitor ← products.findOne b (only "id" (.equal (small 3)))
  expect "the monitor is found" (monitor.isSome && monitor == productRows[2]?)
  let missing ← products.findOne b (only "id" (.equal (small 42)))
  expect "nothing else is found" (missing == none)

/-- Negation, twice and then again as it was. -/
def inversions (b : Backend σ) : Action σ Unit := do
  expectFound b keyboardsAndWebcams [1, 5]
  let inverted ← Action.of keyboardsAndWebcams.invert
  expectFound b inverted [2, 3, 4]
  let twice ← Action.of inverted.invert
  expect "two negations cancel" (twice == keyboardsAndWebcams)
  expectFound b twice [1, 5]

def refusedFilters (b : Backend σ) : Action σ Unit := do
  let refused (c : Criteria) :=
    expectFailure "a filter is refused" isConfiguration (products.findMany b c)
  refused (only "missing" (.equal (small 1)))
  refused (only "id" (.inList []))
  refused (only "price" (.greater (.null (some .float64))))

def filtering (b : Backend σ) : Action σ Unit := do
  setUpProducts b
  roundTrip b
  expectAll b comparisons
  expectAll b patterns
  expectAll b membership
  expectFound b mouseOrDear [2, 3]
  inversions b
  expectAll b windows
  refusedFilters b

end DataAccess.Conformance
