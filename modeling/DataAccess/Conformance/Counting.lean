import DataAccess.Conformance.Filtering

/-! Rows counted, all together and by groups. -/
namespace DataAccess.Conformance

open Native (toValue)

variable {σ : Type}

def expectCount (b : Backend σ) (c : Criteria) (n : Nat) : Action σ Unit := do
  expect "the count" ((← products.count b c) == n)

def expectGroups (b : Backend σ) (c : Criteria) (groupBy : List String) (groups : List GroupCount) :
    Action σ Unit := do
  expect "the groups" ((← products.countGrouped b c groupBy) == groups)

def pricey : Criteria := only "price" (.greater (amount 10))

/-- Counting agrees with finding. -/
def expectAgreement (b : Backend σ) (c : Criteria) : Action σ Unit := do
  let n ← products.count b c
  expect "as many are found as are counted" ((← products.findMany b c).length == n)

def byAvailability : List GroupCount := [⟨2, [toValue false]⟩, ⟨3, [toValue true]⟩]

def byAvailabilityAndNote : List GroupCount := [
  ⟨1, [toValue false, text "hd"]⟩,
  ⟨1, [toValue true, .null (some .varchar)]⟩,
  ⟨1, [toValue true, text "27 inch"]⟩,
  ⟨1, [toValue true, text "wireless"]⟩]

def counting (b : Backend σ) : Action σ Unit := do
  setUpProducts b
  expectCount b .all 5
  expectCount b pricey 4
  expectCount b (pricey.limit 2) 2
  expectCount b (pricey.start 3) 1
  expectCount b (pricey.start 7) 0
  [pricey, (pricey.start 1).limit 2].forM (expectAgreement b)
  expectGroups b .all ["available"] byAvailability
  expectGroups b (only "quantity" (.greater (small 1))) ["available", "note"] byAvailabilityAndNote
  let first ← products.countGrouped b (Criteria.all.limit 1) ["available"]
  expect "the first group" (first.map (·.count) == [2])
  expectGroups b .all [] [⟨5, []⟩]

end DataAccess.Conformance
