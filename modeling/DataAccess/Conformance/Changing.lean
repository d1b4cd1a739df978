import DataAccess.Conformance.Counting

/-! Rows updated and deleted, and changes that must be refused. -/
namespace DataAccess.Conformance

open Native (toValue)

variable {σ : Type}

def byId (id : Int64) : Criteria := only "id" (.equal (toValue id))

def expectChanged (n : Nat) (change : Action σ Affected) : Action σ Unit := do
  expect "the number of changed rows" ((← change).rows == some n)

def updating (b : Backend σ) : Action σ Unit := do
  expectChanged 1 (products.updateMany b (byId 2) [("quantity", small 5)])
  let mouse ← products.findOne b (byId 2)
  expect "the mouse is found" mouse.isSome
  expect "its quantity is new" (mouse.map (·.quantity) == some 5)
  expect "its name is the old one" (mouse.map (·.name) == some "Mouse")
  expectChanged 2 (products.updateMany b (only "available" (.equal (toValue false)))
    [("note", text "discontinued"), ("available", toValue true)])
  expectCount b (only "note" (.equal (text "discontinued"))) 2
  expectChanged 2 (b.updateBatch products.mapping
    [(byId 1, [("price", amount 45)]), (byId 3, [("price", amount 189)])])
  let changed ← products.findMany b (only "id" (.inList [small 1, small 3]))
  let prices := changed.map (·.price)
  expect "the prices are new" (prices.contains (price 4500) && prices.contains (price 18900))

def refusedUpdates (b : Backend σ) : Action σ Unit := do
  expectFailure "an update without a filter is refused" isConfiguration
    (products.updateMany b .all [("quantity", small 0)])
  expectFailure "an update without values is refused" (fun | .emptyAssignment => true | _ => false)
    (products.updateMany b (byId 1) [])

def deleting (b : Backend σ) : Action σ Unit := do
  expectFailure "deleting without a filter is refused" (fun | .emptyCriteria _ => true | _ => false)
    (products.deleteMany b .all)
  expectCount b .all 5
  expectChanged 1 (products.deleteMany b (only "price" (.lesser (amount 10))))
  expect "the mousepad is gone" ((← products.findOne b (byId 4)) == none)

/-- A key can be taken once. -/
def keysAreUnique (b : Backend σ) : Action σ Unit :=
  productRows.head?.forM fun keyboard =>
    expectFailure "a key that is taken" (·.kind? == some .execution) (products.insertOne b keyboard)

def changing (b : Backend σ) : Action σ Unit := do
  setUpProducts b
  updating b
  refusedUpdates b
  deleting b
  keysAreUnique b
  expectChanged 4 (products.deleteAll b)
  expectCount b .all 0

end DataAccess.Conformance
