import DataAccess.Conformance.Filtering

/-! Two tables joined in every way, in one storage or over two. -/
namespace DataAccess.Conformance

variable {σ : Type}

abbrev Items := List (JoinResult LeftItem RightItem)

/-- The rows of a join, which must be as many as are counted. -/
def joined (left right : Backend σ) (c : JoinCriteria) : Action σ Items := do
  let rows ← leftItems.join rightItems left right c
  let n ← leftItems.countJoin rightItems left right c
  expect "as many rows as are counted" (n == rows.length)
  pure rows

abbrev Tags := List (Option String × Option String)

def tags (rows : Items) : Tags := rows.map fun r => (r.left.map (·.tag), r.right.map (·.tag))

def expectTags (left right : Backend σ) (c : JoinCriteria) (expected : Tags) : Action σ Unit := do
  expect "the tags of the join" (tags (← joined left right c) == expected)

def both (tag : String) : Option String × Option String := (some tag, some tag)
def lone (tag : String) : Option String × Option String := (some tag, none)
def stray (tag : String) : Option String × Option String := (none, some tag)

def relate (relation : Relation) (property : String) : JoinExpression :=
  ⟨relation, property, property, true⟩

def byKeys (c : JoinCriteria) : JoinCriteria :=
  (c.orderBy .left "id" .ascending).orderBy .right "id" .ascending

def onTag (kind : JoinKind) : JoinCriteria :=
  byKeys ((JoinCriteria.ofKind kind).on (relate .equal "tag"))

def matchedTags : Tags := [both "one", both "two", both "three"]
def leftTags : Tags := matchedTags ++ [lone "four", lone "five"]

def joinKinds (left right : Backend σ) : Action σ Unit := do
  setUpItems left right
  let inner ← joined left right (onTag .inner)
  expect "the tags of the join" (tags inner == matchedTags)
  expect "the keys of the join" ((inner.filterMap (·.left)).map (·.id) == [1, 2, 3])
  let leftOuter ← joined left right (onTag .leftOuter)
  expect "the tags of the join" (tags leftOuter == leftTags)
  expectTags left right (onTag .rightOuter) ([stray "4", stray "5"] ++ matchedTags)
  expectTags left right (onTag .outer) ([stray "4", stray "5"] ++ leftTags)
  let flipped ← Action.of (onTag .leftOuter).flip
  let back ← Action.of flipped.flip
  expect "two flips cancel" (back == onTag .leftOuter)
  let swapped ← rightItems.join leftItems right left flipped
  expect "a flipped join gives the same rows" (swapped.map .flip == leftOuter)
  [onTag .inner, onTag .outer].forM fun c =>
    expectFailure "only one-sided joins are flipped"
      (fun | .unsupportedFlip _ => true | _ => false) (Action.of (σ := σ) c.flip)
  expectFailure "a join needs a predicate" isConfiguration
    (leftItems.join rightItems left right (.ofKind .inner))

def joinWindows (left right : Backend σ) : Action σ Unit := do
  setUpItems left right
  let inner := onTag .inner
  expectTags left right (inner.start 1) [both "two", both "three"]
  expectTags left right (inner.limit 2) [both "one", both "two"]
  expectTags left right ((inner.start 1).limit 1) [both "two"]
  expectTags left right (inner.start 3) []
  expectTags left right (((onTag .leftOuter).start 2).limit 2) [both "three", lone "four"]
  let descending := ((JoinCriteria.ofKind .leftOuter).on (relate .equal "tag")).orderBy .left "id"
    .descending
  expectTags left right (descending.limit 3) [lone "five", lone "four", both "three"]

def sideFilters (left right : Backend σ) : Action σ Unit := do
  let latest := ((only "id" (.greater (small 1))).orderBy "id" .descending).limit 1
  expectTags left right ((onTag .inner).withFilter .left latest) [both "two", both "three"]
  expectTags left right ((onTag .leftOuter).withFilter .right (only "tag" (.equal (text "two"))))
    [lone "one", both "two", lone "three", lone "four", lone "five"]
  let early := only "id" (.lesser (small 3))
  expectTags left right ((onTag .leftOuter).withFilter .left early) [both "one", both "two"]
  expectTags left right
    (((onTag .outer).withFilter .left early).withFilter .right (only "id" (.greater (small 2))))
    [stray "three", stray "4", stray "5", lone "one", lone "two"]

/-- Each key with the smaller ones. -/
def descents : List (Int64 × Int64) :=
  [(2, 1), (3, 1), (3, 2), (4, 1), (4, 2), (4, 3), (5, 1), (5, 2), (5, 3), (5, 4)]

def bothKeys {α β : Type} (l : α → Int64) (r : β → Int64) (rows : List (JoinResult α β)) :
    List (Int64 × Int64) :=
  rows.filterMap fun row => do pure (l (← row.left), r (← row.right))

def inequalities (left right : Backend σ) : Action σ Unit := do
  let greater := relate .greater "id"
  let rows ← joined left right (byKeys ((JoinCriteria.ofKind .inner).on greater))
  expect "greater keys" (bothKeys LeftItem.id RightItem.id rows == descents)
  let rows ← rightItems.join leftItems right left
    (byKeys ((JoinCriteria.ofKind .inner).on greater.flip))
  let expected := (descents.map fun (l, r) => (r, l)).mergeSort fun a b =>
    a.1 < b.1 || (a.1 == b.1 && a.2 ≤ b.2)
  expect "greater keys from the other side" (bothKeys RightItem.id LeftItem.id rows == expected)

def composites (left right : Backend σ) : Action σ Unit := do
  let inner := JoinCriteria.ofKind .inner
  let equalTags := relate .equal "tag"
  let equalKeys := relate .equal "id"
  let byId (c : JoinCriteria) := c.orderBy .left "id" .ascending
  let twice := byId ((inner.on equalTags).on (relate .lesser "id").invert)
  expect "both predicates" ((← joined left right twice).length == 3)
  let either := byId (({ inner with operator := .or }.on equalTags).on equalKeys)
  expectTags left right either (matchedTags ++ [(some "four", some "4"), (some "five", some "5")])
  let unequal := byId (((JoinCriteria.ofKind .leftOuter).on equalTags.invert).on equalKeys)
  expectTags left right unequal
    [lone "one", lone "two", lone "three", (some "four", some "4"), (some "five", some "5")]

def joinPredicates (left right : Backend σ) : Action σ Unit := do
  setUpItems left right
  sideFilters left right
  inequalities left right
  composites left right

end DataAccess.Conformance
