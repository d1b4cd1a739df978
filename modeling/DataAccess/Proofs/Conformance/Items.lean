import DataAccess.Conformance.Items
import DataAccess.Proofs.Entity

/-! The values that storages are put to the test with survive a storage in process. -/
namespace DataAccess.Conformance

theorem numbered_left : leftItems.Numbered LeftItem.id where
  labels := by decide
  fits _ := .cons (.of_kind rfl) (.cons (.of_kind rfl) .nil)
  read _ := rfl
  key := rfl
  position := rfl
  number _ := rfl

theorem numbered_right : rightItems.Numbered RightItem.id where
  labels := by decide
  fits _ := .cons (.of_kind rfl) (.cons (.of_kind rfl) .nil)
  read _ := rfl
  key := rfl
  position := rfl
  number _ := rfl

theorem fits_products (p : Product) : productMapping.Fits (products.row p) :=
  .cons (.of_kind rfl) <| .cons (.of_kind rfl) <| .cons (.of_kind rfl) <| .cons (.of_kind rfl) <|
  .cons (.of_kind rfl) <| .cons (.of_kind rfl) <|
  .cons (.of_option (fun _ => rfl) rfl rfl p.added) <|
  .cons (.of_option (fun _ => rfl) rfl rfl p.code) <|
  .cons (.of_option (fun _ => rfl) rfl rfl p.note) .nil

theorem numbered_products : products.Numbered Product.id where
  labels := by decide
  fits := fits_products
  read p := by
    -- What an optional cell becomes depends on whether it is there.
    obtain ⟨id, name, price, quantity, flags, available, added, code, note⟩ := p
    cases added <;> cases code <;> cases note <;> rfl
  key := rfl
  position := rfl
  number _ := rfl

/-- Lists of values with different numbers are stored whole and found as they were. -/
theorem items_survive (d : Descriptor) :
    (∀ items : List LeftItem, (items.map (·.id)).Nodup → leftItems.Survives (·.id) d items) ∧
    (∀ items : List RightItem, (items.map (·.id)).Nodup → rightItems.Survives (·.id) d items) ∧
    ∀ items : List Product, (items.map (·.id)).Nodup → products.Survives (·.id) d items :=
  ⟨fun _ => numbered_left.survives d, fun _ => numbered_right.survives d,
    fun _ => numbered_products.survives d⟩

/-- A storage with empty tables. -/
def shelves : Memory :=
  { Memory.ofDescriptor ⟨"memory", "shelves", [], 4, 5000⟩ with
    tables := [("left_item", []), ("right_item", []), ("product", [])] }

/-- The lists that storages are put to the test with, the products as they are found then. -/
theorem items_survive_shelves :
    (leftItems.insertMany (Memory.backend shelves.descriptor) leftRows ⟨shelves, []⟩).1 =
      .ok (.ofRows 5) ∧
    (rightItems.insertMany (Memory.backend shelves.descriptor) rightRows ⟨shelves, []⟩).1 =
      .ok (.ofRows 5) ∧
    products.Stored [] shelves ∧ (productRows.map (·.id)).Nodup ∧
    (products.findMany (Memory.backend shelves.descriptor) .all
      (products.insertMany (Memory.backend shelves.descriptor) productRows ⟨shelves, []⟩).2).1 =
        .ok productRows := by
  obtain ⟨left, right, listed⟩ := items_survive shelves.descriptor
  refine ⟨?_, ?_, ⟨rfl, rfl⟩, by decide, ?_⟩
  · exact (left leftRows (by decide)).counted (by decide) shelves [] ⟨rfl, rfl⟩
  · exact (right rightRows (by decide)).counted (by decide) shelves [] ⟨rfl, rfl⟩
  · exact (listed productRows (by decide)).restored ⟨rfl, rfl⟩

end DataAccess.Conformance
