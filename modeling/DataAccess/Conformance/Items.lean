import DataAccess.Entity

/-! The tables that storages are put to the test with. -/
namespace DataAccess.Conformance

open LabeledRow (required optional)
open Native (toValue toNullable)

structure LeftItem where
  id : Int64
  tag : String
deriving DecidableEq

structure RightItem where
  id : Int64
  tag : String
deriving DecidableEq

/-- One column of almost every kind. -/
structure Product where
  id : Int64
  name : String
  price : Binary64
  quantity : Int32
  flags : Int64
  available : Bool
  added : Option Date
  code : Option Uuid
  note : Option String
deriving DecidableEq

def leftItems : Entity LeftItem where
  mapping := ⟨⟨"", "left_item"⟩, [.key "id" "id" .int64, .required "tag" "tag" .varchar]⟩
  row item := [toValue item.id, toValue item.tag]
  read row :=
    (do pure ⟨← required Int64 "id", ← required String "tag"⟩ : StateT _ Outcome _).run' row

/-- The tag is kept in a column of another name. -/
def rightItems : Entity RightItem where
  mapping := ⟨⟨"", "right_item"⟩, [.key "id" "id" .int64, .required "tag" "label" .varchar]⟩
  row item := [toValue item.id, toValue item.tag]
  read row :=
    (do pure ⟨← required Int64 "id", ← required String "label"⟩ : StateT _ Outcome _).run' row

def productMapping : Mapping := ⟨⟨"", "product"⟩, [
  .key "id" "id" .int64,
  .required "name" "name" .varchar,
  .required "price" "price" .float64,
  .required "quantity" "quantity" .int32,
  .required "flags" "flags" .int64,
  .required "available" "available" .boolean,
  .optional "added" "added_on" .date,
  .optional "code" "code" .uuid,
  .optional "note" "note" .varchar]⟩

def products : Entity Product where
  mapping := productMapping
  row p := [toValue p.id, toValue p.name, toValue p.price, toValue p.quantity, toValue p.flags,
    toValue p.available, toNullable p.added, toNullable p.code, toNullable p.note]
  read row := (do
    pure ⟨← required Int64 "id", ← required String "name", ← required Binary64 "price",
      ← required Int32 "quantity", ← required Int64 "flags", ← required Bool "available",
      ← optional Date "added_on", ← optional Uuid "code", ← optional String "note"⟩
    : StateT _ Outcome _).run' row

def leftRows : List LeftItem := [⟨1, "one"⟩, ⟨2, "two"⟩, ⟨3, "three"⟩, ⟨4, "four"⟩, ⟨5, "five"⟩]
def rightRows : List RightItem := [⟨1, "one"⟩, ⟨2, "two"⟩, ⟨3, "three"⟩, ⟨4, "4"⟩, ⟨5, "5"⟩]

def keyboardCode : String := "5e915574-bb30-4430-98cf-c5854f61fbbd"
def monitorCode : String := "0b1c9a7e-3f52-4c55-9d8e-2a6f4e1d7c30"

def price (hundredths : Nat) : Binary64 := .ofRatio false hundredths 100

def productRows : List Product := [
  ⟨1, "Keyboard", price 4950, 10, 3, true, Date.ofParts? 2024 1 10, Uuid.ofText? keyboardCode,
    some "wireless"⟩,
  ⟨2, "Mouse", price 1900, 0, 1, false, Date.ofParts? 2024 2 1, none, none⟩,
  ⟨3, "Monitor", price 19999, 3, 6, true, none, Uuid.ofText? monitorCode, some "27 inch"⟩,
  ⟨4, "mousepad", price 525, 100, 0, true, Date.ofParts? 2023 12 24, none, none⟩,
  ⟨5, "Webcam", price 8900, 7, 7, false, Date.ofParts? 2024 3 15, none, some "hd"⟩]

/-- What is taken for granted; without it there is nothing to go on with. -/
def expect {σ : Type} (what : String) (holds : Bool) : Action σ Unit :=
  if holds then pure () else Action.of (.error (.other what))

variable {σ : Type}

def refill {α : Type} (e : Entity α) (b : Backend σ) : Action σ Unit := do
  e.dropTable b true
  e.createTable b false

def fill {α : Type} (e : Entity α) (b : Backend σ) (items : List α) : Action σ Unit := do
  let affected ← e.insertMany b items
  expect "every row is inserted" (affected.rows == some items.length)

def setUpProducts (b : Backend σ) : Action σ Unit := do
  refill products b
  fill products b productRows

def setUpItems (left right : Backend σ) : Action σ Unit := do
  refill leftItems left
  refill rightItems right
  fill leftItems left leftRows
  fill rightItems right rightRows

end DataAccess.Conformance
