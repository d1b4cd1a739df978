import DataAccess.Keyed

/-! Looking up what was put. -/
namespace DataAccess.Keyed

variable {κ α : Type} [DecidableEq κ]

theorem find?_put (key k : κ) (a : α) (entries : Keyed κ α) :
    (entries.put key a).find? k = if k = key then some a else entries.find? k := by
  induction entries with
  | nil =>
    by_cases h : k = key
    · simp [put, find?, h]
    · simp [put, find?, h, Ne.symm h]
  | cons entry rest ih =>
    obtain ⟨l, b⟩ := entry
    by_cases hl : l = key
    · by_cases h : k = key
      · simp [put, find?, hl, h]
      · simp [put, find?, hl, h, Ne.symm h]
    · by_cases hk : l = k
      · have h : k ≠ key := hk ▸ hl
        simp [put, find?, hk, h]
      · simp [put, find?, hl, hk, ih]

theorem find?_put_self (key : κ) (a : α) (entries : Keyed κ α) :
    (entries.put key a).find? key = some a := by
  rw [find?_put, if_pos rfl]

theorem find?_put_of_ne {key k : κ} (h : k ≠ key) (a : α) (entries : Keyed κ α) :
    (entries.put key a).find? k = entries.find? k := by
  rw [find?_put, if_neg h]

theorem put_put (key : κ) (a b : α) (entries : Keyed κ α) :
    (entries.put key a).put key b = entries.put key b := by
  induction entries with
  | nil => simp [put]
  | cons entry rest ih =>
    obtain ⟨l, c⟩ := entry
    by_cases hl : l = key
    · simp [put, hl]
    · simp [put, hl, ih]

theorem find?_erase (key k : κ) (entries : Keyed κ α) :
    (entries.erase key).find? k = if k = key then none else entries.find? k := by
  induction entries with
  | nil => simp [erase, find?]
  | cons entry rest ih =>
    obtain ⟨l, b⟩ := entry
    simp only [erase] at ih
    by_cases hl : l = key
    · by_cases h : k = key
      · simp_all [erase]
      · have hk : key ≠ k := Ne.symm h
        simp_all [erase, find?]
    · by_cases hk : l = k
      · have h : k ≠ key := hk ▸ hl
        simp_all [erase, find?]
      · simp_all [erase, find?]

end DataAccess.Keyed
