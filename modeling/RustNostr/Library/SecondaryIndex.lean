import Mathlib
import RustNostr.Library.SortedTable

/-! Secondary indexes: tables that map every key of every row of a primary table
to the row's identity, and nothing else. -/

set_option autoImplicit false

namespace RustNostr.Library

variable {ι κ ρ : Type} [LinearOrder κ]

namespace SortedTable

def putAll (table : SortedTable κ ι) (keys : List κ) (id : ι) : SortedTable κ ι :=
  keys.foldl (fun table key => table.put key id) table

def deleteAll (table : SortedTable κ ι) (keys : List κ) : SortedTable κ ι :=
  keys.foldl delete table

theorem get?_putAll (table : SortedTable κ ι) (keys : List κ) (id : ι) (key : κ) :
    (table.putAll keys id).get? key = if key ∈ keys then some id else table.get? key := by
  induction keys generalizing table with
  | nil => simp [putAll]
  | cons head keys ih =>
      have step : table.putAll (head :: keys) id = (table.put head id).putAll keys id := rfl
      rw [step, ih, get?_put]
      by_cases later : key ∈ keys <;> by_cases same : key = head <;> simp [later, same]

theorem get?_deleteAll (table : SortedTable κ ι) (keys : List κ) (key : κ) :
    (table.deleteAll keys).get? key = if key ∈ keys then none else table.get? key := by
  induction keys generalizing table with
  | nil => simp [deleteAll]
  | cons head keys ih =>
      have step : table.deleteAll (head :: keys) = (table.delete head).deleteAll keys := rfl
      rw [step, ih, get?_delete]
      by_cases later : key ∈ keys <;> by_cases same : key = head <;> simp [later, same]

end SortedTable

/-- How rows are identified and indexed: a key belongs to rows of one identity
only. -/
structure IndexSchema (ι κ ρ : Type) where
  idOf : ρ → ι
  keysOf : ρ → List κ
  owned : ∀ left right key, key ∈ keysOf left → key ∈ keysOf right → idOf left = idOf right

namespace IndexSchema

variable (schema : IndexSchema ι κ ρ)

/-- The index holds the keys of these rows, each with its row's identity, and
nothing else. -/
def Image (rows : ρ → Prop) (index : SortedTable κ ι) : Prop :=
  ∀ key id, index.get? key = some id ↔
    ∃ row, rows row ∧ key ∈ schema.keysOf row ∧ schema.idOf row = id

variable {schema} {rows : ρ → Prop} {index : SortedTable κ ι}

theorem image_empty (none : ∀ row, ¬ rows row) :
    schema.Image rows (.empty : SortedTable κ ι) := by
  intro key id
  simp only [SortedTable.get?_empty, reduceCtorEq, false_iff]
  rintro ⟨row, present, _⟩
  exact none row present

theorem Image.congr {rows' : ρ → Prop} (image : schema.Image rows index)
    (same : ∀ row, rows' row ↔ rows row) : schema.Image rows' index := by
  intro key id
  rw [image key id]
  simp only [same]

theorem Image.unique {index' : SortedTable κ ι} (image : schema.Image rows index)
    (image' : schema.Image rows index') : index' = index := by
  apply SortedTable.ext_get?
  intro key
  apply Option.ext
  intro id
  rw [image key id, image' key id]

theorem Image.putAll (image : schema.Image rows index) (row : ρ) :
    schema.Image (fun other => other = row ∨ rows other)
      (index.putAll (schema.keysOf row) (schema.idOf row)) := by
  intro key id
  rw [SortedTable.get?_putAll]
  by_cases owns : key ∈ schema.keysOf row
  · simp only [owns, ↓reduceIte, Option.some.injEq]
    constructor
    · rintro rfl
      exact ⟨row, .inl rfl, owns, rfl⟩
    · rintro ⟨other, _, otherOwns, rfl⟩
      exact schema.owned row other key owns otherOwns
  · simp only [owns, ↓reduceIte, image key id]
    constructor
    · rintro ⟨other, present, otherOwns, identity⟩
      exact ⟨other, .inr present, otherOwns, identity⟩
    · rintro ⟨other, rfl | present, otherOwns, identity⟩
      · exact absurd otherOwns owns
      · exact ⟨other, present, otherOwns, identity⟩

/-- Removing a row erases its own keys only, provided that no other version of
the row is stored. -/
theorem Image.deleteAll (image : schema.Image rows index) (row : ρ)
    (version : ∀ other, rows other → schema.idOf other = schema.idOf row → other = row) :
    schema.Image (fun other => rows other ∧ schema.idOf other ≠ schema.idOf row)
      (index.deleteAll (schema.keysOf row)) := by
  intro key id
  rw [SortedTable.get?_deleteAll]
  by_cases owns : key ∈ schema.keysOf row
  · simp only [owns, ↓reduceIte, reduceCtorEq, false_iff]
    rintro ⟨other, ⟨_, different⟩, otherOwns, _⟩
    exact different (schema.owned other row key otherOwns owns)
  · simp only [owns, ↓reduceIte, image key id]
    constructor
    · rintro ⟨other, present, otherOwns, identity⟩
      refine ⟨other, ⟨present, fun same => ?_⟩, otherOwns, identity⟩
      exact owns (version other present same ▸ otherOwns)
    · rintro ⟨other, ⟨present, _⟩, otherOwns, identity⟩
      exact ⟨other, present, otherOwns, identity⟩

end IndexSchema

end RustNostr.Library
