import Mathlib

/-!
# Fallible computations

When a computation that stops at its first error succeeds.
-/

set_option autoImplicit false

namespace RustNostr.Library

variable {ε ε' α β : Type}

theorem bind_ok {source : Except ε α} {continuation : α → Except ε β} {result : β} :
    (source >>= continuation) = .ok result ↔ ∃ value, source = .ok value ∧ continuation value = .ok result := by
  cases source with
  | error failed => simp [bind, Except.bind]
  | ok value => simp [bind, Except.bind]

theorem mapError_ok {source : Except ε α} {error : ε → ε'} {result : α} :
    source.mapError error = .ok result ↔ source = .ok result := by
  cases source with
  | error failed => simp [Except.mapError]
  | ok value => simp [Except.mapError]

theorem toOption_eq_some {source : Except ε α} {result : α} :
    source.toOption = some result ↔ source = .ok result := by
  cases source with
  | error failed => simp [Except.toOption]
  | ok value => simp [Except.toOption]

theorem mem_of_mapM_ok {step : α → Except ε β} {items : List α} {results : List β}
    (all : items.mapM step = .ok results) (result : β) :
    result ∈ results ↔ ∃ item ∈ items, step item = .ok result := by
  induction items generalizing results with
  | nil =>
      cases all
      simp
  | cons item items ih =>
      rw [List.mapM_cons] at all
      obtain ⟨first, stepped, all⟩ := bind_ok.mp all
      obtain ⟨others, rest, all⟩ := bind_ok.mp all
      cases all
      simp [ih rest, stepped, eq_comm]

/-! ## Reading back -/

section ReadBack

variable {α : Type} [BEq α] {read : α → Option α}

/-- A value that is there comes back. -/
theorem bind_beq_iff {field : Option α} : (field.bind read == field) = true ↔
    ∀ value, field = some value → ∃ back, read value = some back ∧ (back == value) = true := by
  cases field with
  | none => simp
  | some value =>
      cases reads : read value with
      | none => simp [reads]
      | some back => simp [reads]

/-- All elements come back, and none is left out. -/
theorem filterMap_beq_iff {list : List α} : (list.filterMap read == list) = true ↔
    ∀ value ∈ list, ∃ back, read value = some back ∧ (back == value) = true := by
  induction list with
  | nil => simp
  | cons value rest ih =>
      rw [List.forall_mem_cons, ← ih, List.filterMap_cons]
      cases reads : read value with
      | some back => simp [List.cons_beq_cons]
      | none =>
          have fewer := List.length_filterMap_le read rest
          constructor
          · intro same
            have lengths := List.length_eq_of_beq same
            simp only [List.length_cons] at lengths
            omega
          · intro ⟨⟨back, nothing, _⟩, _⟩
            cases nothing

end ReadBack

end RustNostr.Library
