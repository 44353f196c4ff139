import Mathlib

/-!
# The first value wins

A run over a list that keeps, of each thing it looks for, the first it meets.
-/

set_option autoImplicit false

namespace RustNostr.Library

variable {σ τ α β : Type} {step : σ → τ → σ}

/-- What a run has kept is the first that was read, unless something was kept before. -/
theorem foldl_firstWins {kept : σ → Option α} {read : τ → Option α}
    (each : ∀ state item, kept (step state item) = (kept state).or (read item)) (state : σ) (items : List τ) :
    kept (items.foldl step state) = (kept state).or (items.findSome? read) := by
  induction items generalizing state with
  | nil => simp
  | cons item items ih =>
      rw [List.foldl_cons, ih, each, Option.or_assoc, List.findSome?_cons]
      cases read item with
      | none => simp
      | some value => simp

theorem findSome?_filterMap (pair : τ → Option β) (half : β → Option α) (items : List τ) :
    (items.filterMap pair).findSome? half = items.findSome? fun item => (pair item).bind half := by
  rw [← List.head?_filterMap, ← List.head?_filterMap, List.filterMap_filterMap]

/-! ## Both halves of a pair -/

/-- The first halves and the second halves are kept apart, and a first half is always there.
They belong together exactly when the first pair has a second half, or none has. -/
theorem secondOfFirst_iff (pairs : List (α × Option β)) :
    (∀ second, pairs.findSome? Prod.snd = some second →
      ∃ first, pairs.findSome? (some ∘ Prod.fst) = some first ∧ pairs.head? = some (first, some second)) ↔
      (∀ pair, pairs.head? = some pair → pair.2 = none → ∀ other ∈ pairs, other.2 = none) := by
  cases pairs with
  | nil => simp
  | cons pair rest =>
      obtain ⟨first, second⟩ := pair
      cases second with
      | some second => simp
      | none =>
          have apart : (∀ second, rest.findSome? Prod.snd ≠ some second) ↔ ∀ other ∈ rest, other.2 = none := by
            rw [← Option.eq_none_iff_forall_ne_some, List.findSome?_eq_none_iff]
          simpa using apart

end RustNostr.Library
