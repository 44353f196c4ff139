import Mathlib

/-! What is left of a trace when it grows by a step: the order of some of its steps, and the
places where it can be cut. -/

set_option autoImplicit false

namespace RustNostr.Library

variable {α : Type} {steps chain before since : List α} {step middle : α}

theorem sublist_snoc (earlier : chain.Sublist steps) (step : α) : chain.Sublist (steps ++ [step]) :=
  earlier.trans (List.sublist_append_left steps [step])

theorem sublist_last (earlier : chain.Sublist steps) (step : α) :
    (chain ++ [step]).Sublist (steps ++ [step]) :=
  earlier.append (List.Sublist.refl [step])

/-- A longer trace is cut at its last step, or where the shorter was cut. -/
theorem snoc_eq_append_cons : steps ++ [step] = before ++ middle :: since ↔
    (steps = before ∧ step = middle ∧ since = []) ∨
      ∃ earlier, steps = before ++ middle :: earlier ∧ since = earlier ++ [step] := by
  constructor
  · intro same
    cases since using List.reverseRecOn with
    | nil =>
        obtain ⟨rfl, last⟩ := List.append_inj' same rfl
        exact .inl ⟨rfl, List.singleton_inj.mp last, rfl⟩
    | append_singleton earlier last =>
        obtain ⟨rfl, sameLast⟩ := List.append_inj'
          (same.trans (List.append_assoc before (middle :: earlier) [last]).symm) rfl
        cases List.singleton_inj.mp sameLast
        exact .inr ⟨earlier, rfl, rfl⟩
  · rintro (⟨rfl, rfl, rfl⟩ | ⟨earlier, rfl, rfl⟩)
    · rfl
    · simp

theorem getElem?_snoc {position : Nat} {found : α} : (steps ++ [step])[position]? = some found ↔
    steps[position]? = some found ∨ position = steps.length ∧ step = found := by
  rcases Nat.lt_trichotomy position steps.length with inside | rfl | beyond
  · have differ : position ≠ steps.length := Nat.ne_of_lt inside
    simp [List.getElem?_append_left inside, differ]
  · simp
  · have differ : position ≠ steps.length := Nat.ne_of_gt beyond
    have outside : (steps ++ [step]).length ≤ position := by simpa using beyond
    simp [List.getElem?_eq_none outside, List.getElem?_eq_none (Nat.le_of_lt beyond), differ]

end RustNostr.Library
