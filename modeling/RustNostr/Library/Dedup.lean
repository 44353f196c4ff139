import Mathlib

/-!
# Removing neighbours

Taking out the elements that are equal to the one before them leaves no element twice
exactly when none comes again after another one.
-/

set_option autoImplicit false

namespace RustNostr.Library

variable {α : Type}

/-- What is followed by something else does not come again. -/
def NeverReturns : List α → Prop
  | first :: second :: rest => (first = second ∨ first ∉ second :: rest) ∧ NeverReturns (second :: rest)
  | _ => True

variable [DecidableEq α]

def dedup (list : List α) : List α := list.destutter (· ≠ ·)

theorem dedup_sublist (list : List α) : (dedup list).Sublist list := List.destutter_sublist _ list

theorem dedup_cons_same (element : α) (rest : List α) :
    dedup (element :: element :: rest) = dedup (element :: rest) := by
  rw [dedup, List.destutter_cons', List.destutter'_cons_neg _ (by simp)]
  rfl

theorem dedup_cons_other {first second : α} (other : first ≠ second) (rest : List α) :
    dedup (first :: second :: rest) = first :: dedup (second :: rest) := by
  rw [dedup, List.destutter_cons', List.destutter'_cons_pos _ other]
  rfl

theorem dedup_map {β : Type} [DecidableEq β] {change : α → β} (injective : Function.Injective change)
    (list : List α) : dedup (list.map change) = (dedup list).map change :=
  (List.map_destutter_ne list injective).symm

theorem mem_dedup {element : α} {list : List α} : element ∈ dedup list ↔ element ∈ list := by
  constructor
  · intro member
    exact (dedup_sublist list).mem member
  · intro member
    induction list with
    | nil => cases member
    | cons first rest ih =>
        cases rest with
        | nil => exact member
        | cons second rest =>
            by_cases same : first = second
            · subst same
              rw [dedup_cons_same]
              refine ih ?_
              rcases List.mem_cons.mp member with here | later
              · exact here ▸ List.mem_cons_self
              · exact later
            · rw [dedup_cons_other same]
              rcases List.mem_cons.mp member with here | later
              · exact here ▸ List.mem_cons_self
              · exact List.mem_cons_of_mem _ (ih later)

theorem nodup_dedup_iff (list : List α) : (dedup list).Nodup ↔ NeverReturns list := by
  induction list with
  | nil => exact iff_of_true List.nodup_nil trivial
  | cons first rest ih =>
      cases rest with
      | nil => exact iff_of_true (List.nodup_singleton first) trivial
      | cons second rest =>
          rw [NeverReturns, ← ih]
          by_cases same : first = second
          · subst same
            rw [dedup_cons_same]
            simp
          · rw [dedup_cons_other same, List.nodup_cons, mem_dedup]
            simp [same]

end RustNostr.Library
