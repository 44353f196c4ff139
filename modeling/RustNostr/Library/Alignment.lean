import Mathlib

/-!
# Two sequences side by side

Of each of two sequences some elements are chosen, and those of the one are taken in order,
as many as are chosen of the other.
-/

set_option autoImplicit false

namespace RustNostr.Library

variable {α β γ δ : Type}

/-- What is chosen is among the first so many exactly when fewer are chosen before it. -/
theorem mem_take_filterMap {choose : α → Option β} {list : List α} {count : Nat} {value : β} :
    value ∈ (list.filterMap choose).take count ↔
      ∃ (position : Nat) (element : α), list[position]? = some element ∧ choose element = some value ∧
        ((list.take position).filterMap choose).length < count := by
  induction list generalizing count with
  | nil => simp
  | cons first list ih =>
      cases chosen : choose first with
      | none =>
          rw [List.filterMap_cons_none chosen, ih]
          constructor
          · intro found
            obtain ⟨position, element, here, value, few⟩ := found
            refine ⟨position + 1, element, here, value, ?_⟩
            rwa [List.take_succ_cons, List.filterMap_cons_none chosen]
          · intro found
            obtain ⟨position, element, here, value, few⟩ := found
            cases position with
            | zero =>
                cases here
                rw [chosen] at value
                cases value
            | succ position =>
                rw [List.take_succ_cons, List.filterMap_cons_none chosen] at few
                exact ⟨position, element, here, value, few⟩
      | some head =>
          rw [List.filterMap_cons_some chosen]
          cases count with
          | zero => simp
          | succ count =>
              rw [List.take_succ_cons, List.mem_cons, ih]
              constructor
              · intro found
                rcases found with same | ⟨position, element, here, value, few⟩
                · subst same
                  exact ⟨0, first, rfl, chosen, Nat.succ_pos count⟩
                · refine ⟨position + 1, element, here, value, ?_⟩
                  rw [List.take_succ_cons, List.filterMap_cons_some chosen]
                  exact Nat.succ_lt_succ few
              · intro found
                obtain ⟨position, element, here, value, few⟩ := found
                cases position with
                | zero =>
                    cases here
                    exact .inl (Option.some.inj (value.symm.trans chosen))
                | succ position =>
                    rw [List.take_succ_cons, List.filterMap_cons_some chosen] at few
                    exact .inr ⟨position, element, here, value, Nat.lt_of_succ_lt_succ few⟩

theorem map_snd_zip_eq_take (left : List α) (right : List β) :
    (left.zip right).map Prod.snd = right.take left.length := by
  induction left generalizing right with
  | nil => simp
  | cons first left ih =>
      cases right with
      | nil => rfl
      | cons second right => rw [List.zip_cons_cons, List.map_cons, ih, List.length_cons, List.take_succ_cons]

section Sides

variable {left : List α} {right : List β} {chooseLeft : α → Option γ} {chooseRight : β → Option δ}

theorem length_filterMap_take_succ {list : List α} {choose : α → Option γ} {position : Nat} {element : α}
    (here : list[position]? = some element) :
    ((list.take (position + 1)).filterMap choose).length =
      ((list.take position).filterMap choose).length + (choose element).toList.length := by
  rw [List.take_add_one, here, Option.toList_some, List.filterMap_append, List.length_append,
    List.filterMap_cons]
  cases choose element <;> rfl

/-- Where each of those that are taken stands beside a chosen one, at least as many are chosen. -/
theorem min_length_le (same : left.length = right.length)
    (beside : ∀ (position : Nat) (first : α) (second : β), left[position]? = some first →
      right[position]? = some second → (chooseRight second).isSome = true →
      ((right.take position).filterMap chooseRight).length < (left.filterMap chooseLeft).length →
        (chooseLeft first).isSome = true)
    (position : Nat) :
    min ((right.take position).filterMap chooseRight).length (left.filterMap chooseLeft).length ≤
      ((left.take position).filterMap chooseLeft).length := by
  induction position with
  | zero => simp
  | succ position ih =>
      by_cases inside : position < left.length
      · have first := List.getElem?_eq_getElem inside
        have second := List.getElem?_eq_getElem (same ▸ inside)
        have step := beside position _ _ first second
        rw [length_filterMap_take_succ first, length_filterMap_take_succ second]
        cases taken : chooseRight right[position] with
        | none =>
            simp only [Option.toList_none, List.length_nil]
            omega
        | some value =>
            by_cases few : ((right.take position).filterMap chooseRight).length <
                (left.filterMap chooseLeft).length
            · have chosen := step (by rw [taken]; rfl) few
              obtain ⟨other, found⟩ := Option.isSome_iff_exists.mp chosen
              simp only [found, Option.toList_some, List.length_singleton]
              omega
            · omega
      · have whole : left.take (position + 1) = left := List.take_of_length_le (by omega)
        rw [whole]
        exact min_le_right _ _

/-- Then no chosen element comes after all that are taken. -/
theorem length_take_lt_of_beside (same : left.length = right.length)
    (beside : ∀ (position : Nat) (first : α) (second : β), left[position]? = some first →
      right[position]? = some second → (chooseRight second).isSome = true →
      ((right.take position).filterMap chooseRight).length < (left.filterMap chooseLeft).length →
        (chooseLeft first).isSome = true)
    {position : Nat} {element : α} (here : left[position]? = some element)
    (chosen : (chooseLeft element).isSome = true) :
    ((right.take position).filterMap chooseRight).length < (left.filterMap chooseLeft).length := by
  have before := min_length_le same beside position
  have next := @length_filterMap_take_succ α γ left chooseLeft position element here
  have within := ((List.take_sublist (position + 1) left).filterMap chooseLeft).length_le
  obtain ⟨value, found⟩ := Option.isSome_iff_exists.mp chosen
  simp only [found, Option.toList_some, List.length_singleton] at next
  omega

end Sides

end RustNostr.Library
