import Mathlib

/-!
# The first element at which a search stops

A search goes through a list and stops at the first element of some kind. When is what it
stops at good?
-/

set_option autoImplicit false

namespace RustNostr.Library

variable {α β : Type}

/-- If the search stops, the element is good. -/
def StopsAt (stops good : α → Prop) (list : List α) : Prop :=
  ∀ earlier element later, list = earlier ++ element :: later → (∀ other ∈ earlier, ¬ stops other) →
    stops element → good element

theorem exists_first {stops : α → Prop} {list : List α} (some : ∃ element ∈ list, stops element) :
    ∃ earlier element later, list = earlier ++ element :: later ∧ (∀ other ∈ earlier, ¬ stops other) ∧
      stops element := by
  classical
  obtain ⟨element, member, here⟩ := some
  have found : (list.find? fun element => decide (stops element)).isSome :=
    List.find?_isSome.mpr ⟨element, member, decide_eq_true here⟩
  obtain ⟨first, found⟩ := Option.isSome_iff_exists.mp found
  obtain ⟨here, earlier, later, split, before⟩ := List.find?_eq_some_iff_append.mp found
  refine ⟨earlier, first, later, split, ?_, of_decide_eq_true here⟩
  intro other member
  simpa using before other member

/-- It is enough to look at the elements before the first good one. -/
theorem stopsAt_iff {stops good : α → Prop} (goodStops : ∀ element, good element → stops element)
    (list : List α) : StopsAt stops good list ↔
      ∀ earlier element later, list = earlier ++ element :: later → (∀ other ∈ earlier, ¬ good other) →
        stops element → good element := by
  constructor
  · intro atFirst earlier element later split noneGood here
    by_cases before : ∃ other ∈ earlier, stops other
    · obtain ⟨front, first, back, splitEarlier, passed, stopped⟩ := exists_first before
      have position : list = front ++ first :: (back ++ element :: later) := by
        rw [split, splitEarlier, List.append_assoc, List.cons_append]
      have member : first ∈ earlier := by
        rw [splitEarlier]
        simp
      exact absurd (atFirst front first _ position passed stopped) (noneGood first member)
    · have passed : ∀ other ∈ earlier, ¬ stops other := fun other member here =>
        before ⟨other, member, here⟩
      exact atFirst earlier element later split passed here
  · intro beforeGood earlier element later split passed here
    exact beforeGood earlier element later split
      (fun other member good => passed other member (goodStops other good)) here

theorem findSome?_forall_iff {found : α → Option β} {good : β → Prop} (list : List α) :
    (∀ value, list.findSome? found = some value → good value) ↔
      StopsAt (fun element => (found element).isSome)
        (fun element => ∃ value, found element = some value ∧ good value) list := by
  constructor
  · intro atFound earlier element later split passed here
    obtain ⟨value, here⟩ := Option.isSome_iff_exists.mp here
    refine ⟨value, here, atFound value (List.findSome?_eq_some_iff.mpr ⟨earlier, element, later, split, here, ?_⟩)⟩
    intro other member
    exact Option.not_isSome_iff_eq_none.mp (passed other member)
  · intro atFirst value result
    obtain ⟨earlier, element, later, split, here, passed⟩ := List.findSome?_eq_some_iff.mp result
    have before : ∀ other ∈ earlier, ¬ (found other).isSome = true := by
      intro other member
      rw [passed other member]
      simp
    have stops : (found element).isSome = true := Option.isSome_iff_exists.mpr ⟨value, here⟩
    obtain ⟨value', here', good⟩ := atFirst earlier element later split before stops
    rw [here] at here'
    cases here'
    exact good

theorem find?_forall_iff {found : α → Bool} {good : α → Prop} (list : List α) :
    (∀ element, list.find? found = some element → good element) ↔
      StopsAt (fun element => found element = true) good list := by
  constructor
  · intro atFound earlier element later split passed here
    refine atFound element (List.find?_eq_some_iff_append.mpr ⟨here, earlier, later, split, ?_⟩)
    intro other member
    simpa using passed other member
  · intro atFirst element result
    obtain ⟨here, earlier, later, split, passed⟩ := List.find?_eq_some_iff_append.mp result
    refine atFirst earlier element later split ?_ here
    intro other member
    simpa using passed other member

end RustNostr.Library
