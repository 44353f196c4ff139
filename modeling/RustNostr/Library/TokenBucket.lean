import Mathlib

/-!
# Token buckets

A bucket holds tokens up to its capacity. A request first fills in what has been earned
since the one before it, and then takes a token, or is refused when there is none.
-/

set_option autoImplicit false

namespace RustNostr.Library

/-- The tokens that a request finds. -/
def refilled (capacity held earned : Nat) : Nat := min capacity (held + earned)

/-- Whether each request is admitted, by what has been earned before it. -/
def admissions (capacity : Nat) : Nat → List Nat → List Bool
  | _, [] => []
  | held, earned :: rest =>
      decide (0 < refilled capacity held earned) ::
        admissions capacity (refilled capacity held earned - 1) rest

/-- No stretch of requests is longer than a full bucket and what is earned within it. -/
def Affordable (capacity : Nat) (earnings : List Nat) : Prop :=
  ∀ first rest, (first :: rest) <:+: earnings → rest.length < capacity + rest.sum

variable {capacity held : Nat} {earnings : List Nat}

theorem length_admissions : (admissions capacity held earnings).length = earnings.length := by
  induction earnings generalizing held with
  | nil => rfl
  | cons earned rest ih => rw [admissions, List.length_cons, List.length_cons, ih]

theorem admissions_append (earlier later : List Nat) :
    ∃ held', admissions capacity held (earlier ++ later) =
      admissions capacity held earlier ++ admissions capacity held' later := by
  induction earlier generalizing held with
  | nil => exact ⟨held, rfl⟩
  | cons earned rest ih =>
      obtain ⟨held', same⟩ := @ih (refilled capacity held earned - 1)
      refine ⟨held', ?_⟩
      rw [List.cons_append, admissions, admissions, same, List.cons_append]

theorem affordable_cons {earned : Nat} : Affordable capacity (earned :: earnings) ↔
    (∀ rest, rest <+: earnings → rest.length < capacity + rest.sum) ∧ Affordable capacity earnings := by
  constructor
  · intro affordable
    constructor
    · intro rest early
      exact affordable earned rest (List.prefix_cons_inj earned |>.mpr early).isInfix
    · intro first rest inside
      exact affordable first rest (List.infix_cons inside)
  · intro both first rest inside
    cases List.infix_cons_iff.mp inside with
    | inl early => exact both.1 rest (List.cons_prefix_cons.mp early).2
    | inr later => exact both.2 first rest later

/-- From any filling, all are admitted exactly if the stretches are affordable and those
from the beginning are also with what is held. -/
theorem admitsAll_iff_of_held (fits : held ≤ capacity) :
    (∀ admitted ∈ admissions capacity held earnings, admitted = true) ↔
      Affordable capacity earnings ∧
        ∀ rest, rest <+: earnings → rest.length ≤ held + rest.sum := by
  induction earnings generalizing held with
  | nil =>
      refine iff_of_true (by simp [admissions]) ⟨?_, ?_⟩
      · intro first rest inside
        cases List.infix_nil.mp inside
      · intro rest early
        cases List.prefix_nil.mp early
        exact Nat.zero_le _
  | cons earned later ih =>
      rw [admissions, List.forall_mem_cons, decide_eq_true_eq, ih (by
        rw [refilled]
        omega), affordable_cons]
      constructor
      · intro admitted
        obtain ⟨some, affordable, held'⟩ := admitted
        refine ⟨⟨fun rest early => ?_, affordable⟩, fun rest early => ?_⟩
        · have bound := held' rest early
          rw [refilled] at some bound
          omega
        · cases rest with
          | nil => exact Nat.zero_le _
          | cons first rest =>
              obtain ⟨rfl, before⟩ := List.cons_prefix_cons.mp early
              have bound := held' rest before
              rw [refilled] at some bound
              rw [List.length_cons, List.sum_cons]
              omega
      · intro bounds
        obtain ⟨⟨full, affordable⟩, held'⟩ := bounds
        have whole (rest : List Nat) (early : rest <+: later) :
            rest.length < refilled capacity held earned + rest.sum := by
          have first := held' (earned :: rest) (List.prefix_cons_inj earned |>.mpr early)
          have second := full rest early
          rw [List.length_cons, List.sum_cons] at first
          rw [refilled]
          omega
        refine ⟨whole [] List.nil_prefix, affordable, fun rest early => ?_⟩
        have bound := whole rest early
        omega

/-- From a full bucket, no request is refused exactly if all stretches are affordable. -/
theorem admitsAll_iff :
    (∀ admitted ∈ admissions capacity capacity earnings, admitted = true) ↔ Affordable capacity earnings := by
  rw [admitsAll_iff_of_held le_rfl]
  refine and_iff_left_of_imp fun affordable rest early => ?_
  cases rest with
  | nil => exact Nat.zero_le _
  | cons first rest =>
      have bound := affordable first rest early.isInfix
      rw [List.length_cons, List.sum_cons]
      omega

/-- All stretches are affordable when each request but the first one has earned its token. -/
theorem affordable_of_pos {first : Nat} (some : 0 < capacity) (each : ∀ earned ∈ earnings, 0 < earned) :
    Affordable capacity (first :: earnings) := by
  have bound (rest : List Nat) (inside : rest <:+: earnings) : rest.length ≤ rest.sum :=
    List.length_le_sum_of_one_le rest fun earned member => each earned (inside.subset member)
  intro head rest inside
  cases List.infix_cons_iff.mp inside with
  | inl early =>
      have enough := bound rest (List.cons_prefix_cons.mp early).2.isInfix
      omega
  | inr later =>
      have enough := bound rest ((List.infix_cons (List.infix_refl rest)).trans later)
      omega

/-- Where nothing is earned, there are no more requests than a full bucket has tokens. -/
theorem length_le_of_affordable (affordable : Affordable capacity earnings)
    (nothing : ∀ earned ∈ earnings, earned = 0) : earnings.length ≤ capacity := by
  cases earnings with
  | nil => exact Nat.zero_le _
  | cons first rest =>
      have bound := affordable first rest (List.infix_refl _)
      have zero : rest.sum = 0 := List.sum_eq_zero (List.forall_mem_cons.mp nothing).2
      rw [zero] at bound
      exact bound

theorem count_admissions_cons {earned : Nat} :
    (admissions capacity held (earned :: earnings)).count true =
      (admissions capacity (refilled capacity held earned - 1) earnings).count true +
        if 0 < refilled capacity held earned then 1 else 0 := by
  rw [admissions, List.count_cons]
  simp only [beq_true, decide_eq_true_eq]

/-- What is held and earned bounds what is admitted. -/
theorem count_admissions_le : (admissions capacity held earnings).count true ≤ held + earnings.sum := by
  induction earnings generalizing held with
  | nil => exact Nat.zero_le _
  | cons earned rest ih =>
      have later := @ih (refilled capacity held earned - 1)
      rw [count_admissions_cons, List.sum_cons]
      have found : refilled capacity held earned ≤ held + earned := min_le_right _ _
      split <;> omega

/-- Of a stretch, a full bucket and what is earned within it are admitted at most. -/
theorem count_admissions_stretch_le {first : Nat} :
    (admissions capacity held (first :: earnings)).count true ≤ capacity + earnings.sum := by
  have later := @count_admissions_le capacity (refilled capacity held first - 1) earnings
  have found : refilled capacity held first ≤ capacity := min_le_left _ _
  rw [count_admissions_cons]
  split <;> omega

end RustNostr.Library
