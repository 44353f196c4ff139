import Mathlib

/-! Finite runs of a labelled step relation, and the rules that carry a fact
about one step over to every run. A label may record what the step was given
and what it put out. -/

set_option autoImplicit false

namespace RustNostr.Library

variable {σ ι : Type}

/-- The runs from a state, with the labels of their steps in order. -/
inductive Run (step : σ → ι → σ → Prop) (start : σ) : List ι → σ → Prop where
  | nil : Run step start [] start
  | snoc {labels : List ι} {middle finish : σ} {label : ι} :
      Run step start labels middle → step middle label finish →
        Run step start (labels ++ [label]) finish

namespace Run

variable {step step' : σ → ι → σ → Prop} {start finish : σ} {labels : List ι} {label : ι}

theorem invariant {holds : List ι → σ → Prop} (initial : holds [] start)
    (preserved : ∀ labels state label state', holds labels state → step state label state' →
      holds (labels ++ [label]) state')
    (run : Run step start labels finish) : holds labels finish := by
  induction run with
  | nil => exact initial
  | snoc _ last before => exact preserved _ _ _ _ before last

/-- The rule for a fact that does not look back at the run. -/
theorem state_invariant {holds : σ → Prop} (initial : holds start)
    (preserved : ∀ state label state', holds state → step state label state' → holds state')
    (run : Run step start labels finish) : holds finish := by
  induction run with
  | nil => exact initial
  | snoc _ last before => exact preserved _ _ _ before last

theorem mono (weaker : ∀ state label state', step state label state' → step' state label state')
    (run : Run step start labels finish) : Run step' start labels finish := by
  induction run with
  | nil => exact .nil
  | snoc _ last before => exact before.snoc (weaker _ _ _ last)

/-- What every step gives its label, all labels of a run have. -/
theorem label_of_step {good : ι → Prop}
    (gives : ∀ state label state', step state label state' → good label)
    (run : Run step start labels finish) : ∀ label ∈ labels, good label := by
  induction run with
  | nil => simp
  | snoc _ last before =>
      intro label member
      cases List.mem_append.mp member with
      | inl earlier => exact before label earlier
      | inr here =>
          cases List.mem_singleton.mp here
          exact gives _ _ _ last

theorem cons {middle : σ} (first : step start label middle)
    (rest : Run step middle labels finish) : Run step start (label :: labels) finish := by
  induction rest with
  | nil => exact Run.nil.snoc first
  | snoc _ last before => exact before.snoc last

/-- A run can be cut in two between any of its labels. -/
theorem cut {earlier later : List ι} (run : Run step start (earlier ++ later) finish) :
    ∃ middle, Run step start earlier middle ∧ Run step middle later finish := by
  induction later using List.reverseRecOn generalizing finish with
  | nil => exact ⟨finish, by simpa using run, .nil⟩
  | append_singleton later label ih =>
      generalize split : earlier ++ (later ++ [label]) = labels at run
      cases run with
      | nil => simp at split
      | snoc before last =>
          rw [← List.append_assoc] at split
          obtain ⟨same, sameLabel⟩ := List.append_inj' split rfl
          rw [← same] at before
          cases List.singleton_inj.mp sameLabel
          obtain ⟨middle, first, second⟩ := ih before
          exact ⟨middle, first, second.snoc last⟩

/-- A run stops on its way wherever its labels are cut. -/
theorem split {earlier later : List ι} (run : Run step start (earlier ++ later) finish) :
    ∃ middle, Run step start earlier middle := by
  obtain ⟨middle, before, _⟩ := run.cut
  exact ⟨middle, before⟩

theorem last (run : Run step start (labels ++ [label]) finish) :
    ∃ middle, Run step start labels middle ∧ step middle label finish := by
  generalize split : labels ++ [label] = all at run
  cases run with
  | nil => simp at split
  | snoc before last =>
      obtain ⟨rfl, same⟩ := List.append_inj' split rfl
      cases List.singleton_inj.mp same
      exact ⟨_, before, last⟩

theorem eq_of_nil (run : Run step start [] finish) : finish = start := by
  generalize none : ([] : List ι) = labels at run
  cases run with
  | nil => rfl
  | snoc _ _ => simp at none

theorem first {later : List ι} (run : Run step start (label :: later) finish) :
    ∃ middle, step start label middle ∧ Run step middle later finish := by
  obtain ⟨middle, before, after⟩ := @cut _ _ _ _ _ [label] later run
  obtain ⟨origin, none, taken⟩ := @last _ _ _ _ _ [] label before
  cases none.eq_of_nil
  exact ⟨middle, taken, after⟩

/-- Where a smaller state can always be reached until the run is over, the run can be
brought to its end. -/
theorem exists_final {holds : List ι → σ → Prop} {final : σ → Prop} {allowed : ι → Prop} (size : σ → Nat)
    (progress : ∀ labels state, holds labels state → ¬ final state →
      ∃ label state', step state label state' ∧ allowed label ∧ holds (labels ++ [label]) state' ∧
        size state' < size state)
    (run : Run step start labels finish) (held : holds labels finish) :
    ∃ more last, Run step start (labels ++ more) last ∧ (∀ label ∈ more, allowed label) ∧
      holds (labels ++ more) last ∧ final last := by
  induction bound : size finish using Nat.strong_induction_on generalizing labels finish with
  | h bound' ih =>
      by_cases isFinal : final finish
      · exact ⟨[], finish, by simpa using run, by simp, by simpa using held, isFinal⟩
      · obtain ⟨label, next, taken, may, kept, smaller⟩ := progress labels finish held isFinal
        obtain ⟨more, last, whole, mays, holdsLast, finalLast⟩ :=
          ih (size next) (bound ▸ smaller) (run.snoc taken) kept rfl
        refine ⟨label :: more, last, ?_, List.forall_mem_cons.mpr ⟨may, mays⟩, ?_, finalLast⟩
        · simpa using whole
        · simpa using holdsLast

end Run

/-- Steps labelled with the state they start from as well. -/
def Traced (step : σ → ι → σ → Prop) (before : σ) (label : σ × ι) (after : σ) : Prop :=
  label.1 = before ∧ step before label.2 after

theorem Run.trace {step : σ → ι → σ → Prop} {start middle finish : σ} {trace : List (σ × ι)}
    {label : ι} (run : Run (Traced step) start trace middle) (last : step middle label finish) :
    Run (Traced step) start (trace ++ [(middle, label)]) finish :=
  run.snoc ⟨rfl, last⟩

/-- The run behind a trace. -/
theorem Run.of_traced {step : σ → ι → σ → Prop} {start finish : σ} {trace : List (σ × ι)}
    (run : Run (Traced step) start trace finish) : ∃ labels, Run step start labels finish := by
  induction run with
  | nil => exact ⟨[], .nil⟩
  | snoc _ last before =>
      obtain ⟨labels, run⟩ := before
      exact ⟨_, run.snoc last.2⟩

end RustNostr.Library
