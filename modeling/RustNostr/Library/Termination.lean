import Mathlib
import RustNostr.Library.Run

/-! Runs whose steps all make the state smaller, and sums over lists of which one member
changes. -/

set_option autoImplicit false

namespace RustNostr.Library

section Runs

variable {σ ι : Type} {step : σ → ι → σ → Prop} {start finish : σ} {labels : List ι}

/-- A run takes no more steps than the size of the state that it starts from. -/
theorem Run.length_le_size (holds : σ → Prop) (size : σ → Nat)
    (smaller : ∀ state label state', holds state → step state label state' →
      holds state' ∧ size state' < size state)
    (run : Run step start labels finish) (held : holds start) :
    holds finish ∧ labels.length + size finish ≤ size start := by
  induction run with
  | nil => exact ⟨held, by simp⟩
  | snoc _ last before =>
      obtain ⟨kept, bound⟩ := before
      obtain ⟨keeps, less⟩ := smaller _ _ _ kept last
      refine ⟨keeps, ?_⟩
      rw [List.length_append, List.length_singleton]
      omega

/-- A run goes on from where another ends. -/
theorem Run.append {middle : σ} {later : List ι} (run : Run step start labels middle)
    (rest : Run step middle later finish) : Run step start (labels ++ later) finish := by
  induction rest with
  | nil => simpa using run
  | snoc _ last before =>
      rw [← List.append_assoc]
      exact before.snoc last

end Runs

section Sums

variable {α : Type} (weight : α → Nat) {values : List α} {position : Nat} {old : α}

theorem sum_set_add (here : values[position]? = some old) (new : α) :
    ((values.set position new).map weight).sum + weight old = (values.map weight).sum + weight new := by
  induction values generalizing position with
  | nil => simp at here
  | cons value rest ih =>
      cases position with
      | zero =>
          cases here
          simp only [List.set_cons_zero, List.map_cons, List.sum_cons]
          omega
      | succ position =>
          have later := ih here
          simp only [List.set_cons_succ, List.map_cons, List.sum_cons]
          omega

theorem sum_le_of_forall (values : List α) {bound : Nat} (each : ∀ value ∈ values, weight value ≤ bound) :
    (values.map weight).sum ≤ values.length * bound := by
  simpa using List.sum_le_card_nsmul (values.map weight) bound (by simpa using each)

end Sums

/-- The first of some numbers where something holds is the first of all, or comes later. -/
theorem exists_first_succ (ends goesOn : Nat → Prop) {turns start : Nat} :
    (∃ count < turns + 1, ends (start + count) ∧ ∀ earlier < count, goesOn (start + earlier)) ↔
      ends start ∨ goesOn start ∧
        ∃ count < turns, ends (start + 1 + count) ∧ ∀ earlier < count, goesOn (start + 1 + earlier) := by
  have shift : ∀ count, start + 1 + count = start + (count + 1) := fun count => by omega
  simp only [shift]
  constructor
  · rintro ⟨count, inside, here, before⟩
    cases count with
    | zero => exact .inl here
    | succ count =>
        refine .inr ⟨before 0 (Nat.succ_pos _), count, by omega, here, fun earlier below => ?_⟩
        exact before (earlier + 1) (by omega)
  · rintro (here | ⟨first, count, inside, here, before⟩)
    · exact ⟨0, Nat.succ_pos _, here, fun _ below => absurd below (Nat.not_lt_zero _)⟩
    · refine ⟨count + 1, by omega, here, fun earlier below => ?_⟩
      cases earlier with
      | zero => exact first
      | succ earlier => exact before earlier (by omega)

end RustNostr.Library
