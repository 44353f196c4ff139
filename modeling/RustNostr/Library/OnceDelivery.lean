import Mathlib

/-!
# Delivering each thing once

Several hands deliver to one place and share the set of what is known. A hand takes only
what is unknown, and holds at most one thing at a time, so nothing is delivered twice and
everything known is delivered or held.
-/

set_option autoImplicit false

namespace RustNostr.Library

variable {κ α : Type}

/-- Everything known has been delivered once or is held by one hand. -/
structure DeliveredOnce (known : Finset α) (held : κ → Option α) (delivered : List α) : Prop where
  nodup : delivered.Nodup
  known_iff : ∀ thing, thing ∈ known ↔ thing ∈ delivered ∨ ∃ hand, held hand = some thing
  undelivered : ∀ hand thing, held hand = some thing → thing ∉ delivered
  single : ∀ hand other thing, held hand = some thing → held other = some thing → hand = other

namespace DeliveredOnce

variable {known : Finset α} {held : κ → Option α} {delivered : List α}

theorem empty : DeliveredOnce (∅ : Finset α) (fun _ : κ => none) [] where
  nodup := List.nodup_nil
  known_iff thing := by simp
  undelivered _ _ holds := by cases holds
  single _ _ _ holds := by cases holds

variable [DecidableEq κ]

/-- A free hand takes what is unknown. -/
theorem take [DecidableEq α] (once : DeliveredOnce known held delivered) {hand : κ} {thing : α}
    (unknown : thing ∉ known) (free : held hand = none) :
    DeliveredOnce (insert thing known) (Function.update held hand (some thing)) delivered := by
  have unheld (other : κ) : held other ≠ some thing :=
    fun holds => unknown ((once.known_iff thing).mpr (.inr ⟨other, holds⟩))
  have updated {other : κ} {given : α} : Function.update held hand (some thing) other = some given ↔
      other = hand ∧ given = thing ∨ held other = some given := by
    by_cases same : other = hand
    · rw [same, Function.update_self, free]
      simp [eq_comm]
    · rw [Function.update_of_ne same]
      simp [same]
  refine ⟨once.nodup, fun given => ?_, fun other given holds => ?_, fun first second given one two => ?_⟩
  · simp only [Finset.mem_insert, once.known_iff, updated]
    constructor
    · intro present
      cases present with
      | inl same => exact .inr ⟨hand, .inl ⟨rfl, same⟩⟩
      | inr before =>
          cases before with
          | inl member => exact .inl member
          | inr holds =>
              obtain ⟨other, holds⟩ := holds
              exact .inr ⟨other, .inr holds⟩
    · intro present
      cases present with
      | inl member => exact .inr (.inl member)
      | inr holds =>
          obtain ⟨other, holds⟩ := holds
          cases holds with
          | inl new => exact .inl new.2
          | inr before => exact .inr (.inr ⟨other, before⟩)
  · cases updated.mp holds with
    | inl new =>
        rw [new.2]
        exact fun member => unknown ((once.known_iff thing).mpr (.inl member))
    | inr before => exact once.undelivered other given before
  · cases updated.mp one with
    | inl new =>
        cases updated.mp two with
        | inl also => rw [new.1, also.1]
        | inr before => exact absurd (new.2 ▸ before) (unheld second)
    | inr before =>
        cases updated.mp two with
        | inl new => exact absurd (new.2 ▸ before) (unheld first)
        | inr also => exact once.single first second given before also

/-- A hand delivers what it holds. -/
theorem pass (once : DeliveredOnce known held delivered) (hand : κ) :
    DeliveredOnce known (Function.update held hand none) (delivered ++ (held hand).toList) := by
  cases holds : held hand with
  | none =>
      rw [← holds, Function.update_eq_self, holds, Option.toList_none, List.append_nil]
      exact once
  | some thing =>
      have updated {other : κ} {given : α} : Function.update held hand none other = some given ↔
          other ≠ hand ∧ held other = some given := by
        by_cases same : other = hand
        · rw [same, Function.update_self]
          simp
        · rw [Function.update_of_ne same]
          simp [same]
      refine ⟨?_, fun given => ?_, fun other given held' => ?_, fun first second given one two => ?_⟩
      · exact List.nodup_append'.mpr ⟨once.nodup, List.nodup_singleton thing,
          List.disjoint_singleton.mpr (once.undelivered hand thing holds)⟩
      · rw [once.known_iff, Option.toList_some, List.mem_append, List.mem_singleton]
        simp only [updated]
        constructor
        · intro present
          cases present with
          | inl member => exact .inl (.inl member)
          | inr anywhere =>
              obtain ⟨other, held'⟩ := anywhere
              by_cases same : other = hand
              · rw [same, holds] at held'
                cases held'
                exact .inl (.inr rfl)
              · exact .inr ⟨other, same, held'⟩
        · intro present
          cases present with
          | inl member =>
              cases member with
              | inl before => exact .inl before
              | inr same => exact .inr ⟨hand, same ▸ holds⟩
          | inr anywhere =>
              obtain ⟨other, _, held'⟩ := anywhere
              exact .inr ⟨other, held'⟩
      · obtain ⟨different, held'⟩ := updated.mp held'
        rw [Option.toList_some, List.mem_append, List.mem_singleton]
        intro present
        cases present with
        | inl before => exact once.undelivered other given held' before
        | inr same => exact different (once.single other hand thing (same ▸ held') holds)
      · exact once.single first second given (updated.mp one).2 (updated.mp two).2

end DeliveredOnce

end RustNostr.Library
