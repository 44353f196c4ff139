import Mathlib
import RustNostr.Library.SortedTable
import RustNostr.Nostr.Event

/-!
# Ordered sets of events

A `BTreeSet<Event>` stands for its events in their order, newest first and then
by ID.
-/

set_option autoImplicit false

namespace RustNostr

open Library

abbrev EventKey := Timestampᵒᵈ ×ₗ EventId

theorem id_of_orderingKey {left right : Event} (same : left.orderingKey = right.orderingKey) :
    left.id = right.id := (Prod.mk.inj (toLex_inj.mp same)).2

namespace EventSet

/-- Collects into a `BTreeSet`. -/
def collect (events : List Event) : SortedTable EventKey Event :=
  events.foldl (fun set event => set.putNew event.orderingKey event) .empty

/-- The order of the set. -/
def Ordered (events : List Event) : Prop :=
  events.Pairwise fun left right => left.orderingKey < right.orderingKey

theorem Ordered.nodup {events : List Event} (ordered : Ordered events) : events.Nodup :=
  ordered.imp fun below equal => absurd below (by simp [equal])

theorem ordered_values {table : SortedTable EventKey Event}
    (keys : ∀ key event, table.get? key = some event → event.orderingKey = key) :
    Ordered table.values := by
  unfold Ordered SortedTable.values
  rw [List.pairwise_map]
  apply table.sorted.imp_of_mem
  rintro ⟨left, left_event⟩ ⟨right, right_event⟩ left_member right_member below
  have left_key := keys _ _ (SortedTable.get?_eq_some.mpr left_member)
  have right_key := keys _ _ (SortedTable.get?_eq_some.mpr right_member)
  simpa only [left_key, right_key] using below

/-- The order leaves one list of the same events. -/
theorem Ordered.eq_of_mem {left right : List Event} (left_ordered : Ordered left)
    (right_ordered : Ordered right) (same : ∀ event, event ∈ left ↔ event ∈ right) :
    left = right := by
  have perm := (List.perm_ext_iff_of_nodup left_ordered.nodup right_ordered.nodup).mpr same
  exact perm.eq_of_pairwise (fun _ _ _ _ below above => absurd below (not_lt.mpr above.le))
    left_ordered right_ordered

/-- Events of different keys are all collected. -/
theorem get?_collect {events : List Event}
    (different : events.Pairwise fun left right => left.orderingKey ≠ right.orderingKey)
    (key : EventKey) (event : Event) :
    (collect events).get? key = some event ↔ event ∈ events ∧ event.orderingKey = key := by
  induction events using List.reverseRecOn generalizing key event with
  | nil => simp [collect]
  | append_singleton events last ih =>
      obtain ⟨earlier, _, apart⟩ := List.pairwise_append.mp different
      have unknown : (collect events).get? last.orderingKey = none := by
        rw [Option.eq_none_iff_forall_ne_some]
        intro other found
        obtain ⟨member, same⟩ := (ih earlier _ _).mp found
        exact apart other member last (List.mem_singleton_self _) same
      have step : collect (events ++ [last]) = (collect events).putNew last.orderingKey last := by
        simp [collect]
      rw [step, SortedTable.get?_putNew, unknown, Option.getD_none]
      split
      next same =>
        subst same
        constructor
        · intro found
          cases found
          exact ⟨by simp, rfl⟩
        · rintro ⟨member, same⟩
          cases List.mem_append.mp member with
          | inl before => exact absurd same (apart event before last (List.mem_singleton_self _))
          | inr here => rw [List.mem_singleton.mp here]
      next different =>
        rw [ih earlier]
        constructor
        · rintro ⟨member, same⟩
          exact ⟨List.mem_append_left _ member, same⟩
        · rintro ⟨member, same⟩
          cases List.mem_append.mp member with
          | inl before => exact ⟨before, same⟩
          | inr here =>
              rw [List.mem_singleton.mp here] at same
              exact absurd same.symm different

theorem ordered_collect {events : List Event}
    (different : events.Pairwise fun left right => left.orderingKey ≠ right.orderingKey) :
    Ordered (collect events).values :=
  ordered_values fun key event found => ((get?_collect different key event).mp found).2

theorem mem_collect {events : List Event}
    (different : events.Pairwise fun left right => left.orderingKey ≠ right.orderingKey)
    (event : Event) : event ∈ (collect events).values ↔ event ∈ events := by
  simp [SortedTable.mem_values, get?_collect different]

theorem values_collect {events : List Event} (ordered : Ordered events) :
    (collect events).values = events := by
  have different := ordered.imp fun below => ne_of_lt below
  exact (ordered_collect different).eq_of_mem ordered (mem_collect different)

end EventSet

end RustNostr
