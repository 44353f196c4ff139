import Mathlib
import RustNostr.NostrMemory.Indexing

/-!
# Runs of the in-memory store

Every sequence of indexed events, filter deletions and clears, from a new store.
-/

set_option autoImplicit false

namespace RustNostr.NostrMemory

open Library

/-- An operation on the store, with the clock's time where the store reads it. -/
inductive Operation where
  | index (event : Event) (now : Timestamp)
  | delete (filter : Filter)
  | clear

namespace MemoryStore

variable (externals : Externals) (capped : CappedSet EventKey Event)

def perform (store : MemoryStore) : Operation → MemoryStore
  | .index event now => (store.indexEvent externals capped event now).2
  | .delete filter => store.delete filter
  | .clear => store.clear

def run (maxEvents : Option ℕ+) (options : MemoryOptions) (operations : List Operation) :
    MemoryStore :=
  operations.foldl (perform externals capped) (new maxEvents options)

variable {externals : Externals} {capped : CappedSet EventKey Event} {store : MemoryStore}

theorem Valid.clear (store : MemoryStore) : store.clear.Valid :=
  .new store.maxEvents store.options

theorem Valid.delete (valid : store.Valid) (filter : Filter) : (store.delete filter).Valid := by
  cases nonempty : filterIsEmpty filter with
  | true =>
      have everything : store.delete filter = store.clear := by
        simp only [MemoryStore.delete, internalQuery, nonempty, if_true]
      rw [everything]
      exact .clear store
  | false =>
      have describes := valid.describes.delete filter
      have marks := sameMarks_delete store nonempty
      refine ⟨describes.toHolds, fun other held => ?_, fun max bounded => ?_⟩
      · rw [marks.isDeleted]
        exact valid.undeleted other ((describes.holds_iff other).mp held).1
      · rw [marks.maxEvents] at bounded
        apply le_trans (SortedTable.len_le_of_get? ?_) (valid.fits max bounded)
        intro key other found
        obtain ⟨⟨held, _⟩, same⟩ := (describes.events key other).mp found
        exact (valid.describes.events key other).mpr ⟨held, same⟩

theorem Valid.perform (valid : store.Valid) (operation : Operation) :
    (store.perform externals capped operation).Valid := by
  cases operation with
  | index event now => exact valid.indexEvent externals capped event now
  | delete filter => exact valid.delete filter
  | clear => exact .clear store

theorem kept_maxEvents {event : Event} {now : Timestamp}
    (unrefused : store.refusal event now = none) :
    (store.kept externals event).maxEvents = store.maxEvents :=
  (sameMarks_kept externals unrefused).maxEvents.trans marked_maxEvents

theorem indexEvent_maxEvents (store : MemoryStore) (event : Event) (now : Timestamp) :
    (store.indexEvent externals capped event now).2.maxEvents = store.maxEvents := by
  have outcome := indexEvent_outcome store externals capped event now
  generalize store.indexEvent externals capped event now = result at outcome ⊢
  cases outcome with
  | refused => exact .refl _
  | rejected _ unrefused _ => exact kept_maxEvents unrefused
  | accepted _ unrefused _ =>
      exact (sameMarks_insertEvent _ capped event).maxEvents.trans (kept_maxEvents unrefused)

theorem delete_maxEvents (store : MemoryStore) (filter : Filter) :
    (store.delete filter).maxEvents = store.maxEvents := by
  unfold MemoryStore.delete
  split
  · exact .refl _
  · exact (sameMarks_discardEvents store _).maxEvents

theorem perform_maxEvents (store : MemoryStore) (operation : Operation) :
    (store.perform externals capped operation).maxEvents = store.maxEvents := by
  cases operation with
  | index event now => exact indexEvent_maxEvents store event now
  | delete filter => exact delete_maxEvents store filter
  | clear => exact .refl _

theorem foldl_perform (valid : store.Valid) (operations : List Operation) :
    (operations.foldl (perform externals capped) store).Valid ∧
      (operations.foldl (perform externals capped) store).maxEvents = store.maxEvents := by
  induction operations generalizing store with
  | nil => exact ⟨valid, .refl _⟩
  | cons operation operations ih =>
      obtain ⟨valid', same⟩ := ih (valid.perform operation)
      exact ⟨valid', same.trans (perform_maxEvents store operation)⟩

theorem run_valid (maxEvents : Option ℕ+) (options : MemoryOptions)
    (operations : List Operation) : (run externals capped maxEvents options operations).Valid :=
  (foldl_perform (.new maxEvents options) operations).1

theorem run_maxEvents (maxEvents : Option ℕ+) (options : MemoryOptions)
    (operations : List Operation) :
    (run externals capped maxEvents options operations).maxEvents = maxEvents :=
  (foldl_perform (.new maxEvents options) operations).2

/-- In every reachable state the five structures describe the same events, of
which there are not more than the capacity. -/
theorem run_describes (externals : Externals) (capped : CappedSet EventKey Event)
    (maxEvents : Option ℕ+) (options : MemoryOptions) (operations : List Operation) :
    (∃ stored, (run externals capped maxEvents options operations).Describes stored) ∧
      ∀ max, maxEvents = some max →
        (run externals capped maxEvents options operations).events.len ≤ max := by
  have valid := @run_valid externals capped maxEvents options operations
  refine ⟨⟨_, valid.describes⟩, fun max bounded => valid.fits max ?_⟩
  rw [run_maxEvents, bounded]

end MemoryStore

end RustNostr.NostrMemory
