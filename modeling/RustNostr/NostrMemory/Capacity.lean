import Mathlib
import RustNostr.NostrMemory.Queries

/-!
# The capacity

What each operation leaves in the store: the events it does not take away, an
indexed event among them, as far as they fit.
-/

set_option autoImplicit false

namespace RustNostr.NostrMemory.MemoryStore

open Library EventSet

variable {externals : Externals} {capped : CappedSet EventKey Event} {store : MemoryStore}

/-- As many of the events as fit. -/
def fitting (max : Option ℕ+) (events : List Event) : List Event :=
  takeLimit (max.map PNat.val) events

/-- The operation takes the stored event away: an indexed event replaces or
deletes it, or it is asked to be deleted. -/
def TakesAway (externals : Externals) (store : MemoryStore) (operation : Operation)
    (other : Event) : Prop :=
  match operation with
  | .index event now =>
      event.kind.isEphemeral = false ∧ store.refusal event now = none ∧
        store.Removes externals event other
  | .delete filter => other ∈ store.query filter
  | .clear => True

/-- The operation indexes the event with success. -/
def Accepts (externals : Externals) (capped : CappedSet EventKey Event) (store : MemoryStore)
    (operation : Operation) (event : Event) : Prop :=
  ∃ now, operation = .index event now ∧
    (store.indexEvent externals capped event now).1 = .success

theorem Valid.fitting_values (valid : store.Valid) :
    fitting store.maxEvents store.events.values = store.events.values := by
  cases bounded : store.maxEvents with
  | none => rfl
  | some max =>
      apply List.take_of_length_le
      simpa [SortedTable.values, SortedTable.len] using valid.fits max bounded

/-- The events of the set and the new one, as many as fit, are what is left
after the insertion. -/
theorem Inserted.values {stored : Event → Prop} {event : Event} {store' : MemoryStore}
    (describes : store.Describes stored) (fresh : Fresh stored event)
    (inserted : Inserted store stored event store') :
    store'.events.values =
      fitting store.maxEvents (store.events.put event.orderingKey event).values := by
  have absent := describes.unknown_key fresh
  have count : (store.events.put event.orderingKey event).values.length = store.events.len + 1 := by
    rw [← SortedTable.len_put store.events absent event]
    simp [SortedTable.values, SortedTable.len]
  cases inserted with
  | room room put _ =>
      rw [put]
      cases bounded : store.maxEvents with
      | none => rfl
      | some max =>
          apply (List.take_of_length_le _).symm
          rw [count]
          exact room max bounded
  | @full max dropped bounded filled last left _ =>
      rw [left, bounded]
      unfold SortedTable.values
      rw [SortedTable.entries_delete_last last, SortedTable.len_put _ absent, filled,
        Nat.add_sub_cancel, List.map_take]
      rfl

/-- What the operation leaves of the stored events, with the event that it
accepts. -/
def Leaves (externals : Externals) (capped : CappedSet EventKey Event) (store : MemoryStore)
    (operation : Operation) (other : Event) : Prop :=
  store.Accepts externals capped operation other ∨
    store.Holds other ∧ ¬ store.TakesAway externals operation other

/-- After the operation the store holds what it leaves, newest first and then by
ID, as far as that fits. -/
def HoldsNewest (externals : Externals) (capped : CappedSet EventKey Event) (store : MemoryStore)
    (operation : Operation) : Prop :=
  ∃ left, Ordered left ∧
    (∀ other, other ∈ left ↔ store.Leaves externals capped operation other) ∧
    (store.perform externals capped operation).events.values = fitting store.maxEvents left

theorem Valid.holdsNewest_of_leaves (valid : store.Valid) {operation : Operation}
    (describes : (store.perform externals capped operation).Describes
      (store.Leaves externals capped operation)) :
    store.HoldsNewest externals capped operation := by
  refine ⟨_, describes.ordered_events, describes.mem_events, ?_⟩
  rw [← @perform_maxEvents externals capped store operation]
  exact (valid.perform operation).fitting_values.symm

theorem not_accepts_delete {filter : Filter} {event : Event} :
    ¬ store.Accepts externals capped (.delete filter) event := by
  rintro ⟨_, same, _⟩
  cases same

theorem not_accepts_clear {event : Event} : ¬ store.Accepts externals capped .clear event := by
  rintro ⟨_, same, _⟩
  cases same

theorem accepts_index {event other : Event} {now : Timestamp} :
    store.Accepts externals capped (.index event now) other ↔
      other = event ∧ (store.indexEvent externals capped event now).1 = .success := by
  constructor
  · rintro ⟨_, same, success⟩
    cases same
    exact ⟨rfl, success⟩
  · rintro ⟨rfl, success⟩
    exact ⟨now, rfl, success⟩

theorem Valid.indexEvent_holdsNewest (valid : store.Valid) (event : Event) (now : Timestamp) :
    store.HoldsNewest externals capped (.index event now) := by
  have outcome := indexEvent_outcome store externals capped event now
  generalize answer : store.indexEvent externals capped event now = result at outcome
  have performed : store.perform externals capped (.index event now) = result.2 := by
    rw [MemoryStore.perform, answer]
  have accepts : ∀ other, store.Accepts externals capped (.index event now) other ↔
      other = event ∧ result.1 = .success := by
    intro other
    rw [accepts_index, answer]
  cases outcome with
  | refused refused =>
      apply valid.holdsNewest_of_leaves
      rw [performed]
      apply valid.describes.congr
      intro other
      have untouched : ¬ store.TakesAway externals (.index event now) other := by
        rintro ⟨lasting, unrefused, _⟩
        cases refused with
        | inl ephemeral =>
            rw [ephemeral] at lasting
            cases lasting
        | inr refusal =>
            rw [refusal] at unrefused
            cases unrefused
      simp [Leaves, accepts, untouched]
  | rejected lasting unrefused rejected =>
      apply valid.holdsNewest_of_leaves
      rw [performed]
      apply (valid.kept_describes externals unrefused).congr
      intro other
      simp [Leaves, accepts, TakesAway, lasting, unrefused]
  | accepted lasting unrefused accepted =>
      have describes := valid.kept_describes externals unrefused
      have fresh := valid.fresh unrefused accepted
      have kept := valid.kept externals unrefused
      have inserted := describes.insertEvent capped fresh kept.fits
      have left := describes.events_put fresh
      refine ⟨_, ordered_values fun key other found => ((left key other).mp found).2, ?_, ?_⟩
      · intro other
        simp only [SortedTable.mem_values, left, exists_and_left, exists_eq', and_true, withEvent,
          Leaves, accepts, TakesAway, lasting, unrefused, true_and]
      · rw [performed, inserted.values describes fresh, kept_maxEvents unrefused]

theorem Valid.perform_holdsNewest (valid : store.Valid) (operation : Operation) :
    store.HoldsNewest externals capped operation := by
  cases operation with
  | index event now => exact valid.indexEvent_holdsNewest event now
  | delete filter =>
      apply valid.holdsNewest_of_leaves
      apply (valid.describes.delete filter).congr
      intro other
      simp only [Leaves, not_accepts_delete, false_or, TakesAway]
  | clear =>
      apply valid.holdsNewest_of_leaves
      apply (Valid.clear store).describes.congr
      intro other
      simp [Leaves, not_accepts_clear, TakesAway, MemoryStore.clear, Holds]

theorem Valid.eventById_iff (valid : store.Valid) (event : Event) :
    store.eventById event.id = some event ↔ event ∈ store.events.values := by
  rw [eventById, valid.describes.ids, valid.describes.mem_events]
  exact and_iff_left rfl

/-- In every reachable state each operation leaves the newest of the events that
it does not take away, as many as fit; an event indexed with success is found by
its ID if it is one of these. -/
theorem run_holdsNewest (externals : Externals) (capped : CappedSet EventKey Event)
    (maxEvents : Option ℕ+) (options : MemoryOptions) (operations : List Operation)
    (operation : Operation) :
    let store := run externals capped maxEvents options operations
    let store' := store.perform externals capped operation
    ∃ left, Ordered left ∧
      (∀ other, other ∈ left ↔ store.Leaves externals capped operation other) ∧
      store'.events.values = fitting maxEvents left ∧
      ∀ event, store.Accepts externals capped operation event →
        event ∈ fitting maxEvents left → store'.eventById event.id = some event := by
  intro store store'
  have valid : store.Valid := run_valid maxEvents options operations
  have valid' : store'.Valid := valid.perform operation
  obtain ⟨left, ordered, members, values⟩ := valid.perform_holdsNewest operation
  have bound : store.maxEvents = maxEvents := run_maxEvents maxEvents options operations
  rw [bound] at values
  refine ⟨left, ordered, members, values, fun event _ fits => ?_⟩
  rw [valid'.eventById_iff, values]
  exact fits

open NostrLmdb.Lmdb (sampleExternals sampleEvent)

/-- A store with room for one event. -/
def sampleFullStore : MemoryStore :=
  run sampleExternals .popLast (some 1) {} [.index (sampleEvent 1 20 (.custom 1) []) 0]

/-- An event older than all that fit is accepted and not found afterwards. -/
theorem sampleFullStore_loses :
    let event := sampleEvent 2 10 (.custom 1) []
    let result := sampleFullStore.indexEvent sampleExternals .popLast event 0
    result.1 = .success ∧ result.2.eventById event.id = none := by
  decide +kernel

end RustNostr.NostrMemory.MemoryStore
