import Mathlib
import RustNostr.NostrMemory.Queries

/-!
# Rejected events

A rejected event leaves the store as it was unless it has removed something, or
dated a deleted coordinate, before it was found to be invalid.
-/

set_option autoImplicit false

namespace RustNostr.NostrMemory.MemoryStore

open Library

variable {externals : Externals} {store : MemoryStore} {event : Event}

/-! ## The times of deleted coordinates -/

/-- The coordinate is marked as deleted at this time or later. -/
def Dated (times : SortedTable Address Timestamp) (coordinate : Coordinate) (time : Timestamp) :
    Prop :=
  ∃ known, times.get? (coordinateKey coordinate) = some known ∧ time ≤ known

def markTime (time : Timestamp) (coordinate : Coordinate)
    (times : SortedTable Address Timestamp) : SortedTable Address Timestamp :=
  markTimes time [coordinate] times

theorem markTimes_cons (time : Timestamp) (coordinate : Coordinate) (rest : List Coordinate)
    (times : SortedTable Address Timestamp) :
    markTimes time (coordinate :: rest) times =
      markTimes time rest (markTime time coordinate times) := rfl

theorem dated_markTime (time : Timestamp) (coordinate : Coordinate)
    (times : SortedTable Address Timestamp) : Dated (markTime time coordinate times) coordinate time := by
  unfold Dated markTime markTimes
  simp only [List.foldl_cons, List.foldl_nil, SortedTable.get?_put, if_true, Option.some.injEq,
    exists_eq_left']
  split
  next known _ =>
    split
    next => exact le_rfl
    next later => exact not_lt.mp later
  next => exact le_rfl

theorem Dated.markTime {times : SortedTable Address Timestamp} {coordinate : Coordinate}
    {time : Timestamp} (dated : Dated times coordinate time) (other : Coordinate)
    (time' : Timestamp) : Dated (markTime time' other times) coordinate time := by
  obtain ⟨known, found, later⟩ := dated
  unfold Dated MemoryStore.markTime markTimes
  simp only [List.foldl_cons, List.foldl_nil, SortedTable.get?_put]
  split
  next same =>
    rw [← same, found]
    dsimp only
    split
    next newer => exact ⟨time', rfl, later.trans newer.le⟩
    next => exact ⟨known, rfl, later⟩
  next => exact ⟨known, found, later⟩

theorem Dated.markTimes {times : SortedTable Address Timestamp} {coordinate : Coordinate}
    {time : Timestamp} (dated : Dated times coordinate time) (coordinates : List Coordinate)
    (time' : Timestamp) : Dated (markTimes time' coordinates times) coordinate time := by
  induction coordinates generalizing times with
  | nil => exact dated
  | cons head rest ih =>
      rw [markTimes_cons]
      exact ih (dated.markTime head time')

theorem dated_markTimes {time : Timestamp} {coordinates : List Coordinate}
    {coordinate : Coordinate} (member : coordinate ∈ coordinates)
    (times : SortedTable Address Timestamp) :
    Dated (markTimes time coordinates times) coordinate time := by
  induction coordinates generalizing times with
  | nil => cases member
  | cons head rest ih =>
      rw [markTimes_cons]
      cases List.mem_cons.mp member with
      | inl here =>
          rw [here]
          exact (dated_markTime time head times).markTimes rest time
      | inr there => exact ih there _

/-- Marking coordinates that were deleted no earlier changes nothing. -/
theorem markTimes_of_dated {times : SortedTable Address Timestamp} {coordinates : List Coordinate}
    {time : Timestamp} (dated : ∀ coordinate ∈ coordinates, Dated times coordinate time) :
    markTimes time coordinates times = times := by
  induction coordinates with
  | nil => rfl
  | cons head rest ih =>
      obtain ⟨known, found, later⟩ := dated head List.mem_cons_self
      have same : markTime time head times = times := by
        unfold markTime markTimes
        simp only [List.foldl_cons, List.foldl_nil, found, if_neg (not_lt.mpr later)]
        exact SortedTable.put_same found
      rw [markTimes_cons, same]
      exact ih fun coordinate member => dated coordinate (List.mem_cons_of_mem _ member)

/-! ## What a rejected event leaves behind -/

/-- The event is rejected before anything is done. -/
def TurnedAway (store : MemoryStore) (event : Event) (now : Timestamp) : Prop :=
  event.kind.isEphemeral = true ∨ store.refusal event now ≠ none

/-- The event removes no stored event, and the coordinates that it names before
a foreign one were deleted no earlier. -/
structure Traceless (externals : Externals) (store : MemoryStore) (event : Event) : Prop where
  removes : ∀ other, store.Holds other → ¬ store.Removes externals event other
  dated : store.isDeletionRequest event = true →
    ∀ coordinate ∈ ownCoordinates event (Tags.coordinates externals event.tags),
      Dated store.deletedCoordinates coordinate event.createdAt

/-- The IDs that are to be discarded belong to stored events that the event
removes. -/
def Justified (externals : Externals) (store : MemoryStore) (event : Event)
    (ids : List EventId) : Prop :=
  ∀ id ∈ ids, ∃ other, store.Holds other ∧ other.id = id ∧ store.Removes externals event other

theorem Justified.nil_of_traceless {ids : List EventId}
    (justified : Justified externals store event ids) (traceless : Traceless externals store event) :
    ids = [] := by
  rw [List.eq_nil_iff_forall_not_mem]
  intro id member
  obtain ⟨other, held, _, removed⟩ := justified id member
  exact traceless.removes other held removed

theorem justified_replace {found : List Event}
    (removes : ∀ other ∈ found, store.Holds other ∧
      (wins event other = false → store.Removes externals event other)) :
    Justified externals store event (store.replace event found).toDiscard := by
  intro id member
  obtain ⟨other, there, same⟩ := List.mem_map.mp member
  obtain ⟨there, loses⟩ := List.mem_filter.mp there
  obtain ⟨held, removed⟩ := removes other there
  exact ⟨other, held, same, removed (by simpa [wins] using loses)⟩

theorem Valid.justified_deletion (valid : store.Valid)
    (request : store.isDeletionRequest event = true) :
    Justified externals store event (store.prepare externals event).toDiscard := by
  rw [prepare_deletion request, checkEventIds_eq, checkCoordinates_eq]
  simp only [List.nil_append]
  intro id member
  cases List.mem_append.mp member with
  | inl erased =>
      obtain ⟨_, target, held, same, _⟩ := (valid.describes.mem_erasedIds event _ id).mp erased
      exact ⟨target, held, same, (removes_deletion request target).mpr (.inl (same ▸ erased))⟩
  | inr reached =>
      obtain ⟨coordinate, own, reached⟩ := List.mem_flatMap.mp reached
      obtain ⟨other, found, same⟩ := List.mem_map.mp reached
      obtain ⟨held, finds, _, older⟩ :=
        ((valid.describes.markIds _).mem_queryCoordinate _ _ _).mp found
      exact ⟨other, held, same,
        (removes_deletion request other).mpr (.inr ⟨coordinate, own, finds, older⟩)⟩

theorem not_rejected_of_plain {reason : RejectedReason}
    (regular : event.kind.isReplaceable = false) (regular' : event.kind.isAddressable = false)
    (plain : store.isDeletionRequest event = false) :
    (store.prepare externals event).status ≠ .rejected reason := by
  cases vanish : store.isVanishRequest externals event with
  | true => simp [prepare_vanish regular regular' plain vanish]
  | false => simp [prepare_plain regular regular' plain vanish]

theorem marked_of_replaceable (replaceable : event.kind.isReplaceable = true) :
    store.marked externals event = store := by
  simp only [marked, not_request (Kind.not_special_of_isReplaceable replaceable).1, replaceable,
    Bool.not_true, Bool.false_and, Bool.false_eq_true, if_false]

theorem marked_of_addressable (addressable : event.kind.isAddressable = true) :
    store.marked externals event = store := by
  simp only [marked, not_request (Kind.not_special_of_isAddressable addressable).1, addressable,
    Bool.not_true, Bool.and_false, Bool.false_and, Bool.false_eq_true, if_false]

/-- A rejected event has made its marks and found stored events to remove. -/
theorem Valid.prepare_rejected (valid : store.Valid) {now : Timestamp} {reason : RejectedReason}
    (unrefused : store.refusal event now = none)
    (rejected : (store.prepare externals event).status = .rejected reason) :
    (store.prepare externals event).store = store.marked externals event ∧
      Justified externals store event (store.prepare externals event).toDiscard := by
  cases replaceable : event.kind.isReplaceable with
  | true =>
      rw [marked_of_replaceable replaceable, prepare_replaceable replaceable]
      refine ⟨rfl, justified_replace fun other member => ?_⟩
      obtain ⟨held, same⟩ := (valid.mem_versions event other).mp member
      refine ⟨held, fun loses => ?_⟩
      simp only [Removes, replaceable, if_true]
      exact ⟨same, loses⟩
  | false =>
      cases addressable : event.kind.isAddressable with
      | true =>
          rw [marked_of_addressable addressable]
          cases named : Tags.identifier event.tags with
          | none =>
              rw [prepare_unnamed addressable named]
              exact ⟨rfl, fun id member => by cases member⟩
          | some identifier =>
              rw [prepare_addressable unrefused addressable named]
              refine ⟨rfl, justified_replace fun other member => ?_⟩
              obtain ⟨held, same⟩ := (valid.mem_versions_address addressable named other).mp member
              refine ⟨held, fun loses => ?_⟩
              simp only [Removes, replaceable, addressable, Bool.false_eq_true, if_false, if_true]
              exact ⟨same, loses⟩
      | false =>
          cases request : store.isDeletionRequest event with
          | true =>
              refine ⟨?_, valid.justified_deletion request⟩
              rw [prepare_deletion request, checkEventIds_eq, checkCoordinates_eq, marked,
                if_pos request]
          | false => exact absurd rejected (not_rejected_of_plain replaceable addressable request)

theorem Traceless.marked (traceless : Traceless externals store event) (valid : store.Valid)
    (request : store.isDeletionRequest event = true) :
    store.marked externals event = store := by
  have erased : store.erasedIds event (Tags.eventIds externals event.tags) = [] := by
    rw [List.eq_nil_iff_forall_not_mem]
    intro id member
    obtain ⟨_, target, held, same, _⟩ := (valid.describes.mem_erasedIds event _ id).mp member
    exact traceless.removes target held
      ((removes_deletion request target).mpr (.inl (same ▸ member)))
  have unmarked : store.markIds [] = store := rfl
  rw [MemoryStore.marked, if_pos request, erased, unmarked, markCoordinates,
    markTimes_of_dated (traceless.dated request)]

theorem Valid.marked_eq (valid : store.Valid) (traceless : Traceless externals store event)
    {reason : RejectedReason}
    (rejected : (store.prepare externals event).status = .rejected reason) :
    store.marked externals event = store := by
  cases request : store.isDeletionRequest event with
  | true => exact traceless.marked valid request
  | false =>
      cases replaceable : event.kind.isReplaceable with
      | true => exact marked_of_replaceable replaceable
      | false =>
          cases addressable : event.kind.isAddressable with
          | true => exact marked_of_addressable addressable
          | false => exact absurd rejected (not_rejected_of_plain replaceable addressable request)

theorem Valid.kept_eq_iff (valid : store.Valid) {now : Timestamp} {reason : RejectedReason}
    (unrefused : store.refusal event now = none)
    (rejected : (store.prepare externals event).status = .rejected reason) :
    store.kept externals event = store ↔ Traceless externals store event := by
  constructor
  · intro same
    constructor
    · intro other held removed
      have describes := valid.kept_describes externals unrefused
      have held' : (store.kept externals event).Holds other := by rw [same]; exact held
      exact ((describes.holds_iff other).mp held').2 removed
    · intro request coordinate member
      have marks := (sameMarks_kept externals unrefused).deletedCoordinates
      rw [same, marked, if_pos request] at marks
      rw [marks]
      exact dated_markTimes member store.deletedCoordinates
  · intro traceless
    obtain ⟨marks, justified⟩ := valid.prepare_rejected unrefused rejected
    simp only [MemoryStore.kept, justified.nil_of_traceless traceless, discardEvents_nil, marks]
    exact valid.marked_eq traceless rejected

theorem Valid.rejected_eq_iff (valid : store.Valid) {capped : CappedSet EventKey Event}
    {now : Timestamp} {reason : RejectedReason}
    (rejected : (store.indexEvent externals capped event now).1 = .rejected reason) :
    (store.indexEvent externals capped event now).2 = store ↔
      store.TurnedAway event now ∨ Traceless externals store event := by
  have outcome := indexEvent_outcome store externals capped event now
  generalize store.indexEvent externals capped event now = result at outcome rejected
  cases outcome with
  | refused refused =>
      have away : store.TurnedAway event now := by
        cases refused with
        | inl ephemeral => exact .inl ephemeral
        | inr refusal => exact .inr (by rw [refusal]; exact Option.some_ne_none _)
      simp only [away, true_or]
  | rejected lasting unrefused status =>
      have stays : ¬ store.TurnedAway event now := by
        rintro (ephemeral | refusal)
        · rw [ephemeral] at lasting
          cases lasting
        · exact refusal unrefused
      simp only [stays, false_or]
      exact valid.kept_eq_iff unrefused status
  | accepted => cases rejected

/-- In every reachable state a rejected event leaves the store as it was if and
only if it is turned away at once, or has nothing to remove and no coordinate to
date before it is found to be invalid. -/
theorem run_rejected_iff (externals : Externals) (capped : CappedSet EventKey Event)
    (maxEvents : Option ℕ+) (options : MemoryOptions) (operations : List Operation)
    (event : Event) (now : Timestamp) (reason : RejectedReason)
    (rejected : ((run externals capped maxEvents options operations).indexEvent externals capped
      event now).1 = .rejected reason) :
    let store := run externals capped maxEvents options operations
    (store.indexEvent externals capped event now).2 = store ↔
      store.TurnedAway event now ∨ Traceless externals store event :=
  (run_valid maxEvents options operations).rejected_eq_iff rejected

/-! ## A deletion request that names a foreign event last -/

open NostrLmdb.Lmdb (hexId sampleEvent sampleTag)

def sampleForeign : Event := { sampleEvent 2 10 (.custom 1) [] with pubkey := .replicate 32 9 }

/-- A store with an event of the sample author and one of another author. -/
def sampleStore : MemoryStore :=
  run hexExternals .popLast none { processNip09 := true }
    [.index (sampleEvent 1 10 (.custom 1) []) 0, .index sampleForeign 0]

def sampleRequest : Event :=
  sampleEvent 3 20 .eventDeletion [sampleTag "e" (hexId 1), sampleTag "e" (hexId 2)]

theorem run_rejected_iff_request :
    ((sampleStore.indexEvent hexExternals .popLast sampleRequest 0).2 = sampleStore ↔
      sampleStore.TurnedAway sampleRequest 0 ∨ Traceless hexExternals sampleStore sampleRequest) :=
  run_rejected_iff hexExternals .popLast none { processNip09 := true }
    [.index (sampleEvent 1 10 (.custom 1) []) 0, .index sampleForeign 0] sampleRequest 0
    .invalidDelete (by decide +kernel)

/-- The request is rejected, and the event it named first is gone. -/
theorem sampleStore_loses :
    let result := sampleStore.indexEvent hexExternals .popLast sampleRequest 0
    result.1 = .rejected .invalidDelete ∧ result.2 ≠ sampleStore := by
  refine ⟨by decide +kernel, fun same => ?_⟩
  have gone : (sampleStore.indexEvent hexExternals .popLast sampleRequest 0).2.eventById
      (.replicate 32 1) = none := by decide +kernel
  have there : (sampleStore.eventById (.replicate 32 1)).isSome = true := by decide +kernel
  rw [same] at gone
  rw [gone] at there
  cases there

end RustNostr.NostrMemory.MemoryStore
