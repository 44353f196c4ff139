import Mathlib
import RustNostr.Library.Run
import RustNostr.NostrSdk.Relay.Sync

/-!
# The accounting of a sync

Where an id of the summary's `local` can be: still to upload, in flight, sent or
failed, and never in two places at once. An id leaves these places only where
the database gives no event for it, which the sync tells nobody.
-/

set_option autoImplicit false

namespace RustNostr.NostrSdk

open Library

/-- How often something holds: once or not at all. -/
def once (fact : Prop) [Decidable fact] : Nat := if fact then 1 else 0

theorem once_le_one (fact : Prop) [Decidable fact] : once fact ≤ 1 := by
  unfold once
  split <;> omega

/-! ## Learning ids -/

namespace Learned

variable {wanted : Bool} {before middle after : Learned}

/-- What is queued is what was not seen before. -/
structure Grew (wanted : Bool) (before after : Learned) : Prop where
  seen : before.seen ⊆ after.seen
  counter : after.queue.length + before.counter = before.queue.length + after.counter
  count : ∀ id, after.queue.count id + once (wanted = true ∧ id ∈ before.seen) =
    before.queue.count id + once (wanted = true ∧ id ∈ after.seen)

theorem Grew.refl : Grew wanted before before := ⟨Finset.Subset.refl _, rfl, fun _ => rfl⟩

theorem Grew.trans (first : Grew wanted before middle) (second : Grew wanted middle after) :
    Grew wanted before after := by
  refine ⟨first.seen.trans second.seen, ?_, fun id => ?_⟩
  · have left := first.counter
    have right := second.counter
    omega
  · have left := first.count id
    have right := second.count id
    omega

theorem grew_learn (learned : Learned) (id : EventId) :
    Grew wanted learned (learned.learn wanted id) := by
  unfold learn
  by_cases seen : id ∈ learned.seen
  · rw [if_pos seen]
    exact .refl
  · rw [if_neg seen]
    cases wanted with
    | false => exact ⟨Finset.subset_insert _ _, rfl, fun _ => by simp [once]⟩
    | true =>
        refine ⟨Finset.subset_insert _ _, by simp; omega, fun other => ?_⟩
        by_cases same : other = id
        · subst same
          simp [once, seen]
        · simp [once, same, List.count_cons_of_ne (Ne.symm same)]

theorem grew_foldl (ids : List EventId) (learned : Learned) :
    Grew wanted learned (ids.foldl (learn wanted) learned) := by
  induction ids generalizing learned with
  | nil => exact .refl
  | cons id ids ih => exact (grew_learn learned id).trans (ih _)

end Learned

namespace SyncState

/-! ## Uploading -/

section Uploading

variable {surroundings : SyncSurroundings}

/-- The database has an event for every id that the upload loop reaches. -/
def FindsAll (surroundings : SyncSurroundings) : List EventId → Finset EventId → Prop
  | [], _ => True
  | id :: ids, inFlight => inFlight.card < negentropyHighWaterUp →
      ∃ event, surroundings.eventById id = .ok (some event) ∧
        (surroundings.sendMsg (.event event) = .ok () → FindsAll surroundings ids (insert id inFlight))

theorem count_insert_le (top id : EventId) (ids : List EventId) (inFlight : Finset EventId) :
    ids.count id + once (id ∈ insert top inFlight) ≤
      (top :: ids).count id + once (id ∈ inFlight) := by
  by_cases same : id = top
  · subst same
    have bound := once_le_one (id ∈ insert id inFlight)
    rw [List.count_cons_self]
    omega
  · simp [once, same, List.count_cons_of_ne (Ne.symm same)]

theorem count_uploadLoop_le (surroundings : SyncSurroundings) (ids : List EventId) (inFlight : Finset EventId) (numSent : Nat)
    (id : EventId) :
    (uploadLoop surroundings ids inFlight numSent).1.count id +
        once (id ∈ (uploadLoop surroundings ids inFlight numSent).2.1) ≤
      ids.count id + once (id ∈ inFlight) := by
  fun_induction uploadLoop with
  | case1 => exact Nat.le_refl _
  | case2 top ids inFlight numSent room event found answer sent ih =>
      exact ih.trans (count_insert_le top id ids inFlight)
  | case3 top ids inFlight => exact count_insert_le top id ids inFlight
  | case4 top ids inFlight numSent room missing ih =>
      exact ih.trans (Nat.add_le_add_right List.count_le_count_cons _)
  | case5 top ids inFlight numSent room error failed ih =>
      exact ih.trans (Nat.add_le_add_right List.count_le_count_cons _)
  | case6 => exact Nat.le_refl _

theorem uploadLoop_suffix (surroundings : SyncSurroundings) (ids : List EventId) (inFlight : Finset EventId) (numSent : Nat) :
    (uploadLoop surroundings ids inFlight numSent).1 <:+ ids := by
  fun_induction uploadLoop with
  | case1 => exact List.suffix_rfl
  | case2 top ids inFlight numSent room event found answer sent ih =>
      exact ih.trans (List.suffix_cons top ids)
  | case3 top ids => exact List.suffix_cons top ids
  | case4 top ids inFlight numSent room missing ih => exact ih.trans (List.suffix_cons top ids)
  | case5 top ids inFlight numSent room error failed ih => exact ih.trans (List.suffix_cons top ids)
  | case6 => exact List.suffix_rfl

theorem length_uploadLoop_le {ids : List EventId} {inFlight : Finset EventId} {numSent sent : Nat}
    (uploaded : (uploadLoop surroundings ids inFlight numSent).2.2 = .ok sent) :
    sent + (uploadLoop surroundings ids inFlight numSent).1.length ≤ numSent + ids.length := by
  fun_induction uploadLoop with
  | case1 =>
      cases uploaded
      exact Nat.le_refl _
  | case2 top ids inFlight numSent room event found answer sent ih =>
      have before := ih uploaded
      rw [List.length_cons]
      omega
  | case3 => cases uploaded
  | case4 top ids inFlight numSent room missing ih =>
      have before := ih uploaded
      rw [List.length_cons]
      omega
  | case5 top ids inFlight numSent room error failed ih =>
      have before := ih uploaded
      rw [List.length_cons]
      omega
  | case6 =>
      cases uploaded
      exact Nat.le_refl _

/-- With an event for every id, none is dropped on the way. -/
theorem uploadLoop_findsAll {ids : List EventId} {inFlight : Finset EventId} {numSent sent : Nat}
    (finds : FindsAll surroundings ids inFlight)
    (uploaded : (uploadLoop surroundings ids inFlight numSent).2.2 = .ok sent) :
    sent + (uploadLoop surroundings ids inFlight numSent).1.length = numSent + ids.length ∧
      ∀ id, id ∈ ids ∨ id ∈ inFlight →
        id ∈ (uploadLoop surroundings ids inFlight numSent).1 ∨
          id ∈ (uploadLoop surroundings ids inFlight numSent).2.1 := by
  fun_induction uploadLoop with
  | case1 =>
      cases uploaded
      exact ⟨rfl, fun _ place => place⟩
  | case2 top ids inFlight numSent room event found answer sent ih =>
      obtain ⟨event', found', finds⟩ := finds room
      cases found.symm.trans found'
      obtain ⟨length, places⟩ := ih (finds sent) uploaded
      refine ⟨by rw [List.length_cons]; omega, fun id place => places id ?_⟩
      simp only [List.mem_cons, Finset.mem_insert] at place ⊢
      tauto
  | case3 => cases uploaded
  | case4 top ids inFlight numSent room missing ih =>
      obtain ⟨event, found, _⟩ := finds room
      cases missing.symm.trans found
  | case5 top ids inFlight numSent room error failed ih =>
      obtain ⟨event, found, _⟩ := finds room
      cases failed.symm.trans found
  | case6 =>
      cases uploaded
      exact ⟨rfl, fun _ place => place⟩

end Uploading

/-! ## Places -/

/-- In how many places an id is on its way to the relay or has arrived. -/
def places (state : SyncState) (id : EventId) : Nat :=
  state.haveIds.count id + once (id ∈ state.inFlightUp) + once (id ∈ state.summary.sent) +
    once ((state.summary.sendFailures.get? id).isSome = true)

def InPlace (state : SyncState) (id : EventId) : Prop :=
  id ∈ state.haveIds ∨ id ∈ state.inFlightUp ∨ id ∈ state.summary.sent ∨
    (state.summary.sendFailures.get? id).isSome = true

/-- The ids still to upload or to request. -/
def waiting (state : SyncState) : Nat := state.haveIds.length + state.needIds.length

/-- What holds whatever the database answers and the relay sends. -/
structure Bounded (state : SyncState) : Prop where
  places_le : ∀ id, state.places id ≤ once (id ∈ state.summary.local_)
  progress_le : ∀ progress, state.progress = some progress →
    progress.current + state.waiting ≤ progress.total

/-- What holds as long as no id is dropped. -/
structure Complete (opts : SyncOptions) (state : SyncState) : Prop where
  inPlace : opts.doUp = true → ∀ id ∈ state.summary.local_, state.InPlace id
  progress_ge : ∀ progress, state.progress = some progress →
    progress.total ≤ progress.current + state.waiting

variable {opts : SyncOptions} {surroundings : SyncSurroundings} {state : SyncState}

theorem bounded_start (subId downId : SubscriptionId) : (start opts subId downId).Bounded := by
  refine ⟨fun id => Nat.zero_le _, fun progress enabled => ?_⟩
  cases wanted : opts.progress with
  | false => simp [start, wanted] at enabled
  | true =>
      simp only [start, wanted, if_true, Option.some.injEq] at enabled
      subst enabled
      exact Nat.le_refl _

theorem complete_start (subId downId : SubscriptionId) :
    (start opts subId downId).Complete opts := by
  refine ⟨fun _ id member => absurd member (Finset.notMem_empty id), fun progress enabled => ?_⟩
  cases wanted : opts.progress with
  | false => simp [start, wanted] at enabled
  | true =>
      simp only [start, wanted, if_true, Option.some.injEq] at enabled
      subst enabled
      exact Nat.zero_le _

/-! ### Learning -/

theorem grew_have (opts : SyncOptions) (state : SyncState) (ids : List EventId) :
    Learned.Grew opts.doUp ⟨state.summary.local_, state.haveIds, 0⟩ (state.learnHave opts ids) :=
  Learned.grew_foldl ids _

theorem grew_need (opts : SyncOptions) (state : SyncState) (ids : List EventId) :
    Learned.Grew opts.doDown ⟨state.summary.remote, state.needIds, 0⟩ (state.learnNeed opts ids) :=
  Learned.grew_foldl ids _

theorem waiting_learnIds (state : SyncState) (currHaveIds currNeedIds : List EventId) :
    (state.learnIds opts currHaveIds currNeedIds).waiting =
      state.waiting + ((state.learnHave opts currHaveIds).counter +
        (state.learnNeed opts currNeedIds).counter) := by
  have haves := (grew_have opts state currHaveIds).counter
  have needs := (grew_need opts state currNeedIds).counter
  simp only [waiting, learnIds, addTotal] at *
  omega

theorem progress_addTotal {count : Nat} {progress : SyncProgress}
    (enabled : (state.addTotal count).progress = some progress) :
    ∃ before, state.progress = some before ∧ progress.total = before.total + count ∧
      progress.current = before.current := by
  obtain ⟨before, found, same⟩ := Option.map_eq_some_iff.mp enabled
  subst same
  exact ⟨before, found, rfl, rfl⟩

theorem Bounded.learnIds (bounded : state.Bounded) (currHaveIds currNeedIds : List EventId) :
    (state.learnIds opts currHaveIds currNeedIds).Bounded := by
  have grew := grew_have opts state currHaveIds
  refine ⟨fun id => ?_, fun progress enabled => ?_⟩
  · have before := bounded.places_le id
    have count := grew.count id
    change (state.learnHave opts currHaveIds).queue.count id + once (id ∈ state.inFlightUp) +
      once (id ∈ state.summary.sent) + once ((state.summary.sendFailures.get? id).isSome = true) ≤
        once (id ∈ (state.learnHave opts currHaveIds).seen)
    unfold places at before
    cases wanted : opts.doUp with
    | true =>
        simp only [wanted, true_and] at count
        omega
    | false =>
        have later : once (id ∈ state.summary.local_) ≤
            once (id ∈ (state.learnHave opts currHaveIds).seen) := by
          by_cases seen : id ∈ state.summary.local_
          · simp [once, seen, grew.seen seen]
          · simp [once, seen]
        simp only [wanted, Bool.false_eq_true, false_and] at count
        omega
  · obtain ⟨before, found, total, current⟩ := progress_addTotal enabled
    have le := bounded.progress_le before found
    rw [waiting_learnIds, total, current]
    omega

theorem Complete.learnIds (complete : state.Complete opts) (currHaveIds currNeedIds : List EventId) :
    (state.learnIds opts currHaveIds currNeedIds).Complete opts := by
  have grew := grew_have opts state currHaveIds
  refine ⟨fun wanted id member => ?_, fun progress enabled => ?_⟩
  · have seen : id ∈ (state.learnHave opts currHaveIds).seen := member
    have count := grew.count id
    simp only [wanted, true_and, once, seen, if_true] at count
    by_cases old : id ∈ state.summary.local_
    · rw [if_pos old] at count
      refine (complete.inPlace wanted id old).imp_left fun queued => ?_
      have before := List.count_pos_iff.mpr queued
      have after : 0 < (state.learnHave opts currHaveIds).queue.count id := by omega
      exact List.count_pos_iff.mp after
    · rw [if_neg old] at count
      have after : 0 < (state.learnHave opts currHaveIds).queue.count id := by omega
      exact .inl (List.count_pos_iff.mp after)
  · obtain ⟨before, found, total, current⟩ := progress_addTotal enabled
    have ge := complete.progress_ge before found
    rw [waiting_learnIds, total, current]
    omega

/-! ### Messages -/

theorem places_handleNegOk_le (eventId : EventId) (status : Bool) (message : String) (id : EventId) :
    (state.handleNegOk eventId status message).1.places id ≤ state.places id := by
  unfold handleNegOk
  by_cases flying : eventId ∈ state.inFlightUp
  · rw [if_pos flying]
    by_cases same : id = eventId
    · subst same
      cases status with
      | true => simp [places, once, flying]
      | false =>
          simp [places, once, flying, SortedTable.get?_put]
          omega
    · cases status with
      | true => simp [places, once, same]
      | false => simp [places, once, SortedTable.get?_put, same]
  · rw [if_neg flying]

theorem inPlace_handleNegOk {id : EventId} (place : state.InPlace id) (eventId : EventId)
    (status : Bool) (message : String) :
    (state.handleNegOk eventId status message).1.InPlace id := by
  unfold handleNegOk
  by_cases flying : eventId ∈ state.inFlightUp
  · rw [if_pos flying]
    by_cases same : id = eventId
    · subst same
      cases status with
      | true => simp [InPlace]
      | false => simp [InPlace, SortedTable.get?_put]
    · cases status with
      | true => simpa [InPlace, same] using place
      | false => simpa [InPlace, SortedTable.get?_put, same] using place
  · rwa [if_neg flying]

/-- An OK touches neither what is waiting nor the progress nor what was learned. -/
theorem handleNegOk_same (eventId : EventId) (status : Bool) (message : String) :
    (state.handleNegOk eventId status message).1.waiting = state.waiting ∧
      (state.handleNegOk eventId status message).1.progress = state.progress ∧
      (state.handleNegOk eventId status message).1.summary.local_ = state.summary.local_ := by
  unfold handleNegOk
  split
  · cases status with
    | true => exact ⟨rfl, rfl, rfl⟩
    | false => exact ⟨rfl, rfl, rfl⟩
  · exact ⟨rfl, rfl, rfl⟩

theorem Bounded.handleNegOk (bounded : state.Bounded) (eventId : EventId) (status : Bool)
    (message : String) : (state.handleNegOk eventId status message).1.Bounded := by
  obtain ⟨waiting, progress, learned⟩ := state.handleNegOk_same eventId status message
  refine ⟨fun id => ?_, ?_⟩
  · rw [learned]
    exact (places_handleNegOk_le eventId status message id).trans (bounded.places_le id)
  · rw [waiting, progress]
    exact bounded.progress_le

theorem Complete.handleNegOk (complete : state.Complete opts) (eventId : EventId) (status : Bool)
    (message : String) : (state.handleNegOk eventId status message).1.Complete opts := by
  obtain ⟨waiting, progress, learned⟩ := state.handleNegOk_same eventId status message
  refine ⟨fun wanted id member => ?_, ?_⟩
  · rw [learned] at member
    exact inPlace_handleNegOk (complete.inPlace wanted id member) eventId status message
  · rw [waiting, progress]
    exact complete.progress_ge

/-- A message keeps what its ids and its OKs keep. -/
theorem handleMessage_keeps {holds : SyncState → Prop}
    (learns : ∀ state currHaveIds currNeedIds, holds state →
      holds (state.learnIds opts currHaveIds currNeedIds))
    (acknowledges : ∀ state eventId status message, holds state →
      holds (state.handleNegOk eventId status message).1)
    (done : ∀ state : SyncState, holds state → holds { state with syncDone := true })
    (closes : ∀ state : SyncState, holds state → holds { state with inFlightDown := none })
    {message : RelayMessage}
    (receives : ∀ event, message = .event state.downId event → holds { state with
      summary.received := insert event.id state.summary.received
      inFlightDown := state.inFlightDown.map fun ids => ids.erase event.id })
    (before : holds state) :
    holds (state.handleMessage opts surroundings message).1 := by
  unfold handleMessage
  cases message with
  | negMsg subscriptionId message =>
      simp only
      split
      · split
        · exact before
        · split
          · exact before
          · next msg currHaveIds currNeedIds _ =>
              have learned := learns state currHaveIds currNeedIds before
              unfold handleNegMsg
              cases msg with
              | none => exact done _ learned
              | some query => exact learned
      · exact before
  | negErr =>
      simp only
      split
      · exact before
      · exact before
  | ok => exact acknowledges _ _ _ _ before
  | event subscriptionId event =>
      simp only [handleEvent]
      split
      · next same => exact receives event (same ▸ rfl)
      · exact before
  | endOfStoredEvents =>
      simp only [handleEose]
      split
      · exact closes _ before
      · exact before
  | closed =>
      simp only [handleClosed]
      split
      · split
        · split
          · exact closes _ before
          · split
            · exact before
            · exact before
        · exact before
      · exact before
  | _ => exact before

theorem Bounded.handleMessage (bounded : state.Bounded) (message : RelayMessage) :
    (state.handleMessage opts surroundings message).1.Bounded :=
  handleMessage_keeps (fun _ haves needs bounded => bounded.learnIds haves needs)
    (fun _ eventId status message bounded => bounded.handleNegOk eventId status message)
    (fun _ bounded => ⟨bounded.1, bounded.2⟩) (fun _ bounded => ⟨bounded.1, bounded.2⟩)
    (fun _ _ => ⟨bounded.1, bounded.2⟩) bounded

theorem Complete.handleMessage (complete : state.Complete opts) (message : RelayMessage) :
    (state.handleMessage opts surroundings message).1.Complete opts :=
  handleMessage_keeps (fun _ haves needs complete => complete.learnIds haves needs)
    (fun _ eventId status message complete => complete.handleNegOk eventId status message)
    (fun _ complete => ⟨complete.1, complete.2⟩) (fun _ complete => ⟨complete.1, complete.2⟩)
    (fun _ _ => ⟨complete.1, complete.2⟩) complete

/-- Only what was asked for has been received. -/
def Requested (state : SyncState) : Prop := state.summary.received ⊆ state.summary.remote

theorem Requested.learnIds (requested : state.Requested) (currHaveIds currNeedIds : List EventId) :
    (state.learnIds opts currHaveIds currNeedIds).Requested :=
  requested.trans (grew_need opts state currNeedIds).seen

theorem Requested.handleNegOk (requested : state.Requested) (eventId : EventId) (status : Bool)
    (message : String) : (state.handleNegOk eventId status message).1.Requested := by
  unfold SyncState.handleNegOk
  split
  · cases status with
    | true => exact requested
    | false => exact requested
  · exact requested

theorem Requested.handleMessage (requested : state.Requested) {message : RelayMessage}
    (asked : ∀ event, message = .event state.downId event → event.id ∈ state.summary.remote) :
    (state.handleMessage opts surroundings message).1.Requested :=
  handleMessage_keeps (fun _ haves needs requested => requested.learnIds haves needs)
    (fun _ eventId status message requested => requested.handleNegOk eventId status message)
    (fun _ requested => requested) (fun _ requested => requested)
    (fun event same => Finset.insert_subset (asked event same) requested) requested

/-! ### Uploading -/

theorem progress_addCurrent {count : Nat} {progress : SyncProgress}
    (enabled : (state.addCurrent count).progress = some progress) :
    ∃ before, state.progress = some before ∧ progress.current = before.current + count ∧
      progress.total = before.total := by
  obtain ⟨before, found, same⟩ := Option.map_eq_some_iff.mp enabled
  subst same
  exact ⟨before, found, rfl, rfl⟩

theorem Bounded.uploadNegEvents (bounded : state.Bounded) :
    (state.uploadNegEvents opts surroundings).1.Bounded := by
  unfold SyncState.uploadNegEvents
  split
  · exact bounded
  · have places : ∀ id, (uploadLoop surroundings state.haveIds state.inFlightUp 0).1.count id +
        once (id ∈ (uploadLoop surroundings state.haveIds state.inFlightUp 0).2.1) +
        once (id ∈ state.summary.sent) + once ((state.summary.sendFailures.get? id).isSome = true) ≤
          once (id ∈ state.summary.local_) := by
      intro id
      have moved := count_uploadLoop_le surroundings state.haveIds
        state.inFlightUp 0 id
      have before := bounded.places_le id
      unfold SyncState.places at before
      omega
    simp only
    split
    · next sent uploaded =>
        refine ⟨places, fun progress enabled => ?_⟩
        obtain ⟨before, found, current, total⟩ := progress_addCurrent enabled
        have le := bounded.progress_le before found
        have fewer := length_uploadLoop_le uploaded
        rw [current, total]
        simp only [waiting, addCurrent] at le ⊢
        omega
    · refine ⟨places, fun progress enabled => ?_⟩
      have le := bounded.progress_le progress enabled
      have fewer := (uploadLoop_suffix surroundings state.haveIds state.inFlightUp 0).length_le
      simp only [waiting] at le ⊢
      omega

/-- The upload drops no id: it does nothing or finds every event. -/
def UploadsAll (opts : SyncOptions) (surroundings : SyncSurroundings) (state : SyncState) : Prop :=
  state.skipsUpload opts ∨ FindsAll surroundings state.haveIds state.inFlightUp

theorem uploadsAll_of_finds (finds : ∀ id, ∃ event, surroundings.eventById id = .ok (some event))
    (state : SyncState) : state.UploadsAll opts surroundings := by
  have all : ∀ (ids : List EventId) (inFlight : Finset EventId), FindsAll surroundings ids inFlight := by
    intro ids
    induction ids with
    | nil => exact fun _ => trivial
    | cons id ids ih =>
        intro inFlight _
        obtain ⟨event, found⟩ := finds id
        exact ⟨event, found, fun _ => ih _⟩
  exact .inr (all _ _)

theorem Complete.uploadNegEvents (complete : state.Complete opts)
    (uploadsAll : state.UploadsAll opts surroundings)
    (succeeds : (state.uploadNegEvents opts surroundings).2 = .ok ()) :
    (state.uploadNegEvents opts surroundings).1.Complete opts := by
  unfold SyncState.uploadNegEvents at succeeds ⊢
  by_cases skips : state.skipsUpload opts
  · rwa [if_pos skips]
  · have finds := uploadsAll.resolve_left skips
    simp only [if_neg skips] at succeeds ⊢
    split at succeeds
    · next sent uploaded =>
        obtain ⟨length, places⟩ := uploadLoop_findsAll finds uploaded
        refine ⟨fun wanted id member => ?_, fun progress enabled => ?_⟩
        · rcases complete.inPlace wanted id member with queued | flying | arrived
          · exact or_assoc.mp (.inl (places id (.inl queued)))
          · exact or_assoc.mp (.inl (places id (.inr flying)))
          · exact .inr (.inr arrived)
        · obtain ⟨before, found, current, total⟩ := progress_addCurrent enabled
          have ge := complete.progress_ge before found
          rw [current, total]
          simp only [waiting, addCurrent] at ge ⊢
          omega
    · cases succeeds

theorem Requested.uploadNegEvents (requested : state.Requested) :
    (state.uploadNegEvents opts surroundings).1.Requested := by
  unfold SyncState.uploadNegEvents
  split
  · exact requested
  · simp only
    split
    · exact requested
    · exact requested

/-! ### Requesting -/

theorem progress_batch (count : Nat) {progress : SyncProgress}
    (enabled : (state.addCurrent (state.needIds.take count).length).progress = some progress) :
    ∃ before, state.progress = some before ∧ progress.total = before.total ∧
      progress.current + (state.haveIds.length + (state.needIds.drop count).length) =
        before.current + state.waiting := by
  obtain ⟨before, found, current, total⟩ := progress_addCurrent enabled
  refine ⟨before, found, total, ?_⟩
  rw [List.length_take] at current
  rw [waiting, List.length_drop]
  omega

/-- Requesting only moves the ids of a batch from those waiting to those treated. -/
theorem reqNegEvents_same (opts : SyncOptions) (surroundings : SyncSurroundings)
    (state : SyncState) :
    (state.reqNegEvents opts surroundings).1.places = state.places ∧
      (state.reqNegEvents opts surroundings).1.InPlace = state.InPlace ∧
      (state.reqNegEvents opts surroundings).1.summary = state.summary ∧
      ∀ progress, (state.reqNegEvents opts surroundings).1.progress = some progress →
        ∃ before, state.progress = some before ∧ progress.total = before.total ∧
          progress.current + (state.reqNegEvents opts surroundings).1.waiting =
            before.current + state.waiting := by
  unfold reqNegEvents
  split
  · exact ⟨rfl, rfl, rfl, fun progress enabled => ⟨progress, enabled, rfl, rfl⟩⟩
  · simp only
    split
    · exact ⟨rfl, rfl, rfl, fun _ enabled => progress_batch negentropyBatchSizeDown enabled⟩
    · split
      · exact ⟨rfl, rfl, rfl, fun _ enabled => progress_batch negentropyBatchSizeDown enabled⟩
      · exact ⟨rfl, rfl, rfl, fun _ enabled => progress_batch negentropyBatchSizeDown enabled⟩

theorem Bounded.reqNegEvents (bounded : state.Bounded) :
    (state.reqNegEvents opts surroundings).1.Bounded := by
  obtain ⟨places, _, summary, counts⟩ := reqNegEvents_same opts surroundings state
  refine ⟨fun id => ?_, fun progress enabled => ?_⟩
  · rw [places, summary]
    exact bounded.places_le id
  · obtain ⟨before, found, total, same⟩ := counts progress enabled
    have le := bounded.progress_le before found
    omega

theorem Complete.reqNegEvents (complete : state.Complete opts) :
    (state.reqNegEvents opts surroundings).1.Complete opts := by
  obtain ⟨_, inPlace, summary, counts⟩ := reqNegEvents_same opts surroundings state
  refine ⟨fun wanted id member => ?_, fun progress enabled => ?_⟩
  · rw [summary] at member
    rw [inPlace]
    exact complete.inPlace wanted id member
  · obtain ⟨before, found, total, same⟩ := counts progress enabled
    have ge := complete.progress_ge before found
    omega

theorem Requested.reqNegEvents (requested : state.Requested) :
    (state.reqNegEvents opts surroundings).1.Requested := by
  obtain ⟨_, _, summary, _⟩ := reqNegEvents_same opts surroundings state
  unfold Requested
  rwa [summary]

/-! ## Runs -/

/-- The run has failed. -/
def Failed (state : SyncState) : Prop := ∃ error, state.phase = .returned (.error error)

/-- A run returns without an error only at the end of a turn that left nothing to do. -/
def Ended (state : SyncState) : Prop := state.phase = .returned (.ok ()) → state.finished

theorem ended_endTurn (state : SyncState) : state.endTurn.Ended := by
  intro returned
  by_cases done : state.finished
  · exact done
  · simp [endTurn, done] at returned

theorem ended_fail (state : SyncState) (error : Error) : (state.fail error).Ended := by
  intro returned
  cases returned

section Keeping

variable {holds : SyncState → Prop}

/-- A fact that does not look at where the run stands nor when it last heard of the relay. -/
def Steady (holds : SyncState → Prop) : Prop :=
  ∀ state phase lastRelevantMsg, holds state →
    holds { state with phase := phase, lastRelevantMsg := lastRelevantMsg }

theorem negOpen_keeps (steady : Steady holds) (before : holds state) (filter : Filter)
    (initialMessage : Bytes) : holds (state.negOpen surroundings filter initialMessage) := by
  unfold negOpen
  split
  · exact steady _ _ _ before
  · exact steady _ _ _ before

theorem check_keeps (steady : Steady holds) (before : holds state) (received : SyncReceived) :
    holds (state.check surroundings received) := by
  unfold check
  split
  · exact steady _ _ _ before
  · exact steady _ _ _ before
  · split
    · exact steady _ _ _ before
    · exact before
  · split
    · exact steady _ _ _ before
    · exact before
  · split
    · exact steady _ _ _ before
    · exact before
  · exact before

theorem receive_keeps (steady : Steady holds) (before : holds state) {received : SyncReceived}
    (handled : ∀ message, received = .notification (.message message) →
      surroundings.now - state.lastRelevantMsg ≤ opts.idleTimeout →
      holds (state.handleMessage opts surroundings message).1) :
    holds (state.receive opts surroundings received) := by
  unfold receive
  cases received with
  | elapsed => exact steady _ _ _ before
  | failed => exact steady _ _ _ before
  | notification notification =>
      simp only
      split
      · exact steady _ _ _ before
      · next recent =>
          cases notification with
          | message message =>
              have after := handled message rfl (Nat.le_of_not_lt recent)
              simp only
              split
              · next same =>
                  rw [same] at after
                  exact steady _ _ _ after
              · next same =>
                  rw [same] at after
                  exact steady _ _ _ after
          | relayStatus status =>
              simp only
              split
              · exact steady _ _ _ before
              · exact steady _ _ _ before
          | _ => exact steady _ _ _ before

theorem upload_keeps (steady : Steady holds)
    (handled : holds (state.uploadNegEvents opts surroundings).1) (isRelevant : Bool) :
    holds (state.upload opts surroundings isRelevant) := by
  unfold upload
  split
  · next same =>
      rw [same] at handled
      exact steady _ _ _ handled
  · next same =>
      rw [same] at handled
      exact steady _ _ _ handled

theorem request_keeps (steady : Steady holds)
    (handled : holds (state.reqNegEvents opts surroundings).1) (isRelevant : Bool) :
    holds (state.request opts surroundings isRelevant) := by
  unfold request
  split
  · next after answer same =>
      rw [same] at handled
      have heard := steady after after.phase
        (if isRelevant then surroundings.now else after.lastRelevantMsg) handled
      exact steady _ _ _ heard
  · next same =>
      rw [same] at handled
      exact steady _ _ _ handled

end Keeping

theorem steady_bounded : Steady Bounded := fun _ _ _ bounded => ⟨bounded.1, bounded.2⟩

theorem steady_complete : Steady (Complete opts) := fun _ _ _ complete => ⟨complete.1, complete.2⟩

theorem steady_requested : Steady Requested := fun _ _ _ requested => requested

theorem Bounded.step {state' : SyncState} {act : SyncAct} (bounded : state.Bounded)
    (step : SyncStep opts state act state') : state'.Bounded := by
  cases step with
  | prepareFails => exact steady_bounded _ _ _ bounded
  | negOpen => exact negOpen_keeps steady_bounded bounded _ _
  | check => exact check_keeps steady_bounded bounded _
  | receive =>
      exact receive_keeps steady_bounded bounded fun message _ _ => bounded.handleMessage message
  | upload => exact upload_keeps steady_bounded bounded.uploadNegEvents _
  | request => exact request_keeps steady_bounded bounded.reqNegEvents _

theorem ended_of_phase {phase : SyncPhase} (standing : state.phase = phase)
    (running : phase ≠ .returned (.ok ())) : state.Ended :=
  fun returned => absurd (standing.symm.trans returned) running

theorem ended_check (checking : state.phase = .checking) (received : SyncReceived) :
    (state.check surroundings received).Ended := by
  have same : state.Ended := ended_of_phase checking nofun
  unfold check
  split
  · exact ended_fail _ _
  · exact ended_fail _ _
  · split
    · exact ended_of_phase rfl nofun
    · exact same
  · split
    · exact ended_fail _ _
    · exact same
  · split
    · exact ended_fail _ _
    · exact same
  · exact same

theorem ended_receive (received : SyncReceived) :
    (state.receive opts surroundings received).Ended := by
  unfold receive
  cases received with
  | elapsed => exact ended_fail _ _
  | failed => exact ended_fail _ _
  | notification notification =>
      simp only
      split
      · exact ended_fail _ _
      · cases notification with
        | message message =>
            simp only
            split
            · exact ended_of_phase rfl nofun
            · exact ended_fail _ _
        | relayStatus status =>
            simp only
            split
            · exact ended_fail _ _
            · exact ended_endTurn _
        | _ => exact ended_endTurn _

theorem ended_step {state' : SyncState} {act : SyncAct}
    (step : SyncStep opts state act state') : state'.Ended := by
  cases step with
  | prepareFails => exact ended_fail _ _
  | negOpen =>
      unfold SyncState.negOpen
      split
      · exact ended_of_phase rfl nofun
      · exact ended_fail _ _
  | check checking => exact ended_check checking _
  | receive => exact ended_receive _
  | upload =>
      unfold SyncState.upload
      split
      · exact ended_of_phase rfl nofun
      · exact ended_fail _ _
  | request =>
      unfold SyncState.request
      split
      · exact ended_endTurn _
      · exact ended_fail _ _

/-! ## What a step is given -/

/-- The upload finds every event it is to send, and an event that comes for the
current download has been asked for. -/
def Meets (opts : SyncOptions) (state : SyncState) : SyncAct → Prop
  | .upload surroundings => state.UploadsAll opts surroundings
  | .receive (.notification (.message (.event subscriptionId event))) surroundings =>
      subscriptionId = state.downId →
      surroundings.now - state.lastRelevantMsg ≤ opts.idleTimeout →
      event.id ∈ state.summary.remote
  | _ => True

theorem Requested.step {state' : SyncState} {act : SyncAct} (requested : state.Requested)
    (meets : state.Meets opts act) (step : SyncStep opts state act state') : state'.Requested := by
  cases step with
  | prepareFails => exact requested
  | negOpen => exact negOpen_keeps steady_requested requested _ _
  | check => exact check_keeps steady_requested requested _
  | receive =>
      refine receive_keeps steady_requested requested fun message same recent => ?_
      subst same
      refine requested.handleMessage fun event same => ?_
      subst same
      exact meets rfl recent
  | upload => exact upload_keeps steady_requested requested.uploadNegEvents _
  | request => exact request_keeps steady_requested requested.reqNegEvents _

theorem Complete.step {state' : SyncState} {act : SyncAct} (complete : state.Complete opts)
    (meets : state.Meets opts act) (step : SyncStep opts state act state') :
    state'.Failed ∨ state'.Complete opts := by
  cases step with
  | prepareFails => exact .inl ⟨_, rfl⟩
  | negOpen => exact .inr (negOpen_keeps steady_complete complete _ _)
  | check => exact .inr (check_keeps steady_complete complete _)
  | receive =>
      exact .inr (receive_keeps steady_complete complete fun message _ _ =>
        complete.handleMessage message)
  | upload =>
      have uploaded := complete.uploadNegEvents meets
      unfold SyncState.upload
      split
      · next same =>
          rw [same] at uploaded
          exact .inr (steady_complete _ _ _ (uploaded rfl))
      · exact .inl ⟨_, rfl⟩
  | request => exact .inr (request_keeps steady_complete complete.reqNegEvents _)

/-- No step begins in a run that has failed. -/
theorem not_failed_of_step {state' : SyncState} {act : SyncAct}
    (step : SyncStep opts state act state') : ¬ state.Failed := by
  intro ⟨error, failed⟩
  cases step with
  | prepareFails standing | negOpen standing | check standing | receive standing
  | upload standing | request standing =>
      rw [failed] at standing
      cases standing

section Runs

variable {trace : List (SyncState × SyncAct)} {final : SyncState} {subId downId : SubscriptionId}

theorem run_bounded (run : Run (Traced (SyncStep opts)) (start opts subId downId) trace final) :
    final.Bounded := by
  induction run with
  | nil => exact bounded_start subId downId
  | snoc _ last before => exact before.step last.2

theorem run_ended (run : Run (Traced (SyncStep opts)) (start opts subId downId) trace final) :
    final.Ended := by
  cases run with
  | nil => exact ended_of_phase rfl nofun
  | snoc _ last => exact ended_step last.2

theorem run_complete (run : Run (Traced (SyncStep opts)) (start opts subId downId) trace final)
    (meets : ∀ entry ∈ trace, entry.1.Meets opts entry.2) :
    final.Requested ∧ (final.Failed ∨ final.Complete opts) := by
  induction run with
  | nil => exact ⟨Finset.Subset.refl _, .inr (complete_start subId downId)⟩
  | snoc _ last before =>
      obtain ⟨requested, complete⟩ := before fun entry member => meets entry (List.mem_append_left _ member)
      have here := meets _ (List.mem_append_right _ (List.mem_singleton_self _))
      obtain ⟨rfl, step⟩ := last
      exact ⟨requested.step here step,
        (complete.resolve_left (not_failed_of_step step)).step here step⟩

/-- What the summary and the progress of a run tell. -/
structure Accounts (opts : SyncOptions) (state : SyncState) : Prop where
  received : state.summary.received ⊆ state.summary.remote
  progress_le : ∀ progress, state.progress = some progress → progress.current ≤ progress.total
  progress_eq : state.phase = .returned (.ok ()) →
    ∀ progress, state.progress = some progress → progress.current = progress.total
  treated : state.phase = .returned (.ok ()) → opts.doUp = true → ∀ id ∈ state.summary.local_,
    id ∈ state.summary.sent ∨ (state.summary.sendFailures.get? id).isSome = true
  apart : ∀ id ∈ state.summary.sent, state.summary.sendFailures.get? id = none

theorem Bounded.apart (bounded : state.Bounded) {id : EventId} (sent : id ∈ state.summary.sent) :
    state.summary.sendFailures.get? id = none := by
  have le := (bounded.places_le id).trans (once_le_one _)
  cases failure : state.summary.sendFailures.get? id with
  | none => rfl
  | some message =>
      simp [places, once, sent, failure] at le

theorem run_accounts (run : Run (Traced (SyncStep opts)) (start opts subId downId) trace final)
    (meets : ∀ entry ∈ trace, entry.1.Meets opts entry.2) : final.Accounts opts := by
  have bounded := run_bounded run
  obtain ⟨requested, complete⟩ := run_complete run meets
  have done : final.phase = .returned (.ok ()) → final.finished ∧ final.Complete opts := by
    intro returned
    refine ⟨run_ended run returned, complete.resolve_left ?_⟩
    intro ⟨error, failed⟩
    cases returned.symm.trans failed
  refine ⟨requested, fun progress enabled => ?_, fun returned progress enabled => ?_,
    fun returned wanted id member => ?_, fun id sent => bounded.apart sent⟩
  · have le := bounded.progress_le progress enabled
    omega
  · obtain ⟨⟨_, haves, needs, _, _⟩, complete⟩ := done returned
    have le := bounded.progress_le progress enabled
    have ge := complete.progress_ge progress enabled
    simp only [waiting, haves, needs, List.length_nil] at ge
    omega
  · obtain ⟨⟨_, haves, _, flying, _⟩, complete⟩ := done returned
    have place := complete.inPlace wanted id member
    simpa [InPlace, haves, flying] using place

/-! ### Runs -/

def sampleOpts : SyncOptions := { direction := .both, progress := true }

def sampleEvent (byte : UInt8) : Event where
  id := .replicate 32 byte
  pubkey := .replicate 32 9
  createdAt := 0
  kind := .fromU16 1
  tags := []
  content := ""
  sig := .replicate 64 9

/-- The relay lacks the first event and has the second. -/
def sampleSurroundings (eventById : EventId → Except Error (Option Event)) : SyncSurroundings where
  eventById := eventById
  generated := "batch"
  reconcileWithIds _ := .ok (none, [(sampleEvent 1).id], [(sampleEvent 2).id])

/-- The first event is sent and acknowledged. -/
theorem run_accounts_up : ∃ (trace : List (SyncState × SyncAct)) (final : SyncState),
    Run (Traced (SyncStep { direction := .up })) (start { direction := .up } "neg" "") trace final ∧
      final.phase = .returned (.ok ()) ∧ final.summary.local_ = {(sampleEvent 1).id} ∧
      final.Accounts { direction := .up } := by
  have run : Run (Traced (SyncStep { direction := .up })) (start { direction := .up } "neg" "") [] _ :=
    .nil
  let around := sampleSurroundings fun _ => .ok (some (sampleEvent 1))
  let answered : SyncReceived := .notification (.message (.negMsg "neg" ""))
  have run := run.trace (.negOpen rfl : SyncStep _ _ (.negOpen .new [] around) _)
  have run := run.trace (.check rfl : SyncStep _ _ (.check answered around) _)
  have run := run.trace (.receive rfl : SyncStep _ _ (.receive answered around) _)
  have run := run.trace (@SyncStep.upload _ _ true around (by decide +kernel))
  have run := run.trace (@SyncStep.request _ _ true around (by decide +kernel))
  have run := run.trace (.receive (by decide +kernel) : SyncStep _ _ (.receive
    (.notification (.message (.ok (sampleEvent 1).id true ""))) around) _)
  have run := run.trace (@SyncStep.upload _ _ true around (by decide +kernel))
  have run := run.trace (@SyncStep.request _ _ true around (by decide +kernel))
  have finds : ∀ state : SyncState, state.UploadsAll { direction := .up } around :=
    uploadsAll_of_finds fun _ => ⟨_, rfl⟩
  refine ⟨_, _, run, by decide +kernel, by decide +kernel, run_accounts run ?_⟩
  simp only [List.nil_append, List.cons_append, List.forall_mem_cons]
  exact ⟨trivial, trivial, trivial, finds _, trivial, trivial, finds _, trivial,
    List.forall_mem_nil _⟩

/-- The database has no event for the first id, and the relay sends a third event
with the second. -/
theorem run_unaccounted : ∃ (trace : List (SyncState × SyncAct)) (final : SyncState),
    Run (Traced (SyncStep sampleOpts)) (start sampleOpts "neg" "") trace final ∧
      final.phase = .returned (.ok ()) ∧
      (sampleEvent 1).id ∈ final.summary.local_ ∧ (sampleEvent 1).id ∉ final.summary.sent ∧
      final.summary.sendFailures.get? (sampleEvent 1).id = none ∧
      (sampleEvent 3).id ∈ final.summary.received ∧ (sampleEvent 3).id ∉ final.summary.remote ∧
      final.progress = some { total := 2, current := 1 } ∧ ¬ final.Accounts sampleOpts := by
  have run : Run (Traced (SyncStep sampleOpts)) (start sampleOpts "neg" "") [] _ := .nil
  let around := sampleSurroundings fun _ => .ok none
  let answered : SyncReceived := .notification (.message (.negMsg "neg" ""))
  have run := run.trace (.negOpen rfl : SyncStep sampleOpts _ (.negOpen .new [] around) _)
  have run := run.trace (.check rfl : SyncStep _ _ (.check answered around) _)
  have run := run.trace (.receive rfl : SyncStep _ _ (.receive answered around) _)
  have run := run.trace (@SyncStep.upload _ _ true around rfl)
  have run := run.trace (@SyncStep.request _ _ true around (by decide +kernel))
  have run := run.trace (.receive (by decide +kernel) : SyncStep _ _ (.receive
    (.notification (.message (.event "batch" (sampleEvent 3)))) around) _)
  have run := run.trace (@SyncStep.upload _ _ true around (by decide +kernel))
  have run := run.trace (@SyncStep.request _ _ true around (by decide +kernel))
  have run := run.trace (.receive (by decide +kernel) : SyncStep _ _ (.receive
    (.notification (.message (.event "batch" (sampleEvent 2)))) around) _)
  have run := run.trace (@SyncStep.upload _ _ true around (by decide +kernel))
  have run := run.trace (@SyncStep.request _ _ true around (by decide +kernel))
  have run := run.trace (.receive (by decide +kernel) : SyncStep _ _ (.receive
    (.notification (.message (.endOfStoredEvents "batch"))) around) _)
  have run := run.trace (@SyncStep.upload _ _ true around (by decide +kernel))
  have run := run.trace (@SyncStep.request _ _ true around (by decide +kernel))
  refine ⟨_, _, run, by decide +kernel, by decide +kernel, by decide +kernel, by decide +kernel,
    by decide +kernel, by decide +kernel, by decide +kernel, fun accounts => ?_⟩
  have settled := accounts.progress_eq (by decide +kernel) { total := 2, current := 1 }
    (by decide +kernel)
  cases settled

end Runs

end SyncState

end RustNostr.NostrSdk
