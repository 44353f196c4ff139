import Mathlib
import RustNostr.Library.Run
import RustNostr.NostrSdk.Relay.Acquisition
import RustNostr.NostrSdk.Relay.Subscription

/-!
# Handling EVENT messages

`InnerRelay::handle_event_msg` (`nostr-sdk/src/relay/inner.rs`). Between its
steps the handler waits for locks, the policy, the database and gossip, and
other tasks go on. What it finds each time is an arbitrary answer; what it does
is recorded in order. Only the verification cache is a state of its own, since
the handler looks at it and changes it under one lock.
-/

set_option autoImplicit false

namespace RustNostr.NostrSdk

open Library

/-- What a call finds when it looks outside. -/
structure Answers where
  /-- The registry entry under the lock of the attribution. -/
  subscriptionAtArrival : Option SubscriptionData
  /-- What `record` answered. -/
  recorded : Bool
  /-- The registry entry under the lock of the checks. -/
  subscriptionAtChecks : Option SubscriptionData
  now : Timestamp
  admitEvent : Option (Except Error AdmitStatus)
  checkId : Except Error DatabaseEventStatus
  saveEvent : Except Error SaveEventStatus
  gossip : Option (Except Error Unit)

/-- What a call does outside. -/
inductive Effect where
  | record (raw : Ref) (createdAt : Timestamp)
  | countEvent
  | ban
  | admitEvent (event : Event)
  | saveEvent (event : Event)
  | notifyEvent (event : Event)
  | processGossip (event : Event)
  | forward (raw : Ref)
  | processed (raw : Ref)
  deriving DecidableEq

/-- The event an effect hands to the policy, the database, the notification
receivers or gossip. -/
def Effect.event? : Effect → Option Event
  | admitEvent event | saveEvent event | notifyEvent event | processGossip event => some event
  | record .. | countEvent | ban | forward _ | processed _ => none

/-- Why a call ends early: `Ok(None)` or an error. -/
inductive Exit where
  | ignored
  | failed (error : Error)
  deriving DecidableEq

structure Handling where
  cache : LruCache EventId
  effects : List Effect := []

def Handling.add (handling : Handling) (effect : Effect) : Handling :=
  { handling with effects := handling.effects ++ [effect] }

abbrev Handler := Transaction Exit Handling

/-- An EVENT message and the relay it came from. -/
structure Received where
  opts : RelayOptions
  acquisitionNamespace : String
  answers : Answers
  subscriptionId : SubscriptionId
  event : Event

/-- How a call went. -/
structure Handled where
  outcome : Except Exit Event
  effects : List Effect
  cache : LruCache EventId

namespace Received

def emit (effect : Effect) : Handler Unit := modify fun handling => handling.add effect

def fail {α : Type} (error : Error) : Handler α := throw (.failed error)

/-- `?` -/
def propagate {α : Type} : Except Error α → Handler α
  | .ok value => pure value
  | .error error => fail error

variable (externals : Externals) (crypto : Crypto) (received : Received)

def ownAcquisitionId : Bool :=
  received.acquisitionNamespace.toList.isPrefixOf received.subscriptionId.toList

/-- Attributes the frame to an acquisition, before any check. -/
def attributeRaw : Handler (Option Ref) :=
  if received.ownAcquisitionId then
    match received.answers.subscriptionAtArrival with
    | none => throw .ignored
    | some subscription =>
        match subscription.acquisition with
        | none => pure none
        | some raw => do
            emit (.record raw received.event.createdAt)
            if received.answers.recorded then pure (some raw) else throw .ignored
  else pure none

def checkEventSize : Handler Unit :=
  match received.opts.limits.getMaxSize received.event.kind with
  | none => pure ()
  | some maxSize =>
      if maxSize.toNat < received.event.jsonLen externals then
        fail (.limitExceeded "event is too large")
      else pure ()

def checkTagsLimit : Handler Unit :=
  match received.opts.limits.getMaxNumTags received.event.kind with
  | none => pure ()
  | some maxNumTags =>
      if maxNumTags.toNat < received.event.tags.length then fail (.limitExceeded "too many tags")
      else pure ()

def banOnMismatch : Handler Unit :=
  if received.opts.banRelayOnMismatch then emit .ban else pure ()

/-- The limit of a filter that stands alone, until EOSE. -/
def checkFilterLimit (data : SubscriptionData) : Handler Unit :=
  match data.receivedEose, data.filters with
  | false, [filter] =>
      match filter.limit with
      | none => pure ()
      | some limit => do
          emit .countEvent
          if limit < saturatingAdd data.receivedEvents 1 then
            received.banOnMismatch
            fail (.limitExceeded "too many events")
          else pure ()
  | _, _ => pure ()

/-- `MATCH_EVENT_OPTS` -/
def matchEventOpts : MatchEventOptions := { nip50 := false }

def checkFilters (data : SubscriptionData) : Handler Unit :=
  if data.filters.any fun filter => filter.matchEvent received.event matchEventOpts then pure ()
  else do
    received.banOnMismatch
    fail (.protocolMsg "event doesn't match the subscription filter")

def verifiesSubscriptions : Bool :=
  received.opts.verifySubscriptions || received.opts.banRelayOnMismatch

/-- Checks the event against its subscription and says whether this is an
acquisition. -/
def checkSubscription : Handler Bool :=
  let subscription := received.answers.subscriptionAtChecks
  if received.ownAcquisitionId || received.verifiesSubscriptions then
    if subscription.isNone && received.ownAcquisitionId then throw .ignored
    else do
      if received.verifiesSubscriptions then
        match subscription with
        | none => fail (.notFound "subscription not found")
        | some data => do
            received.checkFilterLimit data
            received.checkFilters data
      pure (subscription.any fun data => data.acquisition.isSome)
  else pure false

def checkExpiration : Handler Unit :=
  if received.event.isExpiredAt received.answers.now then fail (.invalidMsg "event expired")
  else pure ()

def verify : Handler Unit :=
  ExceptT.mk fun handling =>
    let (outcome, cache) :=
      (SharedState.verifyAndCache externals crypto received.event).run handling.cache
    (outcome.mapError .failed, { handling with cache })

def admitEvent : Handler Unit :=
  match received.answers.admitEvent with
  | none => pure ()
  | some status => do
      emit (.admitEvent received.event)
      match ← propagate status with
      | .rejected => throw .ignored
      | .success => pure ()

/-- Whether a first sighting is notified, given what saving it answered. -/
def sendNotification : SaveEventStatus → Bool
  | .success => true
  | .rejected .ephemeral => true
  | .rejected .duplicate => true
  | .rejected .deleted => false
  | .rejected .expired => false
  | .rejected .replaced => false
  | .rejected .invalidDelete => false
  | .rejected .vanished => false
  | .rejected .other => true

/-- Saves the event, unless it is an acquisition's. -/
def save (isAcquisition : Bool) : Handler Unit := do
  match ← propagate received.answers.checkId with
  | .saved => pure ()
  | .deleted => throw .ignored
  | .notExistent =>
      if isAcquisition then pure ()
      else do
        emit (.saveEvent received.event)
        let status ← propagate received.answers.saveEvent
        if sendNotification status then emit (.notifyEvent received.event)
        else throw .ignored

def route (isAcquisition : Bool) : Handler Unit :=
  match isAcquisition, received.answers.gossip with
  | false, some answer => do
      emit (.processGossip received.event)
      propagate answer
  | _, _ => pure ()

def forwardRaw (raw : Option Ref) : Handler Unit :=
  match raw with
  | some raw => emit (.forward raw)
  | none => pure ()

/-- All that follows the verification. -/
def deliver (raw : Option Ref) (isAcquisition : Bool) : Handler Event := do
  received.admitEvent
  received.save isAcquisition
  received.route isAcquisition
  forwardRaw raw
  return received.event

/-- All that follows the attribution, up to the message that is handed on. -/
def judge (raw : Option Ref) : Handler Event := do
  received.checkEventSize externals
  received.checkTagsLimit
  let isAcquisition ← received.checkSubscription
  received.checkExpiration
  received.verify externals crypto
  received.deliver raw isAcquisition

/-- Dropping the `RawFrame`, however the call ends. -/
def dropFrame (raw : Option Ref) (program : Handler Event) : Handler Event :=
  ExceptT.mk fun handling =>
    let (outcome, handling) := program.run handling
    match raw with
    | some raw => (outcome, handling.add (.processed raw))
    | none => (outcome, handling)

def handleEventMsg : Handler Event := do
  let raw ← received.attributeRaw
  dropFrame raw (received.judge externals crypto raw)

def handle (cache : LruCache EventId) : Handled :=
  let (outcome, handling) := (received.handleEventMsg externals crypto).run { cache }
  ⟨outcome, handling.effects, handling.cache⟩

/-! ## What the stages keep -/

section Stages

open Transaction

variable {holds : Handling → Prop}

theorem emit_preserves {effect : Effect}
    (keeps : ∀ handling, holds handling → holds (handling.add effect)) :
    Preserves holds (emit effect) :=
  Preserves.modify keeps

theorem propagate_preserves {α : Type} (answer : Except Error α) :
    Preserves holds (propagate answer) := by
  cases answer with
  | ok value => exact Preserves.pure value
  | error error => exact Preserves.throw _

theorem checkEventSize_preserves : Preserves holds (received.checkEventSize externals) := by
  unfold checkEventSize
  split
  · exact Preserves.pure ()
  · exact Preserves.ite (Preserves.throw _) (Preserves.pure ())

theorem checkTagsLimit_preserves : Preserves holds received.checkTagsLimit := by
  unfold checkTagsLimit
  split
  · exact Preserves.pure ()
  · exact Preserves.ite (Preserves.throw _) (Preserves.pure ())

theorem banOnMismatch_preserves
    (ban : ∀ handling, holds handling → holds (handling.add .ban)) :
    Preserves holds received.banOnMismatch :=
  Preserves.ite (emit_preserves ban) (Preserves.pure ())

theorem checkFilterLimit_preserves (data : SubscriptionData)
    (count : ∀ handling, holds handling → holds (handling.add .countEvent))
    (ban : ∀ handling, holds handling → holds (handling.add .ban)) :
    Preserves holds (received.checkFilterLimit data) := by
  have exceeded : Preserves holds (do
      received.banOnMismatch
      fail (.limitExceeded "too many events") : Handler Unit) :=
    Preserves.bind (received.banOnMismatch_preserves ban) fun _ => Preserves.throw _
  unfold checkFilterLimit
  split
  · split
    · exact Preserves.pure ()
    · exact Preserves.bind (emit_preserves count) fun _ =>
        Preserves.ite exceeded (Preserves.pure ())
  · exact Preserves.pure ()

theorem checkFilters_preserves (data : SubscriptionData)
    (ban : ∀ handling, holds handling → holds (handling.add .ban)) :
    Preserves holds (received.checkFilters data) :=
  Preserves.ite (Preserves.pure ())
    (Preserves.bind (received.banOnMismatch_preserves ban) fun _ => Preserves.throw _)

theorem checkSubscription_preserves
    (count : ∀ handling, holds handling → holds (handling.add .countEvent))
    (ban : ∀ handling, holds handling → holds (handling.add .ban)) :
    Preserves holds received.checkSubscription := by
  unfold checkSubscription
  apply Preserves.ite
  · apply Preserves.ite (Preserves.throw _)
    split
    · cases received.answers.subscriptionAtChecks with
      | none => exact Preserves.throw _
      | some data =>
          exact Preserves.bind (received.checkFilterLimit_preserves data count ban) fun _ =>
            Preserves.bind (received.checkFilters_preserves data ban) fun _ => Preserves.pure _
    · exact Preserves.pure _
  · exact Preserves.pure false

theorem checkExpiration_preserves : Preserves holds received.checkExpiration :=
  Preserves.ite (Preserves.throw _) (Preserves.pure ())

theorem admit_preserves
    (admits : ∀ handling, holds handling → holds (handling.add (.admitEvent received.event))) :
    Preserves holds received.admitEvent := by
  unfold Received.admitEvent
  cases received.answers.admitEvent with
  | none => exact Preserves.pure ()
  | some status =>
      apply Preserves.bind (emit_preserves admits)
      intro _
      apply Preserves.bind (propagate_preserves status)
      intro status
      cases status with
      | success => exact Preserves.pure ()
      | rejected => exact Preserves.throw _

theorem save_preserves (isAcquisition : Bool)
    (save : ∀ handling, holds handling → holds (handling.add (.saveEvent received.event)))
    (notify : ∀ handling, holds handling → holds (handling.add (.notifyEvent received.event))) :
    Preserves holds (received.save isAcquisition) := by
  unfold Received.save
  apply Preserves.bind (propagate_preserves _)
  intro status
  cases status with
  | saved => exact Preserves.pure ()
  | deleted => exact Preserves.throw _
  | notExistent =>
      apply Preserves.ite (Preserves.pure ())
      apply Preserves.bind (emit_preserves save)
      intro _
      apply Preserves.bind (propagate_preserves _)
      intro saved
      exact Preserves.ite (emit_preserves notify) (Preserves.throw _)

theorem route_preserves (isAcquisition : Bool)
    (process : ∀ handling, holds handling → holds (handling.add (.processGossip received.event))) :
    Preserves holds (received.route isAcquisition) := by
  unfold route
  split
  · exact Preserves.bind (emit_preserves process) fun _ => propagate_preserves _
  · exact Preserves.pure ()

theorem forwardRaw_preserves (raw : Option Ref)
    (forward : ∀ raw handling, holds handling → holds (handling.add (.forward raw))) :
    Preserves holds (forwardRaw raw) := by
  cases raw with
  | some raw => exact emit_preserves (forward raw)
  | none => exact Preserves.pure ()

end Stages

/-! ## The raw evidence -/

/-- What a call does to the evidence of an acquisition. -/
def rawEffects (effects : List Effect) : List Effect :=
  effects.filter fun effect => match effect with
    | .record .. | .forward _ | .processed _ => true
    | _ => false

@[simp] theorem rawEffects_add (handling : Handling) (effect : Effect) :
    rawEffects (handling.add effect).effects =
      rawEffects handling.effects ++ rawEffects [effect] := by
  simp [rawEffects, Handling.add]

section RawEffects

open Transaction

def HasDone (done : List Effect) (handling : Handling) : Prop :=
  rawEffects handling.effects = done

theorem HasDone.add_other {done : List Effect} {handling : Handling} {effect : Effect}
    (other : rawEffects [effect] = []) (has : HasDone done handling) :
    HasDone done (handling.add effect) := by
  simpa [HasDone, other] using has

theorem verify_hasDone (done : List Effect) :
    Preserves (HasDone done) (received.verify externals crypto) :=
  fun _ has => has

def forwards (raw : Option Ref) : List Effect := (raw.map Effect.forward).toList

theorem forwardRaw_hasDone (raw : Option Ref) (done : List Effect) (handling : Handling)
    (has : HasDone done handling) :
    HasDone (done ++ forwards raw) ((forwardRaw raw).run handling).2 := by
  cases raw with
  | none =>
      have same : HasDone (done ++ forwards none) handling := by
        simpa [HasDone, forwards] using has
      exact same
  | some raw =>
      have added : rawEffects (handling.add (.forward raw)).effects = done ++ [.forward raw] := by
        rw [rawEffects_add, has]
        rfl
      exact added

/-- Only a call that returns the event forwards it. -/
theorem judge_hasDone (raw : Option Ref) (done : List Effect) :
    Triple (HasDone done) (received.judge externals crypto raw) fun outcome handling =>
      (HasDone done handling ∧ ∀ event, outcome ≠ .ok event) ∨
        (HasDone (done ++ forwards raw) handling ∧ outcome = .ok received.event) := by
  have failed : ∀ (error : Exit) (handling : Handling), HasDone done handling →
      (HasDone done handling ∧ ∀ event, Except.error error ≠ (.ok event : Except Exit Event)) ∨
        (HasDone (done ++ forwards raw) handling ∧
          Except.error error = (.ok received.event : Except Exit Event)) :=
    fun error handling has => .inl ⟨has, fun event absurd => by cases absurd⟩
  have quiet : ∀ effect, rawEffects [effect] = [] →
      ∀ handling, HasDone done handling → HasDone done (handling.add effect) :=
    fun effect other handling => HasDone.add_other other
  unfold judge
  refine Preserves.then_triple (received.checkEventSize_preserves externals) failed fun _ => ?_
  refine Preserves.then_triple received.checkTagsLimit_preserves failed fun _ => ?_
  refine Preserves.then_triple
    (received.checkSubscription_preserves (quiet _ rfl) (quiet _ rfl)) failed fun _ => ?_
  refine Preserves.then_triple received.checkExpiration_preserves failed fun _ => ?_
  refine Preserves.then_triple (received.verify_hasDone externals crypto done) failed fun _ => ?_
  refine Preserves.then_triple (received.admit_preserves (quiet _ rfl)) failed fun _ => ?_
  refine Preserves.then_triple (received.save_preserves _ (quiet _ rfl) (quiet _ rfl)) failed
    fun _ => ?_
  refine Preserves.then_triple (received.route_preserves _ (quiet _ rfl)) failed fun _ => ?_
  intro handling has
  have forwarded := forwardRaw_hasDone raw done handling has
  cases raw with
  | none => exact .inr ⟨forwarded, rfl⟩
  | some raw => exact .inr ⟨forwarded, rfl⟩

/-- What a call whose frame was recorded still does to the evidence: with the
event it returns, it forwards; then the frame is processed. -/
def AfterRecord (event : Event) (raw : Ref) (rest : List Effect) (outcome : Except Exit Event) :
    Prop :=
  (rest = [.processed raw] ∧ ∀ other, outcome ≠ .ok other) ∨
    (rest = [.forward raw, .processed raw] ∧ outcome = .ok event)

theorem dropFrame_afterRecord (raw : Ref) (createdAt : Timestamp) :
    Triple (HasDone [.record raw createdAt])
      (dropFrame (some raw) (received.judge externals crypto (some raw)))
      fun outcome handling => ∃ rest,
        rawEffects handling.effects = .record raw createdAt :: rest ∧
          AfterRecord received.event raw rest outcome := by
  intro handling has
  let judged := (received.judge externals crypto (some raw)).run handling
  have processed : rawEffects (judged.2.add (.processed raw)).effects =
      rawEffects judged.2.effects ++ [.processed raw] := by
    rw [rawEffects_add]
    rfl
  cases received.judge_hasDone externals crypto (some raw) [.record raw createdAt] handling has with
  | inl stopped =>
      obtain ⟨did, no_event⟩ := stopped
      exact ⟨[.processed raw], processed.trans (by rw [did]; rfl), .inl ⟨rfl, no_event⟩⟩
  | inr passed =>
      obtain ⟨did, outcome⟩ := passed
      exact ⟨[.forward raw, .processed raw], processed.trans (by rw [did]; rfl),
        .inr ⟨rfl, outcome⟩⟩

theorem attributeRaw_unregistered (own : received.ownAcquisitionId = true)
    (absent : received.answers.subscriptionAtArrival = none) (handling : Handling) :
    received.attributeRaw.run handling = (.error .ignored, handling) := by
  unfold attributeRaw
  rw [if_pos own, absent]
  rfl

theorem attributeRaw_registered {subscription : SubscriptionData} {raw : Ref}
    (own : received.ownAcquisitionId = true)
    (found : received.answers.subscriptionAtArrival = some subscription)
    (acquires : subscription.acquisition = some raw) (handling : Handling) :
    received.attributeRaw.run handling =
      (if received.answers.recorded then .ok (some raw) else .error .ignored,
        handling.add (.record raw received.event.createdAt)) := by
  unfold attributeRaw
  simp only [own, found, acquires, if_true]
  cases received.answers.recorded <;> rfl

theorem handle_unregistered (own : received.ownAcquisitionId = true)
    (absent : received.answers.subscriptionAtArrival = none) (cache : LruCache EventId) :
    received.handle externals crypto cache = ⟨.error .ignored, [], cache⟩ := by
  unfold handle handleEventMsg
  rw [run_bind, received.attributeRaw_unregistered own absent]

/-- The frame of a registered acquisition is recorded first. -/
theorem handle_registered {subscription : SubscriptionData} {raw : Ref}
    (own : received.ownAcquisitionId = true)
    (found : received.answers.subscriptionAtArrival = some subscription)
    (acquires : subscription.acquisition = some raw) (cache : LruCache EventId) :
    ∃ rest, rawEffects (received.handle externals crypto cache).effects =
        .record raw received.event.createdAt :: rest ∧
      if received.answers.recorded then
        AfterRecord received.event raw rest (received.handle externals crypto cache).outcome
      else rest = [] ∧ ∀ other, (received.handle externals crypto cache).outcome ≠ .ok other := by
  unfold handle handleEventMsg
  rw [run_bind, received.attributeRaw_registered own found acquires]
  cases received.answers.recorded with
  | true => exact received.dropFrame_afterRecord externals crypto raw _ _ rfl
  | false => exact ⟨[], rfl, rfl, fun other same => by cases same⟩

end RawEffects

end Received

end RustNostr.NostrSdk
