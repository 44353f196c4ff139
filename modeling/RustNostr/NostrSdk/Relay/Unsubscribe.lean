import Mathlib
import RustNostr.Library.Run
import RustNostr.Library.Transaction
import RustNostr.NostrSdk.Pool.RelayPool
import RustNostr.NostrSdk.Relay.Connection

/-!
# Subscriptions and the outbound channel

The registry of subscriptions of a relay, and the bounded channel for the messages to it
(`nostr-sdk/src/relay/inner.rs`). The connection, its statistics and the capabilities are
changed by others, so each call finds them in any state; what a call changes while it
holds the lock of the registry is one step.
-/

set_option autoImplicit false

namespace RustNostr.NostrSdk

open Library Transaction

/-! ## Whether messages can be sent -/

namespace Error

def notReady : Error := stateMsg "relay is initialized but not ready"

def sleeping : Error := stateMsg "relay is sleeping"

def writeDisabled : Error := ⟨.unsupported, "write actions are disabled"⟩

def readDisabled : Error := ⟨.unsupported, "read actions are disabled"⟩

def dispatcherFull : Error := stateMsg "can't send message to the transport dispatcher"

end Error

namespace RelayCapabilities

def canRead (capabilities : RelayCapabilities) : Bool :=
  capabilities.hasAny ((read.union gossip).union discovery)

def canWrite (capabilities : RelayCapabilities) : Bool := capabilities.hasAny (write.union gossip)

end RelayCapabilities

/-- The options by which a relay counts as operational. -/
structure OperationalOptions where
  sleepWhenIdle : Bool := false
  /-- In seconds, as is the latency. -/
  connectTimeout : Nat := 15
  maxAvgLatency : Option ℚ := none

/-- What a call finds of the connection, its statistics and the capabilities. -/
structure RelayFound where
  status : RelayStatus
  attempts : Nat
  success : Nat
  wokeUpAt : Timestamp
  now : Timestamp
  latency : Option ℚ
  capabilities : RelayCapabilities

def minAttempts : Nat := 1

def minSuccessRate : ℚ := 9 / 10

namespace RelayFound

/-- A fraction: the comparison with `minSuccessRate` comes out as that of the floats
does, for counts below `2 ^ 49`. -/
def successRate (found : RelayFound) : ℚ :=
  if 0 < found.attempts then (found.success : ℚ) / (found.attempts : ℚ) else 0

def deliveryConnection (found : RelayFound) : Nat :=
  if found.status.isConnected then found.success else found.success + 1

/-- A sleeping relay is woken up, which changes the connection only; `Timestamp + Duration`
saturates. -/
def ensureOperational (found : RelayFound) (opts : OperationalOptions) : Except Error Unit := do
  if found.status = .initialized then throw .notReady
  if found.status.isBanned then throw .banned
  if !opts.sleepWhenIdle && found.status = .sleeping then throw .sleeping
  if !found.status.isConnected && minAttempts < found.attempts && found.successRate < minSuccessRate &&
      min (found.wokeUpAt.toNat + opts.connectTimeout) 18446744073709551615 < found.now.toNat then
    throw .notConnected
  if opts.maxAvgLatency.any fun max => found.latency.any fun current => max < current then
    throw (.limitExceeded "maximum latency exceeded")

def ensureMsgAllowed (found : RelayFound) (msg : ClientMessage) : Except Error Unit := do
  if !found.capabilities.canWrite && msg.isEvent then throw .writeDisabled
  if !found.capabilities.canRead && (msg.isReq || msg.isClose) then throw .readDisabled

end RelayFound

/-! ## The registry and the channel -/

/-- A REQ that its subscription counts as pending as long as it is queued. -/
structure PendingReq where
  subscriptionId : SubscriptionId
  counter : Ref
  deriving DecidableEq

/-- A queued message, whose JSON text is what is sent. -/
structure JsonMessageItem where
  msg : ClientMessage
  pendingReq : Option PendingReq := none

/-- The capacity of the channel to the transport dispatcher. -/
def channelCapacity : Nat := 1024

structure RelaySubscriptions where
  subscriptions : SortedTable SubscriptionId SubscriptionData := .empty
  nostr : List JsonMessageItem := []
  /-- The pending REQ taken out of the channel that is not yet marked as started. -/
  starting : Option PendingReq := none
  /-- How many counters of pending REQs were made. -/
  counters : Nat := 0

namespace RelaySubscriptions

/-- How many REQs a counter counts. -/
def pending (relay : RelaySubscriptions) (counter : Ref) : Nat :=
  ((relay.starting.toList ++ relay.nostr.filterMap JsonMessageItem.pendingReq).map
    PendingReq.counter).count counter

def updateData (relay : RelaySubscriptions) (id : SubscriptionId)
    (update : SubscriptionData → SubscriptionData) : RelaySubscriptions :=
  match relay.subscriptions.get? id with
  | some data => { relay with subscriptions := relay.subscriptions.put id (update data) }
  | none => relay

abbrev Call (α : Type) := Transaction Error RelaySubscriptions α

def sendClientMsg (item : JsonMessageItem) : Call Unit := do
  let relay ← get
  if relay.nostr.length < channelCapacity then
    modify fun relay => { relay with nostr := relay.nostr ++ [item] }
  else throw .dispatcherFull

/-- All of the messages are queued or none. -/
def sendClientMsgs (items : List JsonMessageItem) : Call Unit := do
  let relay ← get
  if relay.nostr.length + items.length ≤ channelCapacity then
    modify fun relay => { relay with nostr := relay.nostr ++ items }
  else throw .dispatcherFull

/-- A REQ of a long-lived subscription is tracked by the counter of that subscription. -/
def track (relay : RelaySubscriptions) (msg : ClientMessage) : JsonMessageItem where
  msg := msg
  pendingReq :=
    match msg with
    | .req id _ => (relay.subscriptions.get? id).bind fun data => data.pendingReqCounter.map (⟨id, ·⟩)
    | _ => none

def queueMsg (msg : ClientMessage) : Call Unit := do
  let relay ← get
  sendClientMsg (relay.track msg)

variable (opts : OperationalOptions) (found : RelayFound)

def sendMsg (msg : ClientMessage) : Call Unit := do
  ofExcept (found.ensureOperational opts)
  ofExcept (found.ensureMsgAllowed msg)
  queueMsg msg

def sendMsgBatch (msgs : List ClientMessage) : Call Unit := do
  ofExcept (found.ensureOperational opts)
  ofExcept (msgs.forM found.ensureMsgAllowed)
  let relay ← get
  sendClientMsgs (msgs.map relay.track)

def existingId : Error := .invalidMsg "subscription ID already exists"

def addLongLivedSubscription (id : SubscriptionId) (filters : List Filter) : Call Unit := do
  let relay ← get
  if (relay.subscriptions.get? id).isSome then throw existingId
  modify fun relay =>
    { relay with
      subscriptions :=
        relay.subscriptions.put id (.longLived filters found.deliveryConnection relay.counters)
      counters := relay.counters + 1 }

def registerAutoClosingSubscription (id : SubscriptionId) (filters : List Filter)
    (acquisition : Option Ref) : Call Unit := do
  let relay ← get
  if (relay.subscriptions.get? id).isSome then throw existingId
  modify fun relay =>
    { relay with subscriptions := relay.subscriptions.put id (.autoClosing filters acquisition) }

def updateAutoClosingSubscription (id : SubscriptionId) (filters : List Filter) : Call Unit := do
  let relay ← get
  if (relay.subscriptions.get? id).isNone then throw (.notFound "subscription not found")
  modify fun relay => relay.updateData id fun data => .autoClosing filters data.acquisition

def removeSubscription (id : SubscriptionId) (relay : RelaySubscriptions) : RelaySubscriptions :=
  { relay with subscriptions := relay.subscriptions.delete id }

def subscriptionClosed (id : SubscriptionId) (relay : RelaySubscriptions) : RelaySubscriptions :=
  relay.updateData id fun data => { data with closed := true }

def receivedEose (id : SubscriptionId) (relay : RelaySubscriptions) : RelaySubscriptions :=
  relay.updateData id fun data => { data with receivedEose := true }

/-- An event of the subscription that counts toward its limit. -/
def receivedEvent (id : SubscriptionId) (relay : RelaySubscriptions) : RelaySubscriptions :=
  relay.updateData id fun data => { data with receivedEvents := data.receivedEvents + 1 }

/-- The subscription as it is on a session that has just been sent its REQ. -/
def restart (connection : Nat) (data : SubscriptionData) : SubscriptionData :=
  { data with
    subscribedConnection := connection
    closed := false
    receivedEose := false
    receivedEvents := 0 }

def subscriptionReqStarted (request : PendingReq) (relay : RelaySubscriptions) :
    RelaySubscriptions :=
  relay.updateData request.subscriptionId fun data =>
    if data.pendingReqCounter = some request.counter then restart found.success data else data

/-- `recv_client_msg`: the sender of the session takes the next message. -/
def recvClientMsg (relay : RelaySubscriptions) : RelaySubscriptions :=
  { relay with
    nostr := relay.nostr.tail
    starting := relay.nostr.head?.bind JsonMessageItem.pendingReq }

/-- What the sender does with the pending REQ that it has taken, unless it is cancelled. -/
def dispatch (cancelled : Bool) (relay : RelaySubscriptions) : RelaySubscriptions :=
  match relay.starting with
  | some request =>
      { if cancelled then relay else relay.subscriptionReqStarted found request with starting := none }
  | none => relay

def queueResubscription (id : SubscriptionId) : Call Bool := do
  let relay ← get
  match relay.subscriptions.get? id with
  | none => return false
  | some data =>
      if data.filters.isEmpty || !data.needsRestore relay.pending found.success then return false
      let msg := ClientMessage.req id data.filters
      modify fun relay => relay.updateData id (restart found.success)
      let queued : Call Unit := do
        ofExcept (found.ensureOperational opts)
        ofExcept (found.ensureMsgAllowed msg)
        sendClientMsg (relay.track msg)
      tryCatch queued fun error => do
        -- Keep it restorable on the next attempt.
        modify (subscriptionClosed id)
        throw error
      return true

def reissueSubscription (id : SubscriptionId) : Call Unit := do
  ofExcept (found.ensureOperational opts)
  if !found.capabilities.canRead then throw .readDisabled
  let relay ← get
  match relay.subscriptions.get? id with
  | none => throw (.notFound "subscription not found")
  | some data =>
      if data.isAutoClosing then
        throw (.invalidMsg "auto-closing subscriptions can't be reissued")
      sendClientMsgs [⟨.close id, none⟩, relay.track (.req id data.filters)]

/-- `_unsubscribe_long_lived_subscription` -/
def unsubscribe (id : SubscriptionId) : Call Bool := do
  let relay ← get
  match relay.subscriptions.get? id with
  | some sub =>
      modify (removeSubscription id)
      if sub.isAutoClosing then
        modify fun relay => { relay with subscriptions := relay.subscriptions.put id sub }
        return false
      sendMsg opts found (.close id)
      return true
  | none => return false

/-- What is done to the subscriptions and the channel; every call finds the connection in
some state. `unsubscribe_all` is one `unsubscribe` after the other. -/
inductive Label where
  | addLongLived (found : RelayFound) (id : SubscriptionId) (filters : List Filter)
  | registerAutoClosing (id : SubscriptionId) (filters : List Filter) (acquisition : Option Ref)
  | updateAutoClosing (id : SubscriptionId) (filters : List Filter)
  | remove (id : SubscriptionId)
  | closed (id : SubscriptionId)
  | eose (id : SubscriptionId)
  | event (id : SubscriptionId)
  | sendMsg (found : RelayFound) (msg : ClientMessage)
  | sendMsgBatch (found : RelayFound) (msgs : List ClientMessage)
  | resubscribe (found : RelayFound) (id : SubscriptionId)
  | reissue (found : RelayFound) (id : SubscriptionId)
  | recv
  | dispatch (found : RelayFound) (cancelled : Bool)
  | unsubscribe (found : RelayFound) (id : SubscriptionId) (result : Except Error Bool)

def Step (before : RelaySubscriptions) : Label → RelaySubscriptions → Prop
  | .addLongLived found id filters, after =>
      after = ((addLongLivedSubscription found id filters).run before).2
  | .registerAutoClosing id filters acquisition, after =>
      after = ((registerAutoClosingSubscription id filters acquisition).run before).2
  | .updateAutoClosing id filters, after =>
      after = ((updateAutoClosingSubscription id filters).run before).2
  | .remove id, after => after = before.removeSubscription id
  | .closed id, after => after = before.subscriptionClosed id
  | .eose id, after => after = before.receivedEose id
  | .event id, after => after = before.receivedEvent id
  | .sendMsg found msg, after => after = ((RelaySubscriptions.sendMsg opts found msg).run before).2
  | .sendMsgBatch found msgs, after =>
      after = ((RelaySubscriptions.sendMsgBatch opts found msgs).run before).2
  | .resubscribe found id, after => after = ((queueResubscription opts found id).run before).2
  | .reissue found id, after => after = ((reissueSubscription opts found id).run before).2
  | .recv, after => before.starting = none ∧ after = before.recvClientMsg
  | .dispatch found cancelled, after => after = before.dispatch found cancelled
  | .unsubscribe found id result, after =>
      (RelaySubscriptions.unsubscribe opts found id).run before = (result, after)

/-! ## What unsubscribing does -/

/-- Whether a CLOSE gets through the checks and into the channel. -/
def CanClose (relay : RelaySubscriptions) : Prop :=
  found.ensureOperational opts = .ok () ∧ found.capabilities.canRead = true ∧
    relay.nostr.length < channelCapacity

variable {opts found} {relay before after : RelaySubscriptions} {id : SubscriptionId}

theorem run_sendClientMsg (item : JsonMessageItem) :
    (sendClientMsg item).run relay =
      if relay.nostr.length < channelCapacity then
        (.ok (), { relay with nostr := relay.nostr ++ [item] })
      else (.error .dispatcherFull, relay) := by
  unfold sendClientMsg
  rw [run_get_bind]
  split <;> rfl

theorem run_queueMsg_close :
    (queueMsg (.close id)).run relay = (sendClientMsg ⟨.close id, none⟩).run relay := rfl

theorem ensureMsgAllowed_close (canRead : found.capabilities.canRead = true) :
    found.ensureMsgAllowed (.close id) = .ok () := by
  simp only [RelayFound.ensureMsgAllowed, ClientMessage.isEvent, canRead, Bool.and_false,
    Bool.not_true, Bool.false_and]
  rfl

theorem ensureMsgAllowed_close_error (canRead : ¬ found.capabilities.canRead = true) :
    found.ensureMsgAllowed (.close id) = .error .readDisabled := by
  simp only [RelayFound.ensureMsgAllowed, ClientMessage.isEvent, ClientMessage.isClose, canRead,
    Bool.and_false, Bool.or_true, Bool.not_false, Bool.and_true]
  rfl

theorem sendMsg_close (can : CanClose opts found relay) :
    (sendMsg opts found (.close id)).run relay =
      (.ok (), { relay with nostr := relay.nostr ++ [⟨.close id, none⟩] }) := by
  obtain ⟨operational, canRead, room⟩ := can
  unfold sendMsg
  rw [operational, run_ofExcept_ok_bind, ensureMsgAllowed_close canRead, run_ofExcept_ok_bind, run_queueMsg_close,
    run_sendClientMsg, if_pos room]

/-- A CLOSE that does not get through leaves the state as it is. -/
theorem sendMsg_close_error (cannot : ¬ CanClose opts found relay) :
    ∃ error, (sendMsg opts found (.close id)).run relay = (.error error, relay) := by
  unfold sendMsg
  cases operational : found.ensureOperational opts with
  | error error => exact ⟨error, run_ofExcept_error_bind error _ relay⟩
  | ok _ =>
      rw [run_ofExcept_ok_bind]
      by_cases canRead : found.capabilities.canRead = true
      · have full : ¬ relay.nostr.length < channelCapacity :=
          fun room => cannot ⟨operational, canRead, room⟩
        rw [ensureMsgAllowed_close canRead, run_ofExcept_ok_bind, run_queueMsg_close, run_sendClientMsg,
          if_neg full]
        exact ⟨_, rfl⟩
      · rw [ensureMsgAllowed_close_error canRead]
        exact ⟨.readDisabled, run_ofExcept_error_bind _ _ relay⟩

theorem unsubscribe_unregistered (none : relay.subscriptions.get? id = none) :
    (unsubscribe opts found id).run relay = (.ok false, relay) := by
  unfold unsubscribe
  rw [run_get_bind, none]
  rfl

theorem unsubscribe_autoClosing {data : SubscriptionData}
    (registered : relay.subscriptions.get? id = some data) (autoClosing : data.isAutoClosing = true) :
    (unsubscribe opts found id).run relay = (.ok false, relay) := by
  have same : (relay.subscriptions.delete id).put id data = relay.subscriptions := by
    apply SortedTable.ext_get?
    intro other
    rw [SortedTable.get?_put, SortedTable.get?_delete]
    split
    · next here => rw [here, registered]
    · rfl
  unfold unsubscribe
  rw [run_get_bind, registered]
  simp only [autoClosing, if_true]
  change (Except.ok false, { relay with subscriptions := (relay.subscriptions.delete id).put id data }) = _
  rw [same]

theorem run_unsubscribe_longLived {data : SubscriptionData}
    (registered : relay.subscriptions.get? id = some data) (longLived : data.isAutoClosing = false) :
    (unsubscribe opts found id).run relay =
      (sendMsg opts found (.close id) >>= fun _ => pure true).run (relay.removeSubscription id) := by
  unfold unsubscribe
  rw [run_get_bind, registered]
  simp only [longLived]
  rfl

theorem unsubscribe_longLived {data : SubscriptionData}
    (registered : relay.subscriptions.get? id = some data) (longLived : data.isAutoClosing = false)
    (can : CanClose opts found relay) :
    (unsubscribe opts found id).run relay =
      (.ok true, { relay.removeSubscription id with nostr := relay.nostr ++ [⟨.close id, none⟩] }) := by
  have canRemoved : CanClose opts found (relay.removeSubscription id) := can
  rw [run_unsubscribe_longLived registered longLived, run_bind, sendMsg_close canRemoved]
  rfl

/-- An error leaves the subscription unregistered that the relay still has open. -/
theorem unsubscribe_error {data : SubscriptionData}
    (registered : relay.subscriptions.get? id = some data) (longLived : data.isAutoClosing = false)
    (cannot : ¬ CanClose opts found relay) :
    ∃ error, (unsubscribe opts found id).run relay = (.error error, relay.removeSubscription id) := by
  have cannotRemoved : ¬ CanClose opts found (relay.removeSubscription id) := cannot
  obtain ⟨error, ran⟩ := sendMsg_close_error cannotRemoved
  exact ⟨error, by rw [run_unsubscribe_longLived registered longLived, run_bind, ran]⟩

/-- An error changes nothing. Where a long-lived subscription has been unsubscribed, it is
gone, as the only one, and one CLOSE is queued for it; `Ok(false)` is for an id without a
long-lived subscription. -/
structure Atomic (before : RelaySubscriptions) (id : SubscriptionId) (result : Except Error Bool)
    (after : RelaySubscriptions) : Prop where
  error : ∀ error, result = .error error → after = before
  unsubscribed : result = .ok true →
    (before.subscriptions.get? id).isSome ∧ after.subscriptions.get? id = none ∧
      (∀ other, other ≠ id → after.subscriptions.get? other = before.subscriptions.get? other) ∧
      after.nostr = before.nostr ++ [⟨.close id, none⟩]
  kept : result = .ok false →
    after = before ∧ ∀ data, before.subscriptions.get? id = some data → data.isAutoClosing = true

theorem Atomic.of_kept
    (kept : ∀ data, before.subscriptions.get? id = some data → data.isAutoClosing = true) :
    Atomic before id (.ok false) before where
  error _ failed := by cases failed
  unsubscribed closed := by cases closed
  kept _ := ⟨rfl, kept⟩

theorem Atomic.of_unsubscribed (registered : (before.subscriptions.get? id).isSome) :
    Atomic before id (.ok true)
      { before.removeSubscription id with nostr := before.nostr ++ [⟨.close id, none⟩] } where
  error _ failed := by cases failed
  unsubscribed _ := by
    refine ⟨registered, ?_, ?_, rfl⟩
    · exact (SortedTable.get?_delete _ id id).trans (if_pos rfl)
    · intro other different
      exact (SortedTable.get?_delete _ id other).trans (if_neg different)
  kept unchanged := by cases unchanged

/-- The subscription is gone although the call failed. -/
theorem not_atomic_of_error {error : Error} {data : SubscriptionData}
    (registered : before.subscriptions.get? id = some data) :
    ¬ Atomic before id (.error error) (before.removeSubscription id) := by
  intro atomic
  have gone : (before.removeSubscription id).subscriptions.get? id = none :=
    (SortedTable.get?_delete _ id id).trans (if_pos rfl)
  rw [atomic.error error rfl, registered] at gone
  cases gone

theorem Step.atomic_iff {result : Except Error Bool}
    (step : Step opts before (.unsubscribe found id result) after) :
    Atomic before id result after ↔
      ∀ data, before.subscriptions.get? id = some data → data.isAutoClosing = false →
        CanClose opts found before := by
  have ran : (unsubscribe opts found id).run before = (result, after) := step
  cases registered : before.subscriptions.get? id with
  | none =>
      rw [unsubscribe_unregistered registered] at ran
      cases ran
      simp only [reduceCtorEq, false_implies, implies_true, iff_true]
      exact .of_kept (by simp [registered])
  | some data =>
      cases closing : data.isAutoClosing with
      | true =>
          rw [unsubscribe_autoClosing registered closing] at ran
          cases ran
          have kept : ∀ other, before.subscriptions.get? id = some other → other.isAutoClosing = true := by
            simpa [registered] using closing
          simpa [closing] using Atomic.of_kept kept
      | false =>
          by_cases can : CanClose opts found before
          · rw [unsubscribe_longLived registered closing can] at ran
            cases ran
            exact iff_of_true (.of_unsubscribed (by rw [registered]; rfl)) fun _ _ _ => can
          · obtain ⟨error, failed⟩ := @unsubscribe_error opts found _ _ _ registered closing can
            rw [failed] at ran
            cases ran
            exact iff_of_false (not_atomic_of_error registered) fun always =>
              can (always data rfl closing)

/-- In every run each unsubscription is atomic exactly where, for a long-lived
subscription, its CLOSE gets through. -/
theorem unsubscribe_atomic_iff {earlier later : List Label} {result : Except Error Bool}
    {finish : RelaySubscriptions}
    (run : Run (Step opts) {} (earlier ++ .unsubscribe found id result :: later) finish) :
    ∃ before after, Run (Step opts) {} earlier before ∧
      Step opts before (.unsubscribe found id result) after ∧ Run (Step opts) after later finish ∧
      (Atomic before id result after ↔
        ∀ data, before.subscriptions.get? id = some data → data.isAutoClosing = false →
          CanClose opts found before) := by
  obtain ⟨before, reached, rest⟩ := run.cut
  obtain ⟨after, step, rest⟩ := rest.first
  exact ⟨before, after, reached, step, rest, step.atomic_iff⟩

/-- A connected relay with the default capabilities. -/
def connectedRelay : RelayFound where
  status := .connected
  attempts := 1
  success := 1
  wokeUpAt := 0
  now := 0
  latency := none
  capabilities := RelayCapabilities.read.union .write

/-- The same relay after it has been banned. -/
def bannedRelay : RelayFound := { connectedRelay with status := .banned }

/-- A relay with one subscription. -/
def subscribed : RelaySubscriptions where
  subscriptions := .put .empty "feed" (.longLived [{}] 1 0)
  counters := 1

theorem run_subscribed : Run (Step {}) {} [.addLongLived connectedRelay "feed" [{}]] subscribed :=
  Run.nil.snoc rfl

theorem subscribed_get? : subscribed.subscriptions.get? "feed" = some (.longLived [{}] 1 0) :=
  (SortedTable.get?_put _ "feed" "feed" _).trans (if_pos rfl)

theorem canClose_connectedRelay : CanClose {} connectedRelay subscribed := by
  refine ⟨rfl, ?_, ?_⟩
  · decide +kernel
  · decide

theorem unsubscribe_atomic_iff_connected :
    ∃ finish, Run (Step {}) {} ([.addLongLived connectedRelay "feed" [{}]] ++
        .unsubscribe connectedRelay "feed" (.ok true) :: []) finish ∧
      ∃ before after, Run (Step {}) {} [.addLongLived connectedRelay "feed" [{}]] before ∧
        Step {} before (.unsubscribe connectedRelay "feed" (.ok true)) after ∧
        Run (Step {}) after [] finish ∧
        (Atomic before "feed" (.ok true) after ↔
          ∀ data, before.subscriptions.get? "feed" = some data → data.isAutoClosing = false →
            CanClose {} connectedRelay before) := by
  have step : Step {} subscribed (.unsubscribe connectedRelay "feed" (.ok true)) _ :=
    unsubscribe_longLived subscribed_get? rfl canClose_connectedRelay
  have run := run_subscribed.snoc step
  exact ⟨_, run, unsubscribe_atomic_iff run⟩

/-- The relay has been banned since it was subscribed to: the call fails, and the
subscription is gone from the registry although no CLOSE was queued. -/
theorem unsubscribe_not_atomic :
    ∃ before after, Run (Step {}) {} [.addLongLived connectedRelay "feed" [{}]] before ∧
      Step {} before (.unsubscribe bannedRelay "feed" (.error .banned)) after ∧
      before.subscriptions.get? "feed" ≠ none ∧ after.subscriptions.get? "feed" = none ∧
      after.nostr = [] ∧ ¬ Atomic before "feed" (.error .banned) after := by
  have ran : (unsubscribe {} bannedRelay "feed").run subscribed =
      (.error .banned, subscribed.removeSubscription "feed") := by
    rw [run_unsubscribe_longLived subscribed_get? rfl]
    rfl
  refine ⟨subscribed, _, run_subscribed, ran, ?_, ?_, rfl, not_atomic_of_error subscribed_get?⟩
  · rw [subscribed_get?]
    exact Option.some_ne_none _
  · exact (SortedTable.get?_delete _ "feed" "feed").trans (if_pos rfl)

/-! ## What a failed unsubscription leaves behind -/

/-- The labels after which the id may be registered. -/
def Label.Registers (id : SubscriptionId) : Label → Prop
  | .addLongLived _ other _ => other = id
  | .registerAutoClosing other _ _ => other = id
  | _ => False

/-- No subscription has the id. -/
def Unregistered (id : SubscriptionId) (relay : RelaySubscriptions) : Prop :=
  relay.subscriptions.get? id = none

namespace Unregistered

theorem put {other : SubscriptionId} {data : SubscriptionData} (different : id ≠ other)
    (unregistered : relay.Unregistered id) :
    Unregistered id { relay with subscriptions := relay.subscriptions.put other data } :=
  (SortedTable.get?_put _ other id data).trans ((if_neg different).trans unregistered)

theorem removeSubscription (other : SubscriptionId) (unregistered : relay.Unregistered id) :
    (relay.removeSubscription other).Unregistered id := by
  refine (SortedTable.get?_delete _ other id).trans ?_
  split
  · rfl
  · exact unregistered

/-- Only what is registered is updated. -/
theorem updateData (other : SubscriptionId) (update : SubscriptionData → SubscriptionData)
    (unregistered : relay.Unregistered id) : (relay.updateData other update).Unregistered id := by
  unfold RelaySubscriptions.updateData
  split
  · next data registered =>
      apply unregistered.put
      rintro rfl
      rw [unregistered] at registered
      cases registered
  · exact unregistered

theorem sendClientMsg (item : JsonMessageItem) :
    Preserves (Unregistered id) (RelaySubscriptions.sendClientMsg item) :=
  Preserves.get_then fun _ => .ite (.modify fun _ kept => kept) (.throw _)

theorem sendClientMsgs (items : List JsonMessageItem) :
    Preserves (Unregistered id) (RelaySubscriptions.sendClientMsgs items) :=
  Preserves.get_then fun _ => .ite (.modify fun _ kept => kept) (.throw _)

theorem sendMsg (msg : ClientMessage) :
    Preserves (Unregistered id) (RelaySubscriptions.sendMsg opts found msg) :=
  .bind (.ofExcept _) fun _ => .bind (.ofExcept _) fun _ => .get_then fun _ => sendClientMsg _

theorem sendMsgBatch (msgs : List ClientMessage) :
    Preserves (Unregistered id) (RelaySubscriptions.sendMsgBatch opts found msgs) :=
  .bind (.ofExcept _) fun _ => .bind (.ofExcept _) fun _ => .get_then fun _ => sendClientMsgs _

theorem addLongLivedSubscription {other : SubscriptionId} (filters : List Filter) (different : id ≠ other) :
    Preserves (Unregistered id) (RelaySubscriptions.addLongLivedSubscription found other filters) :=
  .get_then fun _ => .ite (.throw _) (.modify fun _ kept => kept.put different)

theorem registerAutoClosingSubscription {other : SubscriptionId} (filters : List Filter)
    (acquisition : Option Ref) (different : id ≠ other) :
    Preserves (Unregistered id)
      (RelaySubscriptions.registerAutoClosingSubscription other filters acquisition) :=
  .get_then fun _ => .ite (.throw _) (.modify fun _ kept => kept.put different)

theorem updateAutoClosingSubscription (other : SubscriptionId) (filters : List Filter) :
    Preserves (Unregistered id) (RelaySubscriptions.updateAutoClosingSubscription other filters) :=
  .get_then fun _ => .ite (.throw _) (.modify fun _ kept => kept.updateData other _)

theorem dispatch (cancelled : Bool) (unregistered : relay.Unregistered id) :
    (relay.dispatch found cancelled).Unregistered id := by
  unfold RelaySubscriptions.dispatch
  split
  · cases cancelled with
    | true => exact unregistered
    | false => exact unregistered.updateData _ _
  · exact unregistered

theorem queueResubscription (other : SubscriptionId) :
    Preserves (Unregistered id) (RelaySubscriptions.queueResubscription opts found other) := by
  refine .get_then fun relay => ?_
  cases relay.subscriptions.get? other with
  | none => exact .pure false
  | some data =>
      refine .ite (.pure false) ?_
      refine .bind (.modify fun _ kept => kept.updateData _ _) fun _ => ?_
      refine .bind ?_ fun _ => .pure true
      refine .tryCatch ?_ fun error => ?_
      · exact .bind (.ofExcept _) fun _ => .bind (.ofExcept _) fun _ => sendClientMsg _
      · exact .bind (.modify fun _ kept => kept.updateData _ _) fun _ => .throw error

theorem reissueSubscription (other : SubscriptionId) :
    Preserves (Unregistered id) (RelaySubscriptions.reissueSubscription opts found other) := by
  refine .bind (.ofExcept _) fun _ => .ite (.throw _) (.get_then fun relay => ?_)
  cases relay.subscriptions.get? other with
  | none => exact .throw _
  | some data => exact .ite (.throw _) (sendClientMsgs _)

theorem unsubscribe (other : SubscriptionId) :
    Preserves (Unregistered id) (RelaySubscriptions.unsubscribe opts found other) := by
  intro relay unregistered
  cases registered : relay.subscriptions.get? other with
  | none => rwa [unsubscribe_unregistered registered]
  | some data =>
      cases closing : data.isAutoClosing with
      | true => rwa [unsubscribe_autoClosing registered closing]
      | false =>
          by_cases can : CanClose opts found relay
          · rw [unsubscribe_longLived registered closing can]
            exact unregistered.removeSubscription other
          · obtain ⟨error, failed⟩ := @unsubscribe_error opts found _ _ _ registered closing can
            rw [failed]
            exact unregistered.removeSubscription other

theorem step {label : Label} (unregistered : before.Unregistered id)
    (registersNot : ¬ label.Registers id) (step : Step opts before label after) :
    after.Unregistered id := by
  cases label with
  | addLongLived found other filters =>
      cases step
      exact addLongLivedSubscription filters (Ne.symm registersNot) before unregistered
  | registerAutoClosing other filters acquisition =>
      cases step
      exact registerAutoClosingSubscription filters acquisition (Ne.symm registersNot) before unregistered
  | updateAutoClosing other filters =>
      cases step
      exact updateAutoClosingSubscription other filters before unregistered
  | remove other =>
      cases step
      exact unregistered.removeSubscription other
  | closed other =>
      cases step
      exact unregistered.updateData other _
  | eose other =>
      cases step
      exact unregistered.updateData other _
  | event other =>
      cases step
      exact unregistered.updateData other _
  | sendMsg found msg =>
      cases step
      exact sendMsg msg before unregistered
  | sendMsgBatch found msgs =>
      cases step
      exact sendMsgBatch msgs before unregistered
  | resubscribe found other =>
      cases step
      exact queueResubscription other before unregistered
  | reissue found other =>
      cases step
      exact reissueSubscription other before unregistered
  | recv =>
      rw [step.2]
      exact unregistered
  | dispatch found cancelled =>
      cases step
      exact unregistered.dispatch cancelled
  | unsubscribe found other result =>
      have ran : (RelaySubscriptions.unsubscribe opts found other).run before = (result, after) := step
      have kept := @unsubscribe opts found _ other before unregistered
      rw [ran] at kept
      exact kept

end Unregistered

theorem Step.unregistered_of_error {error : Error}
    (step : Step opts before (.unsubscribe found id (.error error)) after) : after.Unregistered id := by
  have ran : (unsubscribe opts found id).run before = (.error error, after) := step
  cases registered : before.subscriptions.get? id with
  | none =>
      rw [unsubscribe_unregistered registered] at ran
      cases ran
  | some data =>
      cases closing : data.isAutoClosing with
      | true =>
          rw [unsubscribe_autoClosing registered closing] at ran
          cases ran
      | false =>
          by_cases can : CanClose opts found before
          · rw [unsubscribe_longLived registered closing can] at ran
            cases ran
          · obtain ⟨_, failed⟩ := @unsubscribe_error opts found _ _ _ registered closing can
            rw [failed] at ran
            cases ran
            exact (SortedTable.get?_delete _ id id).trans (if_pos rfl)

/-- A failed unsubscription is final: until the id is registered anew, every further one
does nothing, and the subscription stays open on the relay. -/
theorem unsubscribe_again {between : List Label} {error : Error} {result : Except Error Bool}
    {failed later finish : RelaySubscriptions} {foundLater : RelayFound}
    (failing : Step opts before (.unsubscribe found id (.error error)) failed)
    (run : Run (Step opts) failed between later)
    (registersNot : ∀ label ∈ between, ¬ label.Registers id)
    (again : Step opts later (.unsubscribe foundLater id result) finish) :
    result = .ok false ∧ finish = later := by
  have unregistered : (∀ label ∈ between, ¬ label.Registers id) → later.Unregistered id := by
    refine @Run.invariant _ _ _ _ _ _
      (fun labels state => (∀ label ∈ labels, ¬ label.Registers id) → state.Unregistered id) ?_ ?_ run
    · exact fun _ => failing.unregistered_of_error
    · intro labels state label state' holds step others
      have before := holds fun other member => others other (List.mem_append_left _ member)
      exact before.step (others label (List.mem_append_right _ List.mem_cons_self)) step
  have ran : (unsubscribe opts foundLater id).run later = (result, finish) := again
  rw [unsubscribe_unregistered (unregistered registersNot)] at ran
  cases ran
  exact ⟨rfl, rfl⟩

end RelaySubscriptions

end RustNostr.NostrSdk
