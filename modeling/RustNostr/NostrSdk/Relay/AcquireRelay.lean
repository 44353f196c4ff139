import Mathlib
import RustNostr.NostrSdk.Relay.HandleEvent

/-!
# A bounded acquisition at one relay

`acquire_relay` and the two tasks it works with: the connection's frame handler
(`handle_relay_message` in `nostr-sdk/src/relay/inner.rs`) and the auto-closing
handler. They share the evidence of the request, the queue of notifications and
a channel that holds one activity. Between two steps of a task, which it makes
under one lock or between two awaits, the others may make any number of theirs.

`SubscribeAutoCloseOptions` are the defaults here: no timeout but the deadline
of the acquisition.
-/

set_option autoImplicit false

namespace RustNostr.NostrSdk

open Library

/-- A `RelayNotification`, as far as it concerns one request. -/
inductive Notification where
  | event (event : Event)
  | eose
  | closed (message : String)
  | authenticated
  | authenticationFailed
  /-- A status for which `is_connection_closed` holds. -/
  | connectionClosed
  | other
  deriving DecidableEq

/-- `SubscriptionActivity` -/
inductive Activity where
  | receivedEvent (event : Event)
  | closed (reason : AutoClosedReason)
  deriving DecidableEq

/-- Whether a CLOSED leaves the subscription registered (`HandleClosedMsg`). -/
def marksAsClosed (authenticator : Bool) (message : String) : Bool :=
  match MachineReadablePrefix.parse message with
  | some .rateLimited => true
  | some .authRequired => authenticator
  | _ => false

/-- One request: what its tasks are given. -/
structure Request where
  externals : Externals
  crypto : Crypto
  opts : RelayOptions
  authenticator : Bool
  acquisitionNamespace : String
  subscriptionId : SubscriptionId
  own : acquisitionNamespace.toList.isPrefixOf subscriptionId.toList = true
  /-- The `RawAcquisition`. -/
  raw : Ref
  limits : AcquisitionLimits

/-- An EVENT with the identifier of the request. -/
def Request.received (request : Request) (answers : Answers) (event : Event) : Received where
  opts := request.opts
  acquisitionNamespace := request.acquisitionNamespace
  answers := answers
  subscriptionId := request.subscriptionId
  event := event

/-! ## The frame handler -/

namespace Effect

/-- What an effect does to the evidence. -/
def onRaw : Effect → RawAcquisition → RawAcquisition
  | record _ createdAt, raw => (raw.record createdAt).2
  | forward _, raw => raw.forward
  | processed _, raw => raw.processed
  | _, raw => raw

def isRecord : Effect → Bool
  | record .. => true
  | _ => false

def isForward : Effect → Bool
  | forward _ => true
  | _ => false

def isProcessed : Effect → Bool
  | processed _ => true
  | _ => false

end Effect

def applyEffects (effects : List Effect) (raw : RawAcquisition) : RawAcquisition :=
  effects.foldl (fun raw effect => effect.onRaw raw) raw

/-- Where the handler is with the frame it works on. -/
inductive Frame where
  | idle
  /-- An EVENT between its attribution and the last await. -/
  | validating (effects : List Effect) (outcome : Except Exit Event)
  /-- After the last await, with what is left to do. -/
  | acting (effects : List Effect) (outcome : Except Exit Event)
  | announcing (notification : Notification)

/-! ## The auto-closing handler -/

inductive HandlerPhase where
  | unspawned
  | spawned
  | listening
  /-- `post_eose_grace` -/
  | grace
  /-- Waits for room in the activity channel. -/
  | sending (event : Event) (inGrace : Bool)
  | ended (reason : Option AutoClosedReason)
  /-- The evidence is closed and the reason is still to be sent. -/
  | reporting (reason : Option AutoClosedReason)
  | finished
  deriving DecidableEq

/-- Whether `handle_auto_closing` has begun and not returned. -/
def HandlerPhase.isRunning : HandlerPhase → Bool
  | listening | grace | sending .. => true
  | unspawned | spawned | ended _ | reporting _ | finished => false

structure AutoCloseHandler where
  phase : HandlerPhase := .unspawned
  /-- Whether the registry still had the acquisition when the task began. -/
  acquisition : Bool := false
  waitForEventsCounter : Nat := 0
  waitForEventsAfterEoseCounter : Nat := 0
  receivedEose : Bool := false
  requireResubscription : Bool := false

namespace AutoCloseHandler

variable (policy : ReqExitPolicy) (authenticator : Bool)

def enter (handler : AutoCloseHandler) (phase : HandlerPhase) : AutoCloseHandler :=
  { handler with phase }

def exit (handler : AutoCloseHandler) (reason : AutoClosedReason) : AutoCloseHandler :=
  handler.enter (.ended (some reason))

/-- One notification of `handle_auto_closing`; `resent` is how sending the REQ
again goes, where it is. -/
def listen (resent : Except String Unit) (handler : AutoCloseHandler) :
    Notification → AutoCloseHandler
  | .event event => handler.enter (.sending event false)
  | .eose =>
      let handler := { handler with receivedEose := true }
      match policy with
      | .exitOnEose => handler.exit .completed
      | .waitDurationAfterEose _ => handler.enter .grace
      | .waitForEvents _ => handler
      | .waitForEventsAfterEose _ => handler
  | .closed message =>
      match MachineReadablePrefix.parse message with
      | some .authRequired =>
          if authenticator then { handler with requireResubscription := true }
          else handler.exit (.closed message)
      | some _ => handler.exit (.closed message)
      | none => handler.exit (.relayClosed message)
  | .authenticated =>
      if handler.requireResubscription then
        match resent with
        | .ok () => { handler with requireResubscription := false }
        | .error message => { handler with requireResubscription := false }.exit (.closed message)
      else handler
  | .authenticationFailed => handler.exit .authenticationFailed
  | .connectionClosed => handler.exit .disconnected
  | .other => handler

/-- One notification of `post_eose_grace`. -/
def wait (handler : AutoCloseHandler) : Notification → AutoCloseHandler
  | .event event => handler.enter (.sending event true)
  | .closed message =>
      if (MachineReadablePrefix.parse message).isSome then handler.exit (.closed message)
      else handler.exit (.relayClosed message)
  | .connectionClosed => handler.exit .disconnected
  | _ => handler

/-- The exit policy, after an event has been sent. -/
def countEvent (handler : AutoCloseHandler) : AutoCloseHandler :=
  match policy with
  | .waitForEvents num =>
      let counter := handler.waitForEventsCounter + 1
      let handler := { handler with waitForEventsCounter := counter }
      if num.toNat ≤ counter then handler.exit .limitReached else handler.enter .listening
  | .waitForEventsAfterEose num =>
      if handler.receivedEose then
        let counter := handler.waitForEventsAfterEoseCounter + 1
        let handler := { handler with waitForEventsAfterEoseCounter := counter }
        if num.toNat ≤ counter then handler.exit .limitReached else handler.enter .listening
      else handler.enter .listening
  | .exitOnEose => handler.enter .listening
  | .waitDurationAfterEose _ => handler.enter .listening

def sent (handler : AutoCloseHandler) (inGrace : Bool) : AutoCloseHandler :=
  if inGrace then handler.enter .grace else handler.countEvent policy

end AutoCloseHandler

/-! ## The collector -/

/-- Where `acquire_relay` is. -/
inductive Collector where
  | starting
  | sendingReq
  | collecting
  /-- Holds an event it has taken out of the channel. -/
  | holding (event : Event)
  /-- About to look whether the evidence is drained. -/
  | checking
  | terminating
  | ended
  /-- `accept_event` has refused an event. -/
  | refused
  | returned (refused : Bool)
  deriving DecidableEq

/-- The receiver of the activities is gone. -/
def Collector.isDone : Collector → Bool
  | ended | refused | returned _ => true
  | _ => false

structure AcquireState where
  raw : RawAcquisition
  registered : Bool := false
  frame : Frame := .idle
  queue : List Notification := []
  /-- Notifications the receiver has lost to lag. -/
  lost : Nat := 0
  handler : AutoCloseHandler := {}
  activity : Option Activity := none
  rawTerminal : Bool := false
  collector : Collector := .starting
  result : RelayAcquisition := {}

namespace AcquireState

def start (limits : AcquisitionLimits) : AcquireState where
  raw := .new limits.maxItems limits.policy

def onRaw (state : AcquireState) (change : RawAcquisition → RawAcquisition) : AcquireState :=
  { state with raw := change state.raw }

/-- The registry finds the evidence of a frame only while it is registered. -/
def onRegistered (state : AcquireState) (change : RawAcquisition → RawAcquisition) :
    AcquireState :=
  if state.registered then state.onRaw change else state

def endWith (state : AcquireState) (reason : AcquisitionEnd) : AcquireState :=
  { state with collector := .ended, result := { state.result with end_ := reason } }

/-- What the tasks outside learn of a step. -/
inductive Label where
  | eventFrame (event : Event)
  /-- A frame that is too large or malformed and may be the request's. -/
  | lostInput
  | eoseFrame
  | forwarded (event : Event)
  | silent
  deriving DecidableEq

/-- The steps of the frame handler and of the notification queue. The relay
cannot know the identifier of a request that has not been registered. -/
inductive FrameStep (request : Request) : AcquireState → Label → AcquireState → Prop where
  | event {state : AcquireState} (answers : Answers) (cache : LruCache EventId) (event : Event)
      {handled : Handled} :
      state.frame = .idle → state.collector ≠ .starting →
      answers.subscriptionAtArrival.map SubscriptionData.acquisition =
        (if state.registered then some (some request.raw) else none) →
      answers.recorded = state.raw.records →
      handled = (request.received answers event).handle request.externals request.crypto cache →
      FrameStep request state (.eventFrame event)
        { state with
          raw := applyEffects ((Received.rawEffects handled.effects).filter Effect.isRecord) state.raw
          frame := .validating
            ((Received.rawEffects handled.effects).filter fun effect => !effect.isRecord)
            handled.outcome }
  | validated {state : AcquireState} {effects : List Effect} {outcome : Except Exit Event} :
      state.frame = .validating effects outcome →
      FrameStep request state .silent { state with frame := .acting effects outcome }
  /-- The connection ends in the middle of an EVENT and drops its `RawFrame`. -/
  | abort {state : AcquireState} {effects : List Effect} {outcome : Except Exit Event} :
      state.frame = .validating effects outcome →
      FrameStep request state .silent
        { state with
          raw := applyEffects (effects.filter Effect.isProcessed) state.raw
          frame := .idle }
  | forward {state : AcquireState} {raw : Ref} {effects : List Effect} {event : Event} :
      state.frame = .acting (.forward raw :: effects) (.ok event) →
      FrameStep request state (.forwarded event)
        { state with raw := state.raw.forward, frame := .acting effects (.ok event) }
  | processed {state : AcquireState} {raw : Ref} {effects : List Effect}
      {outcome : Except Exit Event} :
      state.frame = .acting (.processed raw :: effects) outcome →
      FrameStep request state .silent
        { state with raw := state.raw.processed, frame := .acting effects outcome }
  | passed {state : AcquireState} {event : Event} :
      state.frame = .acting [] (.ok event) →
      FrameStep request state .silent { state with frame := .announcing (.event event) }
  | dropped {state : AcquireState} {exit : Exit} :
      state.frame = .acting [] (.error exit) →
      FrameStep request state .silent { state with frame := .idle }
  | lostInput {state : AcquireState} :
      state.frame = .idle → state.collector ≠ .starting →
      FrameStep request state .lostInput (state.onRegistered RawAcquisition.rejectInput)
  | eose {state : AcquireState} :
      state.frame = .idle → state.collector ≠ .starting →
      FrameStep request state .eoseFrame
        { state.onRegistered RawAcquisition.receivedEose with frame := .announcing .eose }
  | closed {state : AcquireState} (message : String) :
      state.frame = .idle → state.collector ≠ .starting →
      FrameStep request state .silent
        { state with
          registered := state.registered && marksAsClosed request.authenticator message
          frame := .announcing (.closed message) }
  | announce {state : AcquireState} {notification : Notification} :
      state.frame = .announcing notification →
      FrameStep request state .silent
        { state with queue := state.queue ++ [notification], frame := .idle }
  /-- Another task of the connection notifies. -/
  | notify {state : AcquireState} {notification : Notification} :
      notification ∈ [.authenticated, .authenticationFailed, .connectionClosed, .other] →
      FrameStep request state .silent { state with queue := state.queue ++ [notification] }
  /-- The queue is full, and its oldest notification is lost. -/
  | overflow {state : AcquireState} {notification : Notification} {queue : List Notification} :
      state.queue = notification :: queue →
      FrameStep request state .silent { state with queue, lost := state.lost + 1 }

/-- The steps of the auto-closing handler. -/
inductive HandlerStep (request : Request) : AcquireState → AcquireState → Prop where
  | start {state : AcquireState} :
      state.handler.phase = .spawned →
      HandlerStep request state
        { state with
          handler := { state.handler with phase := .listening, acquisition := state.registered } }
  | lagged {state : AcquireState} :
      state.handler.phase ∈ [.listening, .grace] → 0 < state.lost →
      HandlerStep request state
        { state with handler := state.handler.exit (.lagged state.lost), lost := 0 }
  | listen {state : AcquireState} {notification : Notification} {queue : List Notification}
      (resent : Except String Unit) :
      state.handler.phase = .listening → state.lost = 0 → state.queue = notification :: queue →
      HandlerStep request state
        { state with
          queue
          handler :=
            state.handler.listen request.limits.policy request.authenticator resent notification }
  | wait {state : AcquireState} {notification : Notification} {queue : List Notification} :
      state.handler.phase = .grace → state.lost = 0 → state.queue = notification :: queue →
      HandlerStep request state { state with queue, handler := state.handler.wait notification }
  | receiverClosed {state : AcquireState} :
      state.handler.phase ∈ [.listening, .grace] → state.lost = 0 → state.queue = [] →
      HandlerStep request state { state with handler := state.handler.exit .receiverClosed }
  | send {state : AcquireState} {event : Event} {inGrace : Bool} :
      state.handler.phase = .sending event inGrace → state.activity = none →
      state.collector.isDone = false →
      HandlerStep request state
        { state with
          activity := some (.receivedEvent event)
          handler := state.handler.sent request.limits.policy inGrace }
  | sendFailed {state : AcquireState} {event : Event} {inGrace : Bool} :
      state.handler.phase = .sending event inGrace → state.collector.isDone = true →
      HandlerStep request state
        { state with handler := state.handler.sent request.limits.policy inGrace }
  | graceOver {state : AcquireState} :
      state.handler.phase = .grace →
      HandlerStep request state { state with handler := state.handler.exit .completed }
  /-- The collector has returned and dropped the sender of the cancellation. -/
  | cancel {state : AcquireState} :
      state.handler.phase.isRunning = true → state.collector.isDone = true →
      HandlerStep request state { state with handler := state.handler.enter (.ended none) }
  | closeRaw {state : AcquireState} {reason : Option AutoClosedReason} :
      state.handler.phase = .ended reason →
      HandlerStep request state
        { state with
          raw := if state.handler.acquisition then state.raw.close else state.raw
          handler := state.handler.enter (.reporting reason) }
  | report {state : AcquireState} {reason : AutoClosedReason} :
      state.handler.phase = .reporting (some reason) → state.activity = none →
      state.collector.isDone = false →
      HandlerStep request state
        { state with
          activity := some (.closed reason), handler := state.handler.enter .finished }
  | reportFailed {state : AcquireState} {reason : Option AutoClosedReason} :
      state.handler.phase = .reporting reason → reason = none ∨ state.collector.isDone = true →
      HandlerStep request state { state with handler := state.handler.enter .finished }
  | unregister {state : AcquireState} :
      state.handler.phase = .finished ∨
        (state.handler.phase = .unspawned ∧ state.collector.isDone = true) →
      HandlerStep request state { state with registered := false }

/-- The steps of `acquire_relay`. -/
inductive CollectorStep (request : Request) : AcquireState → AcquireState → Prop where
  | setupEnds {state : AcquireState} {reason : AcquisitionEnd} :
      state.collector ∈ [.starting, .sendingReq] →
      (reason = .cancelled ∨ reason = .timedOut ∨ ∃ error, reason = .failed error) →
      CollectorStep request state (state.endWith reason)
  | register {state : AcquireState} :
      state.collector = .starting →
      CollectorStep request state { state with collector := .sendingReq, registered := true }
  | spawn {state : AcquireState} :
      state.collector = .sendingReq →
      CollectorStep request state
        { state with collector := .collecting, handler := state.handler.enter .spawned }
  | interrupted {state : AcquireState} {reason : AcquisitionEnd} :
      state.collector = .collecting → reason ∈ [.cancelled, .timedOut] →
      CollectorStep request state (state.endWith reason)
  | notified {state : AcquireState} :
      state.collector = .collecting → state.rawTerminal = false → state.raw.terminal = true →
      CollectorStep request state
        { state with
          raw := { state.raw with terminal := false }
          rawTerminal := true
          collector := .checking }
  | drained {state : AcquireState} :
      state.collector = .checking →
      CollectorStep request state
        { state with collector :=
            if state.raw.drained state.result.receivedItems then .terminating else .collecting }
  | terminate {state : AcquireState} :
      state.collector = .terminating →
      CollectorStep request state (state.endWith state.raw.terminalEnd)
  | take {state : AcquireState} {event : Event} :
      state.collector = .collecting → state.activity = some (.receivedEvent event) →
      CollectorStep request state { state with collector := .holding event, activity := none }
  | accept {state : AcquireState} {event : Event} {accepted : Bool} {result : RelayAcquisition} :
      state.collector = .holding event →
      state.result.acceptEvent request.externals event request.limits
        (state.raw.itemBudget state.result.receivedItems) = (accepted, result) →
      CollectorStep request state
        { state with
          result
          collector := if accepted then (if state.rawTerminal then .checking else .collecting)
            else .refused }
  | closed {state : AcquireState} {reason : AutoClosedReason} :
      state.collector = .collecting → state.activity = some (.closed reason) →
      CollectorStep request state { state.endWith (.ofReason reason) with activity := none }
  | receiverClosed {state : AcquireState} :
      state.collector = .collecting → state.activity = none → state.handler.phase = .finished →
      CollectorStep request state (state.endWith .receiverClosed)
  /-- `RawAcquisition::finish` -/
  | finish {state : AcquireState} {refused : Bool} :
      state.collector = (if refused then .refused else .ended) →
      CollectorStep request state
        { state with
          collector := .returned refused
          result := (state.raw.finish state.result).1
          raw := (state.raw.finish state.result).2 }

/-- A step of the frame handler, of the auto-closing handler or of the collector. -/
inductive Step (request : Request) : AcquireState → Label → AcquireState → Prop where
  | frame {state state' : AcquireState} {label : Label} :
      FrameStep request state label state' → Step request state label state'
  | handler {state state' : AcquireState} :
      HandlerStep request state state' → Step request state .silent state'
  | collector {state state' : AcquireState} :
      CollectorStep request state state' → Step request state .silent state'

/-! ## Handling one EVENT -/

theorem filter_isRecord {event : Event} {raw : Ref} {rest : List Effect}
    {outcome : Except Exit Event} (after : Received.AfterRecord event raw rest outcome) :
    rest.filter Effect.isRecord = [] ∧ (rest.filter fun effect => !effect.isRecord) = rest := by
  cases after with
  | inl stopped =>
      rw [stopped.1]
      exact ⟨rfl, rfl⟩
  | inr passed =>
      rw [passed.1]
      exact ⟨rfl, rfl⟩

/-- How the handling of an EVENT begins: the frame is recorded or nothing is. -/
inductive Attributed (request : Request) (event : Event) (state : AcquireState) :
    RawAcquisition → List Effect → Except Exit Event → Prop where
  | recorded {rest : List Effect} {outcome : Except Exit Event} :
      state.registered = true → state.raw.records = true →
      Received.AfterRecord event request.raw rest outcome →
      Attributed request event state (state.raw.record event.createdAt).2 rest outcome
  | ignored {outcome : Except Exit Event} :
      (state.registered = true → state.raw.records = false) →
      (∀ other, outcome ≠ .ok other) →
      Attributed request event state state.raw [] outcome

theorem event_attributed {request : Request} {state : AcquireState} {answers : Answers}
    {cache : LruCache EventId} {event : Event} {handled : Handled}
    (found : answers.subscriptionAtArrival.map SubscriptionData.acquisition =
      if state.registered then some (some request.raw) else none)
    (recorded : answers.recorded = state.raw.records)
    (handles : handled =
      (request.received answers event).handle request.externals request.crypto cache) :
    Attributed request event state
      (applyEffects ((Received.rawEffects handled.effects).filter Effect.isRecord) state.raw)
      ((Received.rawEffects handled.effects).filter fun effect => !effect.isRecord)
      handled.outcome := by
  have own : (request.received answers event).ownAcquisitionId = true := request.own
  cases registered : state.registered with
  | false =>
      rw [registered] at found
      have absent : answers.subscriptionAtArrival = none := by simpa using found
      rw [Received.handle_unregistered _ _ _ own absent] at handles
      rw [handles]
      exact .ignored (by simp [registered]) fun other same => by cases same
  | true =>
      simp only [registered, if_true, Option.map_eq_some_iff] at found
      obtain ⟨subscription, present, acquires⟩ := found
      obtain ⟨rest, did, then_⟩ :=
        Received.handle_registered request.externals request.crypto _ own present acquires cache
      rw [← handles] at did then_
      rw [did]
      have answered : (request.received answers event).answers.recorded = state.raw.records :=
        recorded
      rw [answered] at then_
      cases records : state.raw.records with
      | false =>
          simp only [records, Bool.false_eq_true, if_false] at then_
          rw [then_.1]
          have kept : (state.raw.record event.createdAt).2 = state.raw := by
            simp [RawAcquisition.record, records]
          change Attributed request event state (state.raw.record event.createdAt).2 [] _
          rw [kept]
          exact .ignored (fun _ => records) then_.2
      | true =>
          simp only [records, if_true] at then_
          obtain ⟨no_record, others⟩ := filter_isRecord then_
          rw [List.filter_cons_of_pos rfl, List.filter_cons_of_neg (by simp [Effect.isRecord]),
            no_record, others]
          exact .recorded registered records then_

end AcquireState

end RustNostr.NostrSdk
