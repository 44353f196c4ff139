import Mathlib
import RustNostr.Library.Run
import RustNostr.NostrSdk.Pool.RelayPool
import RustNostr.NostrSdk.Relay.AcquireRelay
import RustNostr.NostrSdk.Relay.Sync

/-!
# Streams of events

`stream_events` of the pool (`nostr-sdk/src/pool/mod.rs`), with terminal errors reported.
Each target has the auto-closing handler of its relay (`relay/inner.rs`), the stream over
its activities (`relay/api/stream_events.rs`) and the future that forwards the items of
the stream to the channel that all targets share. Their steps interleave.

`SubscribeAutoCloseOptions` have no idle timeout here, and what the receiver of the
notifications yields is up to the relay.
-/

set_option autoImplicit false

namespace RustNostr.NostrSdk

open Library NostrGossip

namespace Error

def authenticationMsg (message : String) : Error := ⟨.rejected, message⟩

def relaysNotSpecified : Error := invalidMsg "relay/s not specified"

def relayNotFoundWithUrl (url : RelayUrl) : Error := ⟨.notFound, "relay '" ++ url.url ++ "' not found"⟩

/-- `RecvError::Lagged` -/
def lagged (skipped : Nat) : Error := ⟨.other, "channel lagged by " ++ toString skipped⟩

/-- `RecvError::Closed` -/
def receiverClosed : Error := ⟨.other, "channel closed"⟩

end Error

inductive RelayStreamEvent where
  | event (event : Event)
  | error (error : Error)
  | completed
  | limitReached
  deriving DecidableEq

def RelayStreamEvent.isEvent : RelayStreamEvent → Bool
  | event _ => true
  | error _ | completed | limitReached => false

/-- The outcome that the end of a subscription is reported as. -/
def AutoClosedReason.outcome : AutoClosedReason → RelayStreamEvent
  | authenticationFailed => .error (.authenticationMsg "authentication failed")
  | closed message => .error (.relayMsg message)
  | relayClosed message => .error (.relayMsg message)
  | lagged skipped => .error (.lagged skipped)
  | receiverClosed => .error .receiverClosed
  | timedOut => .error .timeout
  | disconnected => .error .notConnected
  | limitReached => .limitReached
  | completed => .completed

/-! ## One target -/

/-- The future that forwards the items of one target. -/
inductive Forwarder where
  /-- The request is still being made. -/
  | connecting
  | polling
  /-- Waits for room in the shared channel; `last` is whether it returns then. -/
  | sending (item : RelayStreamEvent) (last : Bool)
  | finished
  deriving DecidableEq

/-- One target: its handler, the activities on their way, whether the stream over them
has ended, and its future. -/
structure Lane where
  handler : AutoCloseHandler := {}
  activity : List Activity := []
  done : Bool := false
  forwarder : Forwarder := .connecting

/-- What a step of the handler does with an event. -/
inductive Happening where
  | delivered (event : Event)
  /-- A deadline passes while the event waits for room. -/
  | overtaken (event : Event)
  | silent
  deriving DecidableEq

def Happening.ofNotification : Notification → Happening
  | .event event => delivered event
  | _ => silent

namespace Lane

def activityCapacity : Nat := 512

def subscribed (lane : Lane) : Except Error Unit → Lane
  | .ok () => { lane with handler := lane.handler.enter .listening, forwarder := .polling }
  | .error error => { lane with forwarder := .sending (.error error) true }

/-- `poll_next` of the stream; nothing while it is pending. -/
def pollNext (lane : Lane) : Option (Option RelayStreamEvent × Lane) :=
  if lane.done then some (none, lane)
  else
    match lane.activity with
    | .receivedEvent event :: rest => some (some (.event event), { lane with activity := rest })
    | .closed reason :: rest => some (some reason.outcome, { lane with activity := rest, done := true })
    | [] =>
        if lane.handler.phase = .finished then
          some (some (.error (.stateMsg "stream ended without an outcome")), { lane with done := true })
        else none

/-- What the future does with an item of its stream, and the IDs that are known then. -/
def receive (lane : Lane) (ids : Finset EventId) : Option RelayStreamEvent → Lane × Finset EventId
  | none => ({ lane with forwarder := .finished }, ids)
  | some (.event event) =>
      if event.id ∈ ids then (lane, ids)
      else ({ lane with forwarder := .sending (.event event) false }, insert event.id ids)
  | some (.error error) => ({ lane with forwarder := .sending (.error error) false }, ids)
  | some .completed => ({ lane with forwarder := .sending .completed true }, ids)
  | some .limitReached => ({ lane with forwarder := .sending .limitReached true }, ids)

/-- The item has been sent. -/
def forwarded (lane : Lane) (last : Bool) : Lane :=
  { lane with forwarder := if last then .finished else .polling }

/-- The steps of the auto-closing handler. Once the future has finished its stream is
dropped: nothing can be sent any more, and the handler is cancelled. -/
inductive HandlerStep (policy : ReqExitPolicy) (timeout : Option Nat) : Lane → Happening → Lane → Prop where
  | listen {lane : Lane} (notification : Notification) (authenticator : Bool) (resent : Except String Unit) :
      lane.handler.phase = .listening →
      HandlerStep policy timeout lane (.ofNotification notification)
        { lane with handler := lane.handler.listen policy authenticator resent notification }
  | wait {lane : Lane} (notification : Notification) :
      lane.handler.phase = .grace →
      HandlerStep policy timeout lane (.ofNotification notification)
        { lane with handler := lane.handler.wait notification }
  | lagged {lane : Lane} (skipped : Nat) :
      lane.handler.phase ∈ [.listening, .grace] →
      HandlerStep policy timeout lane .silent { lane with handler := lane.handler.exit (.lagged skipped) }
  | receiverClosed {lane : Lane} :
      lane.handler.phase ∈ [.listening, .grace] →
      HandlerStep policy timeout lane .silent { lane with handler := lane.handler.exit .receiverClosed }
  | send {lane : Lane} {event : Event} {inGrace : Bool} :
      lane.handler.phase = .sending event inGrace → lane.forwarder ≠ .finished →
      lane.activity.length < activityCapacity →
      HandlerStep policy timeout lane .silent
        { lane with
          activity := lane.activity ++ [.receivedEvent event]
          handler := lane.handler.sent policy inGrace }
  | sendFailed {lane : Lane} {event : Event} {inGrace : Bool} :
      lane.handler.phase = .sending event inGrace → lane.forwarder = .finished →
      HandlerStep policy timeout lane .silent { lane with handler := lane.handler.sent policy inGrace }
  | timedOut {lane : Lane} :
      timeout.isSome = true → lane.handler.phase ∈ [.listening, .grace] →
      HandlerStep policy timeout lane .silent { lane with handler := lane.handler.exit .timedOut }
  | graceOver {lane : Lane} :
      lane.handler.phase = .grace →
      HandlerStep policy timeout lane .silent { lane with handler := lane.handler.exit .completed }
  /-- The timeout drops the future of the handler, and what it is sending with it. -/
  | timedOutSending {lane : Lane} {event : Event} {inGrace : Bool} :
      timeout.isSome = true → lane.handler.phase = .sending event inGrace →
      activityCapacity ≤ lane.activity.length →
      HandlerStep policy timeout lane (.overtaken event)
        { lane with handler := lane.handler.exit .timedOut }
  /-- So does the timeout of the grace period, which is no failure. -/
  | graceOverSending {lane : Lane} {event : Event} :
      lane.handler.phase = .sending event true → activityCapacity ≤ lane.activity.length →
      HandlerStep policy timeout lane (.overtaken event)
        { lane with handler := lane.handler.exit .completed }
  | cancel {lane : Lane} :
      lane.handler.phase.isRunning = true → lane.forwarder = .finished →
      HandlerStep policy timeout lane .silent { lane with handler := lane.handler.enter (.ended none) }
  | report {lane : Lane} {reason : AutoClosedReason} :
      lane.handler.phase = .ended (some reason) → lane.forwarder ≠ .finished →
      lane.activity.length < activityCapacity →
      HandlerStep policy timeout lane .silent
        { lane with
          activity := lane.activity ++ [.closed reason]
          handler := lane.handler.enter .finished }
  | reportFailed {lane : Lane} {reason : Option AutoClosedReason} :
      lane.handler.phase = .ended reason → reason = none ∨ lane.forwarder = .finished →
      HandlerStep policy timeout lane .silent { lane with handler := lane.handler.enter .finished }

end Lane

/-! ## All targets -/

/-- What `stream_events` has accepted. -/
structure StreamRequest where
  filters : SortedTable RelayUrl (List Filter)
  timeout : Option Nat
  policy : ReqExitPolicy

def StreamRequest.targets (request : StreamRequest) : Finset RelayUrl :=
  (request.filters.entries.map Prod.fst).toFinset

def RelayPool.streamEvents (pool : RelayPool) (filters : SortedTable RelayUrl (List Filter))
    (timeout : Option Nat) (policy : ReqExitPolicy) : Except Error StreamRequest :=
  if filters.entries.isEmpty then .error .relaysNotSpecified
  else
    match filters.entries.find? fun entry => (pool.relays.get? entry.1).isNone with
    | some entry => .error (.relayNotFoundWithUrl entry.1)
    | none => .ok ⟨filters, timeout, policy⟩

structure EventStream where
  lanes : RelayUrl → Lane := fun _ => {}
  /-- Whether the task that polls all futures has been spawned. -/
  driving : Bool := false
  ids : Finset EventId := ∅
  channel : List (RelayUrl × RelayStreamEvent) := []
  /-- Whether the receiver of the channel is gone. -/
  dropped : Bool := false

namespace EventStream

def channelCapacity : Nat := 1024

def setLane (stream : EventStream) (url : RelayUrl) (lane : Lane) : EventStream :=
  { stream with lanes := Function.update stream.lanes url lane }

inductive Label where
  | lane (url : RelayUrl) (happening : Happening)
  | yielded (url : RelayUrl) (item : RelayStreamEvent)
  | dropped
  | silent
  deriving DecidableEq

inductive Step (request : StreamRequest) : EventStream → Label → EventStream → Prop where
  /-- The request to a target has been made, or has failed. -/
  | subscribed {stream : EventStream} {url : RelayUrl} (result : Except Error Unit) :
      url ∈ request.targets → (stream.lanes url).forwarder = .connecting →
      (request.filters.get? url = some [] → result = .error (.invalidMsg "filters cannot be empty")) →
      Step request stream .silent (stream.setLane url ((stream.lanes url).subscribed result))
  /-- The futures are polled once all requests have been made. -/
  | drive {stream : EventStream} :
      stream.driving = false → (∀ url ∈ request.targets, (stream.lanes url).forwarder ≠ .connecting) →
      Step request stream .silent { stream with driving := true }
  | handler {stream : EventStream} {url : RelayUrl} {happening : Happening} {lane : Lane} :
      url ∈ request.targets →
      (stream.lanes url).HandlerStep request.policy request.timeout happening lane →
      Step request stream (.lane url happening) (stream.setLane url lane)
  | take {stream : EventStream} {url : RelayUrl} {item : Option RelayStreamEvent} {lane : Lane} :
      url ∈ request.targets → stream.driving = true → (stream.lanes url).forwarder = .polling →
      (stream.lanes url).pollNext = some (item, lane) →
      Step request stream .silent
        { stream.setLane url (lane.receive stream.ids item).1 with
          ids := (lane.receive stream.ids item).2 }
  | forward {stream : EventStream} {url : RelayUrl} {item : RelayStreamEvent} {last : Bool} :
      url ∈ request.targets → stream.driving = true → (stream.lanes url).forwarder = .sending item last →
      stream.dropped = false → stream.channel.length < channelCapacity →
      Step request stream .silent
        { stream.setLane url ((stream.lanes url).forwarded last) with
          channel := stream.channel ++ [(url, item)] }
  | forwardFailed {stream : EventStream} {url : RelayUrl} {item : RelayStreamEvent} {last : Bool} :
      url ∈ request.targets → stream.driving = true → (stream.lanes url).forwarder = .sending item last →
      stream.dropped = true →
      Step request stream .silent (stream.setLane url ((stream.lanes url).forwarded true))
  /-- `tx.closed()` -/
  | abandon {stream : EventStream} {url : RelayUrl} :
      url ∈ request.targets → stream.driving = true → (stream.lanes url).forwarder = .polling →
      stream.dropped = true →
      Step request stream .silent (stream.setLane url ((stream.lanes url).forwarded true))
  | next {stream : EventStream} {url : RelayUrl} {item : RelayStreamEvent}
      {rest : List (RelayUrl × RelayStreamEvent)} :
      stream.channel = (url, item) :: rest →
      Step request stream (.yielded url item) { stream with channel := rest }
  | drop {stream : EventStream} :
      stream.dropped = false →
      Step request stream .dropped { stream with dropped := true, channel := [] }

end EventStream

end RustNostr.NostrSdk
