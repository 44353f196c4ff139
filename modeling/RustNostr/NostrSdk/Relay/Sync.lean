import Mathlib
import RustNostr.NostrSdk.Relay.Connection
import RustNostr.Nostr.Message

/-!
# Negentropy sync

One run of `sync` (`nostr-sdk/src/relay/api/sync.rs`): it opens a reconciliation,
learns from the relay's answers which events only one side has, uploads those
the relay lacks and requests those the database lacks. The run is cut where it
awaits something; the negentropy library and the database may answer in any way.
-/

set_option autoImplicit false

namespace RustNostr.NostrSdk

open Library

namespace RelayStatus

def isConnectionClosed : RelayStatus → Bool
  | disconnected | idle | banned | sleeping | shutdown => true
  | _ => false

end RelayStatus

inductive RelayNotification where
  | event (subscriptionId : SubscriptionId) (event : Event)
  | message (message : RelayMessage)
  | relayStatus (status : RelayStatus)
  | authenticated
  | authenticationFailed

namespace Error

def relayMsg (message : String) : Error := ⟨.rejected, message⟩

def negentropyNotSupported : Error := ⟨.unsupported, "negentropy not supported"⟩

def unknownNegentropyError : Error := protocolMsg "unknown negentropy error"

/-- `negentropy::Error::UnsupportedProtocolVersion` -/
def unsupportedProtocolVersion : Error := protocolMsg "unsupported negentropy protocol version"

def closedBeforeAllArrived : Error :=
  relayMsg "download subscription closed before all requested events arrived"

end Error

inductive SyncDirection where
  | up
  | down
  | both
  deriving DecidableEq

structure SyncProgress where
  /-- Total events to process. -/
  total : Nat := 0
  /-- Processed events. -/
  current : Nat := 0
  deriving DecidableEq

/-- Times are in milliseconds. -/
structure SyncOptions where
  idleTimeout : Nat := 10000
  direction : SyncDirection := .down
  dryRun : Bool := false
  /-- Whether there is a channel for the progress. -/
  progress : Bool := false

namespace SyncOptions

def doUp (opts : SyncOptions) : Bool :=
  !opts.dryRun && (opts.direction = .up || opts.direction = .both)

def doDown (opts : SyncOptions) : Bool :=
  !opts.dryRun && (opts.direction = .down || opts.direction = .both)

end SyncOptions

def negentropyHighWaterUp : Nat := 100

def negentropyLowWaterUp : Nat := 50

def negentropyBatchSizeDown : Nat := 100

structure SyncSummary where
  /-- Events that were stored locally (missing on relay). -/
  local_ : Finset EventId := ∅
  /-- Events that were stored on relay (missing locally). -/
  remote : Finset EventId := ∅
  sent : Finset EventId := ∅
  received : Finset EventId := ∅
  sendFailures : SortedTable EventId String := .empty

inductive SyncPhase where
  /-- Before NEG-OPEN is sent. -/
  | opening
  /-- In `check_negentropy_support`. -/
  | checking
  | receiving
  | uploading (isRelevant : Bool)
  | requesting (isRelevant : Bool)
  | returned (result : Except Error Unit)
  deriving DecidableEq

/-- The variables of `sync` and what it reports through its caller: the summary
and the value in the progress channel, on which nobody else sends. -/
structure SyncState where
  phase : SyncPhase := .opening
  summary : SyncSummary := {}
  progress : Option SyncProgress
  subId : SubscriptionId
  downId : SubscriptionId
  /-- A stack, its top first. -/
  haveIds : List EventId := []
  /-- A stack, its top first. -/
  needIds : List EventId := []
  inFlightUp : Finset EventId := ∅
  inFlightDown : Option (Finset EventId) := none
  syncDone : Bool := false
  lastRelevantMsg : Nat := 0

/-- How the code that one step calls answers it. -/
structure SyncSurroundings where
  now : Nat := 0
  sendMsg : ClientMessage → Except Error Unit := fun _ => .ok ()
  eventById : EventId → Except Error (Option Event) := fun _ => .ok none
  addAutoClosingSubscription : SubscriptionId → List Filter → Except Error Unit := fun _ _ => .ok ()
  /-- `SubscriptionId::generate` -/
  generated : SubscriptionId := ""
  hexDecode : String → Except Error Bytes := fun _ => .ok []
  /-- `Negentropy::reconcile_with_ids`: the next query, the ids to send and the ids to get. -/
  reconcileWithIds : Bytes → Except Error (Option Bytes × List EventId × List EventId) :=
    fun _ => .ok (none, [], [])

/-- What `recv` under the idle timeout gives. -/
inductive SyncReceived where
  | elapsed
  | failed (error : Error)
  | notification (notification : RelayNotification)

/-! ## Learning ids -/

/-- A set of ids, the stack of those to treat and how many were put on it. -/
structure Learned where
  seen : Finset EventId
  queue : List EventId
  counter : Nat

/-- An id is queued the first time it is seen, if it is `wanted` at all. -/
def Learned.learn (wanted : Bool) (learned : Learned) (id : EventId) : Learned :=
  if id ∈ learned.seen then learned
  else if wanted then ⟨insert id learned.seen, id :: learned.queue, learned.counter + 1⟩
  else { learned with seen := insert id learned.seen }

namespace SyncState

variable (opts : SyncOptions) (surroundings : SyncSurroundings) (state : SyncState)

def fail (error : Error) : SyncState := { state with phase := .returned (.error error) }

def addTotal (count : Nat) : SyncState :=
  { state with
    progress := state.progress.map fun progress => { progress with total := progress.total + count } }

def addCurrent (count : Nat) : SyncState :=
  { state with
    progress := state.progress.map fun progress =>
      { progress with current := progress.current + count } }

def learnHave (ids : List EventId) : Learned :=
  ids.foldl (Learned.learn opts.doUp) ⟨state.summary.local_, state.haveIds, 0⟩

def learnNeed (ids : List EventId) : Learned :=
  ids.foldl (Learned.learn opts.doDown) ⟨state.summary.remote, state.needIds, 0⟩

/-- The part of `handle_neg_msg` before it answers the relay. -/
def learnIds (currHaveIds currNeedIds : List EventId) : SyncState :=
  let haves := state.learnHave opts currHaveIds
  let needs := state.learnNeed opts currNeedIds
  { state with
    summary := { state.summary with local_ := haves.seen, remote := needs.seen }
    haveIds := haves.queue
    needIds := needs.queue }.addTotal (haves.counter + needs.counter)

def handleNegMsg (subscriptionId : SubscriptionId) (msg : Option Bytes)
    (currHaveIds currNeedIds : List EventId) : SyncState × Except Error Unit :=
  let state := state.learnIds opts currHaveIds currNeedIds
  match msg with
  | some query =>
      (state, surroundings.sendMsg (.negMsg subscriptionId (Json.lowercaseHex query)))
  | none =>
      ({ state with syncDone := true }, surroundings.sendMsg (.negClose subscriptionId))

def handleNegOk (eventId : EventId) (status : Bool) (message : String) : SyncState × Bool :=
  if eventId ∈ state.inFlightUp then
    let state := { state with inFlightUp := state.inFlightUp.erase eventId }
    if status then
      ({ state with summary.sent := insert eventId state.summary.sent }, true)
    else
      ({ state with summary.sendFailures := state.summary.sendFailures.put eventId message }, true)
  else (state, false)

def handleEvent (subscriptionId : SubscriptionId) (event : Event) : SyncState × Bool :=
  if subscriptionId = state.downId then
    ({ state with
      summary.received := insert event.id state.summary.received
      inFlightDown := state.inFlightDown.map fun ids => ids.erase event.id }, true)
  else (state, false)

def handleEose (subscriptionId : SubscriptionId) : SyncState × Except Error Bool :=
  if subscriptionId = state.downId then
    ({ state with inFlightDown := none },
      (surroundings.sendMsg (.close state.downId)).map fun _ => true)
  else (state, .ok false)

def handleClosed (subscriptionId : SubscriptionId) (message : String) :
    SyncState × Except Error Bool :=
  match state.inFlightDown with
  | some ids =>
      if subscriptionId = state.downId then
        if message = "" ∧ ids = ∅ then ({ state with inFlightDown := none }, .ok true)
        else if message = "" then (state, .error .closedBeforeAllArrived)
        else (state, .error (.relayMsg message))
      else (state, .ok false)
  | none => (state, .ok false)

/-- What one message does, and whether it is relevant to this run. -/
def handleMessage : RelayMessage → SyncState × Except Error Bool
  | .negMsg subscriptionId message =>
      if subscriptionId = state.subId then
        match surroundings.hexDecode message with
        | .error error => (state, .error error)
        | .ok query =>
            match surroundings.reconcileWithIds query with
            | .error error => (state, .error error)
            | .ok (msg, currHaveIds, currNeedIds) =>
                let handled := state.handleNegMsg opts surroundings subscriptionId msg
                  currHaveIds currNeedIds
                (handled.1, handled.2.map fun _ => true)
      else (state, .ok false)
  | .negErr subscriptionId message =>
      if subscriptionId = state.subId then (state, .error (.relayMsg message))
      else (state, .ok false)
  | .ok eventId status message =>
      let handled := state.handleNegOk eventId status message
      (handled.1, .ok handled.2)
  | .event subscriptionId event =>
      let handled := state.handleEvent subscriptionId event
      (handled.1, .ok handled.2)
  | .endOfStoredEvents subscriptionId => state.handleEose surroundings subscriptionId
  | .closed subscriptionId message => state.handleClosed subscriptionId message
  | _ => (state, .ok false)

/-! ## Uploading -/

/-- The loop of `upload_neg_events`: what is left to upload, what is in flight and
how many were sent, unless sending fails. -/
def uploadLoop : List EventId → Finset EventId → Nat →
    List EventId × Finset EventId × Except Error Nat
  | [], inFlight, numSent => ([], inFlight, .ok numSent)
  | id :: ids, inFlight, numSent =>
      if inFlight.card < negentropyHighWaterUp then
        match surroundings.eventById id with
        | .ok (some event) =>
            match surroundings.sendMsg (.event event) with
            | .ok _ => uploadLoop ids (insert id inFlight) (numSent + 1)
            | .error error => (ids, insert id inFlight, .error error)
        | .ok none => uploadLoop ids inFlight numSent
        -- The failure is only logged.
        | .error _ => uploadLoop ids inFlight numSent
      else (id :: ids, inFlight, .ok numSent)

def skipsUpload : Prop :=
  opts.doUp = false ∨ state.haveIds = [] ∨ negentropyLowWaterUp < state.inFlightUp.card

instance : Decidable (state.skipsUpload opts) :=
  inferInstanceAs (Decidable (_ ∨ _ ∨ _))

def uploadNegEvents : SyncState × Except Error Unit :=
  if state.skipsUpload opts then (state, .ok ())
  else
    let looped := uploadLoop surroundings state.haveIds state.inFlightUp 0
    let state := { state with haveIds := looped.1, inFlightUp := looped.2.1 }
    match looped.2.2 with
    | .ok numSent => (state.addCurrent numSent, .ok ())
    | .error error => (state, .error error)

/-! ## Requesting -/

def skipsRequest : Prop :=
  opts.doDown = false ∨ state.needIds = [] ∨ state.inFlightDown.isSome

instance : Decidable (state.skipsRequest opts) :=
  inferInstanceAs (Decidable (_ ∨ _ ∨ _))

def reqNegEvents : SyncState × Except Error Unit :=
  if state.skipsRequest opts then (state, .ok ())
  else
    let ids := state.needIds.take negentropyBatchSizeDown
    let state := { state with
      downId := surroundings.generated
      needIds := state.needIds.drop negentropyBatchSizeDown }.addCurrent ids.length
    let filter : Filter := { ids := some (SortedSet.ofList ids) }
    match surroundings.addAutoClosingSubscription state.downId [filter] with
    | .error error => (state, .error error)
    | .ok _ =>
        match surroundings.sendMsg (.req state.downId [filter]) with
        | .error error => (state, .error error)
        | .ok _ => ({ state with inFlightDown := some ids.toFinset }, .ok ())

/-! ## The loop -/

def finished : Prop :=
  state.syncDone = true ∧ state.haveIds = [] ∧ state.needIds = [] ∧ state.inFlightUp = ∅ ∧
    state.inFlightDown = none

instance : Decidable state.finished :=
  inferInstanceAs (Decidable (_ ∧ _ ∧ _ ∧ _ ∧ _))

/-- The end of one turn of the loop. -/
def endTurn : SyncState :=
  { state with phase := if state.finished then .returned (.ok ()) else .receiving }

def receive : SyncReceived → SyncState
  | .elapsed => state.fail .timeout
  | .failed error => state.fail error
  | .notification notification =>
      if opts.idleTimeout < surroundings.now - state.lastRelevantMsg then state.fail .timeout
      else
        match notification with
        | .message message =>
            match state.handleMessage opts surroundings message with
            | (state, .ok isRelevant) => { state with phase := .uploading isRelevant }
            | (state, .error error) => state.fail error
        | .relayStatus status =>
            if status.isConnectionClosed then state.fail .notConnected else state.endTurn
        | _ => state.endTurn

def upload (isRelevant : Bool) : SyncState :=
  match state.uploadNegEvents opts surroundings with
  | (state, .ok _) => { state with phase := .requesting isRelevant }
  | (state, .error error) => state.fail error

def request (isRelevant : Bool) : SyncState :=
  match state.reqNegEvents opts surroundings with
  | (state, .ok _) =>
      { state with
        lastRelevantMsg := if isRelevant then surroundings.now else state.lastRelevantMsg }.endTurn
  | (state, .error error) => state.fail error

end SyncState

/-! ## The beginning -/

/-- The error that a notice stands for (`check_negentropy_support`). -/
def noticeError (message : String) : Option Error :=
  let contains := fun part : String => part.toList <:+: message.toList
  if message = "ERROR: negentropy error: negentropy query missing elements" then
    some .unsupportedProtocolVersion
  else if contains "bad msg" ∧ (contains "unknown cmd" ∨ contains "negentropy" ∨ contains "NEG-") then
    some .negentropyNotSupported
  else if contains "bad msg: invalid message" ∧ contains "NEG-OPEN" then
    some .unknownNegentropyError
  else none

namespace SyncState

variable (opts : SyncOptions) (surroundings : SyncSurroundings) (state : SyncState)

/-- One notification in `check_negentropy_support`, read from a receiver of its own. -/
def check : SyncReceived → SyncState
  | .elapsed => state.fail .timeout
  | .failed error => state.fail error
  | .notification (.message (.negMsg subscriptionId _)) =>
      if subscriptionId = state.subId then
        { state with phase := .receiving, lastRelevantMsg := surroundings.now }
      else state
  | .notification (.message (.negErr subscriptionId message)) =>
      if subscriptionId = state.subId then state.fail (.relayMsg message) else state
  | .notification (.message (.notice message)) =>
      match noticeError message with
      | some error => state.fail error
      | none => state
  | .notification _ => state

/-- Sends NEG-OPEN. -/
def negOpen (filter : Filter) (initialMessage : Bytes) : SyncState :=
  match surroundings.sendMsg
      (.negOpen state.subId filter (Json.lowercaseHex initialMessage)) with
  | .ok _ => { state with phase := .checking }
  | .error error => state.fail error

def start (subId downId : SubscriptionId) : SyncState where
  progress := if opts.progress then some {} else none
  subId := subId
  downId := downId

end SyncState

/-! ## Steps -/

/-- What happens at one step, with what the step is given. -/
inductive SyncAct where
  /-- Preparing the items fails, before anything is sent. -/
  | prepareFails (error : Error)
  | negOpen (filter : Filter) (initialMessage : Bytes) (surroundings : SyncSurroundings)
  | check (received : SyncReceived) (surroundings : SyncSurroundings)
  | receive (received : SyncReceived) (surroundings : SyncSurroundings)
  | upload (surroundings : SyncSurroundings)
  | request (surroundings : SyncSurroundings)

inductive SyncStep (opts : SyncOptions) : SyncState → SyncAct → SyncState → Prop where
  | prepareFails {state : SyncState} {error : Error} : state.phase = .opening →
      SyncStep opts state (.prepareFails error) (state.fail error)
  | negOpen {state : SyncState} {filter : Filter} {initialMessage : Bytes}
      {surroundings : SyncSurroundings} : state.phase = .opening →
      SyncStep opts state (.negOpen filter initialMessage surroundings)
        (state.negOpen surroundings filter initialMessage)
  | check {state : SyncState} {received : SyncReceived} {surroundings : SyncSurroundings} :
      state.phase = .checking →
      SyncStep opts state (.check received surroundings) (state.check surroundings received)
  | receive {state : SyncState} {received : SyncReceived} {surroundings : SyncSurroundings} :
      state.phase = .receiving →
      SyncStep opts state (.receive received surroundings)
        (state.receive opts surroundings received)
  | upload {state : SyncState} {isRelevant : Bool} {surroundings : SyncSurroundings} :
      state.phase = .uploading isRelevant →
      SyncStep opts state (.upload surroundings) (state.upload opts surroundings isRelevant)
  | request {state : SyncState} {isRelevant : Bool} {surroundings : SyncSurroundings} :
      state.phase = .requesting isRelevant →
      SyncStep opts state (.request surroundings) (state.request opts surroundings isRelevant)

end RustNostr.NostrSdk
