import Mathlib
import RustNostr.Library.Run
import RustNostr.Nostr.FilterJson
import RustNostr.Nostr.NostrConnect

/-!
# The browser signer proxy

Requests to a signer in the browser and the two collections through which they and their
answers go (`signer/nostr-browser-signer-proxy/src/lib.rs`). Callers and HTTP handlers run
concurrently; each lock is held for one step. A handler may run at any time, also where
no server would take its connection.
-/

set_option autoImplicit false

namespace RustNostr.BrowserSignerProxy

open Library

abbrev Uuid := BitVec 128

/-- What the browser posts. -/
structure Message where
  id : Uuid
  error : Option String
  result : Option JsonValue

def Message.intoResult (message : Message) : Except String JsonValue :=
  match message.error with
  | some error => .error error
  | none => .ok (message.result.getD .null)

inductive RequestMethod where
  | getPublicKey
  | signEvent
  | nip04Encrypt
  | nip04Decrypt
  | nip44Encrypt
  | nip44Decrypt
  deriving DecidableEq

def RequestMethod.asStr : RequestMethod → String
  | getPublicKey => "get_public_key"
  | signEvent => "sign_event"
  | nip04Encrypt => "nip04_encrypt"
  | nip04Decrypt => "nip04_decrypt"
  | nip44Encrypt => "nip44_encrypt"
  | nip44Decrypt => "nip44_decrypt"

structure RequestData where
  id : Uuid
  method : RequestMethod
  params : JsonValue

/-! ## Callers -/

/-- How `request` ends, before the answer is deserialized. -/
inductive Outcome where
  | shutdown
  | bindFailed
  | timeout
  | answer (reply : Except String JsonValue)

/-- Where a caller of `request` stands. -/
inductive Phase where
  | checking
  | starting
  | binding
  | started
  | stored (request : RequestData)
  | waiting (request : RequestData)
  | returned (request : Option RequestData) (outcome : Outcome)

namespace Phase

def request? : Phase → Option RequestData
  | stored request => some request
  | waiting request => some request
  | returned request _ => request
  | _ => none

/-- The request, once it is in the queue. -/
def queued? : Phase → Option RequestData
  | waiting request => some request
  | returned request _ => request
  | _ => none

end Phase

/-- A call of `request`, and what was sent through its channel. What is sent to a caller
that has returned is lost. -/
structure Call where
  phase : Phase
  sent : Option (Except String JsonValue) := none

def Call.id? (call : Call) : Option Uuid := call.phase.request?.map RequestData.id

def Call.queuedId? (call : Call) : Option Uuid := call.phase.queued?.map RequestData.id

/-- The flags and the collections of the proxy, with its callers. A sender stands for the
caller that holds the receiver. -/
structure ProxyState where
  isShutdown : Bool := false
  isStarted : Bool := false
  outgoingRequests : List RequestData := []
  pendingResponses : AList (fun _ : Uuid => Nat) := ∅
  calls : List Call := []

namespace ProxyState

def call (state : ProxyState) (caller : Nat) : Option Call := state.calls[caller]?

def addCall (state : ProxyState) : ProxyState :=
  { state with calls := state.calls ++ [{ phase := .checking }] }

def setPhase (state : ProxyState) (caller : Nat) (phase : Phase) : ProxyState :=
  { state with calls := state.calls.modify caller fun call => { call with phase := phase } }

def storePendingResponse (state : ProxyState) (id : Uuid) (caller : Nat) : ProxyState :=
  { state with pendingResponses := state.pendingResponses.insert id caller }

def storeOutgoingRequest (state : ProxyState) (request : RequestData) : ProxyState :=
  { state with outgoingRequests := state.outgoingRequests ++ [request] }

def outgoingIds (state : ProxyState) : List Uuid := state.outgoingRequests.map RequestData.id

/-- `GET /api/pending`, behind the reading of the queue. -/
def clearOutgoing (state : ProxyState) : ProxyState := { state with outgoingRequests := [] }

/-- `POST /api/response` -/
def handleResponse (state : ProxyState) (message : Message) : ProxyState :=
  match state.pendingResponses.lookup message.id with
  | some caller =>
      { state with
        pendingResponses := state.pendingResponses.erase message.id
        calls := state.calls.modify caller fun call => { call with sent := some message.intoResult } }
  | none => state

end ProxyState

/-! ## Steps -/

inductive Label where
  | calls
  | proceeds (caller : Nat)
  | storesPending (caller : Nat) (request : RequestData)
  | storesOutgoing (caller : Nat)
  | returns (caller : Nat) (outcome : Outcome)
  | polls (ids : List Uuid)
  | responds (message : Message)
  | shutsDown

open ProxyState

/-- The IDs of requests are new (`Uuid::new_v4`). A caller whose channel has an answer
does not time out. -/
inductive Step (state : ProxyState) : Label → ProxyState → Prop where
  | call : Step state .calls state.addCall
  | refuse {caller : Nat} {call : Call} : state.call caller = some call → call.phase = .checking →
      state.isShutdown = true →
      Step state (.returns caller .shutdown) (state.setPhase caller (.returned none .shutdown))
  | check {caller : Nat} {call : Call} : state.call caller = some call → call.phase = .checking →
      state.isShutdown = false → Step state (.proceeds caller) (state.setPhase caller .starting)
  | join {caller : Nat} {call : Call} : state.call caller = some call → call.phase = .starting →
      state.isStarted = true → Step state (.proceeds caller) (state.setPhase caller .started)
  | start {caller : Nat} {call : Call} : state.call caller = some call → call.phase = .starting →
      state.isStarted = false →
      Step state (.proceeds caller) ({ state with isStarted := true }.setPhase caller .binding)
  | bind {caller : Nat} {call : Call} : state.call caller = some call → call.phase = .binding →
      Step state (.proceeds caller) (state.setPhase caller .started)
  | bindFailed {caller : Nat} {call : Call} : state.call caller = some call → call.phase = .binding →
      Step state (.returns caller .bindFailed)
        ({ state with isStarted := false }.setPhase caller (.returned none .bindFailed))
  | storePending {caller : Nat} {call : Call} {request : RequestData} :
      state.call caller = some call → call.phase = .started →
      (∀ other call, state.call other = some call → call.id? ≠ some request.id) →
      Step state (.storesPending caller request)
        ((state.storePendingResponse request.id caller).setPhase caller (.stored request))
  | storeOutgoing {caller : Nat} {call : Call} {request : RequestData} :
      state.call caller = some call → call.phase = .stored request →
      Step state (.storesOutgoing caller)
        ((state.storeOutgoingRequest request).setPhase caller (.waiting request))
  | receive {caller : Nat} {call : Call} {request : RequestData} {reply : Except String JsonValue} :
      state.call caller = some call → call.phase = .waiting request → call.sent = some reply →
      Step state (.returns caller (.answer reply))
        (state.setPhase caller (.returned (some request) (.answer reply)))
  | timeOut {caller : Nat} {call : Call} {request : RequestData} :
      state.call caller = some call → call.phase = .waiting request → call.sent = none →
      Step state (.returns caller .timeout)
        (state.setPhase caller (.returned (some request) .timeout))
  | poll : Step state (.polls state.outgoingIds) state.clearOutgoing
  | respond (message : Message) : Step state (.responds message) (state.handleResponse message)
  | shutdown : Step state .shutsDown { state with isShutdown := true }

/-! ## Signing -/

inductive ProxyError where
  | protocol (error : VerifyError)
  | json
  | io
  | timeout
  | shutdown
  | generic (message : String)
  deriving DecidableEq

/-- The error of an outcome, or the answer for the deserializer. -/
def Outcome.toResult : Outcome → Except ProxyError JsonValue
  | shutdown => .error .shutdown
  | bindFailed => .error .io
  | timeout => .error .timeout
  | answer (.ok value) => .ok value
  | answer (.error error) => .error (.generic error)

/-- `_sign_event`, from the outcome of its request. -/
def signEvent (externals : Externals) (crypto : Crypto) (eventFromValue : JsonValue → Option Event)
    (outcome : Outcome) : Except ProxyError Event := do
  let value ← outcome.toResult
  match eventFromValue value with
  | none => .error .json
  | some event => do
      (event.verify externals crypto).mapError .protocol
      .ok event

end RustNostr.BrowserSignerProxy
