import Mathlib
import RustNostr.Nostr.Message
import RustNostr.Nostr.NostrConnect

/-!
# The Nostr Connect client

What the client of a remote signer takes from the notifications of its relay client
(`signer/nostr-connect/src/client.rs`): the response to a request, the key of the remote
signer of a client-initiated connection, and signed events. A stream of notifications
is the list of what it yields until it ends or the timeout elapses.
-/

set_option autoImplicit false

namespace RustNostr

/-! ## Messages -/

/-- `not_request()` -/
def Error.notRequest : Error := ⟨.invalid, "not a request"⟩

structure NostrConnectResponse where
  result : Option ResponseResult
  error : Option String
  deriving DecidableEq

namespace NostrConnectResponse

variable (externals : Externals) (serde : EventSerde)

def parse (method : NostrConnectMethod) (result error : Option String) :
    Except Error NostrConnectResponse :=
  match result with
  | none => .ok ⟨none, error⟩
  | some result => do
      let result ← ResponseResult.parse externals serde method result
      .ok ⟨some result, error⟩

def isAuthUrl (response : NostrConnectResponse) : Bool := response.result == some .authUrl

end NostrConnectResponse

inductive NostrConnectMessage where
  | request (id : String) (method : NostrConnectMethod) (params : List String)
  | response (id : String) (result error : Option String)
  deriving DecidableEq

namespace NostrConnectMessage

def id : NostrConnectMessage → String
  | request id _ _ => id
  | response id _ _ => id

def isResponse : NostrConnectMessage → Bool
  | request _ _ _ => false
  | response _ _ _ => true

def toResponse (externals : Externals) (serde : EventSerde) (method : NostrConnectMethod) :
    NostrConnectMessage → Except Error NostrConnectResponse
  | response _ result error => NostrConnectResponse.parse externals serde method result error
  | request _ _ _ => .error .notRequest

end NostrConnectMessage

def ResponseResult.toSignEvent : ResponseResult → Except Error Event
  | signEvent event => .ok event
  | _ => .error .unexpectedResult

inductive ClientNotification where
  | event (relayUrl : RelayUrl) (subscriptionId : SubscriptionId) (event : Event)
  | message (relayUrl : RelayUrl) (message : RelayMessage)
  | shutdown

def ClientNotification.event? : ClientNotification → Option Event
  | event _ _ received => some received
  | message _ _ => none
  | shutdown => none

namespace NostrConnectClient

inductive ClientError where
  | protocol (error : Error)
  | sdk
  | invalidResponse (response : String)
  | response (message : String)
  | signerPublicKeyNotFound
  | timeout
  deriving DecidableEq

/-- What the client calls: the reading of JSON, the decryption of a content by its author
with the secret key of the client, and the URL parser. -/
structure Calls where
  externals : Externals
  serde : EventSerde
  messageFromJson : String → Except Error NostrConnectMessage
  decrypt : PublicKey → String → Except Error String
  parseUrl : String → Option String

variable (calls : Calls)

/-- `Kind::NostrConnect` -/
def nostrConnectKind : UInt16 := 24133

/-! ## Waiting for a response -/

/-- What the loop does at an event: goes on, with a URL for the handler or without one, or
ends. -/
inductive Reaction where
  | goOn (authUrl : Option String)
  | stop (outcome : Except ClientError ResponseResult)

/-- A response that is no `auth_url`. One without a result and an error breaks out of the
loop, behind which is the timeout error. -/
def outcomeOf (response : NostrConnectResponse) : Except ClientError ResponseResult :=
  match response.error with
  | some error => .error (.response error)
  | none =>
      match response.result with
      | some result => .ok result
      | none => .error .timeout

def reactToResponse (hasHandler : Bool) (response : NostrConnectResponse) : Reaction :=
  if response.isAuthUrl then
    .goOn (if hasHandler then response.error.bind calls.parseUrl else none)
  else .stop (outcomeOf response)

def reactToMessage (hasHandler : Bool) (method : NostrConnectMethod) (reqId : String)
    (message : NostrConnectMessage) : Reaction :=
  if reqId = message.id ∧ message.isResponse then
    match message.toResponse calls.externals calls.serde method with
    | .error error => .stop (.error (.protocol error))
    | .ok response => reactToResponse calls hasHandler response
  else .goOn none

/-- `nip44::decrypt` and `NostrConnectMessage::from_json` -/
def openMessage (event : Event) : Except Error NostrConnectMessage := do
  let text ← calls.decrypt event.pubkey event.content
  calls.messageFromJson text

def react (hasHandler : Bool) (method : NostrConnectMethod) (reqId : String) (event : Event) : Reaction :=
  if event.kind.asU16 ≠ nostrConnectKind then .goOn none
  else
    match openMessage calls event with
    | .error error => .stop (.error (.protocol error))
    | .ok message => reactToMessage calls hasHandler method reqId message

/-- The URLs that the handler is called with, and the event at which the wait ends with its
outcome, unless the stream ends or the timeout elapses before. -/
structure Wait where
  authUrls : List String := []
  ended : Option (Event × Except ClientError ResponseResult) := none

def awaitResponse (hasHandler : Bool) (method : NostrConnectMethod) (reqId : String) :
    List ClientNotification → Wait
  | [] => {}
  | .event _ _ event :: rest =>
      match react calls hasHandler method reqId event with
      | .stop outcome => { ended := some (event, outcome) }
      | .goOn authUrl =>
          let later := awaitResponse hasHandler method reqId rest
          { later with authUrls := authUrl.toList ++ later.authUrls }
  | _ :: rest => awaitResponse hasHandler method reqId rest

/-- `send` encrypts, signs and sends the request to the key. -/
def sendRequestWithPk (send : PublicKey → NostrConnectMessage → Except ClientError Unit) (hasHandler : Bool)
    (reqId : String) (request : NostrConnectRequest) (remoteSignerPublicKey : PublicKey)
    (notifications : List ClientNotification) : Except ClientError ResponseResult := do
  send remoteSignerPublicKey (.request reqId request.method (request.params calls.externals))
  match (awaitResponse calls hasHandler request.method reqId notifications).ended with
  | some (_, outcome) => outcome
  | none => .error .timeout

/-- `_sign_event`, with the remote signer that the bootstrap found. -/
def signEvent (send : PublicKey → NostrConnectMessage → Except ClientError Unit) (hasHandler : Bool)
    (reqId : String) (remoteSignerPublicKey : PublicKey) (notifications : List ClientNotification)
    (unsigned : UnsignedEvent) : Except ClientError Event := do
  let result ← sendRequestWithPk calls send hasHandler reqId (.signEvent unsigned)
    remoteSignerPublicKey notifications
  result.toSignEvent.mapError .protocol

/-! ## The remote signer of a client-initiated connection -/

def isValidConnectResponse (response : ResponseResult) (expectedSecret : Option String) : Bool :=
  match response with
  | .ack => true
  | .connectSecret secret => expectedSecret == some secret
  | _ => false

def acceptsMessage (expectedSecret : String) (message : NostrConnectMessage) : Bool :=
  match message.toResponse calls.externals calls.serde .connect with
  | .ok ⟨some result, none⟩ => isValidConnectResponse result (some expectedSecret)
  | _ => false

def accepts (expectedSecret : String) (event : Event) : Bool :=
  event.kind.asU16 == nostrConnectKind &&
    match openMessage calls event with
    | .error _ => false
    | .ok message => acceptsMessage calls expectedSecret message

/-- The event whose author is taken for the remote signer. -/
def signerEvent (expectedSecret : String) : List ClientNotification → Option Event
  | [] => none
  | .event _ _ event :: rest =>
      if accepts calls expectedSecret event then some event else signerEvent expectedSecret rest
  | _ :: rest => signerEvent expectedSecret rest

/-- `elapsed` tells whether the timeout cut the stream off. -/
def getRemoteSignerPublicKey (expectedSecret : String) (elapsed : Bool)
    (notifications : List ClientNotification) : Except ClientError PublicKey :=
  match signerEvent calls expectedSecret notifications with
  | some event => .ok event.pubkey
  | none => .error (if elapsed then .timeout else .signerPublicKeyNotFound)

/-- `connect_bunker` -/
def connectBunker (send : PublicKey → NostrConnectMessage → Except ClientError Unit) (hasHandler : Bool)
    (reqId : String) (remoteSignerPublicKey : PublicKey) (secret : Option String)
    (notifications : List ClientNotification) : Except ClientError Unit := do
  let result ← sendRequestWithPk calls send hasHandler reqId (.connect remoteSignerPublicKey secret)
    remoteSignerPublicKey notifications
  if isValidConnectResponse result secret then .ok ()
  else .error (.invalidResponse (result.toString calls.externals))

end NostrConnectClient

end RustNostr
