import Mathlib
import RustNostr.Library.Run
import RustNostr.Nostr.Database
import RustNostr.NostrSdk.LocalRelay.Session

/-!
# Handling messages of clients

How the local relay answers the messages of one connection
(`nostr-sdk/src/local_relay/local/inner.rs`). Other connections go on meanwhile:
what the database answers and what the rate limiter, the clock and the random
generator give are arbitrary with each message.
-/

set_option autoImplicit false

namespace RustNostr.NostrSdk.LocalRelay

open Library

inductive Mode where
  | generic
  | publicKey (publicKey : PublicKey)

inductive Nip42Mode where
  | write
  | read
  | both
  deriving DecidableEq

namespace Nip42Mode

def isRead (mode : Nip42Mode) : Bool := mode = read ∨ mode = both

def isWrite (mode : Nip42Mode) : Bool := mode = write ∨ mode = both

end Nip42Mode

structure Nip42 where
  mode : Nip42Mode := .both
  relayUrl : Option RelayUrl := none

inductive WritePolicyResult where
  | accept
  | reject (machineReadablePrefix : MachineReadablePrefix) (message : String) (status : Bool)

inductive QueryPolicyResult where
  | accept
  | reject (machineReadablePrefix : MachineReadablePrefix) (message : String)

/-- The parts of other crates that the handlers use: hex decoding of any
length, parsing an event, and the protocol state of `Negentropy`. -/
structure LocalExternals (ν : Type) where
  hexDecode : String → Option Bytes
  eventFromJson : String → Option Event
  startNegentropy : List (Timestamp × EventId) → Except Error ν
  reconcile : ν → Bytes → Option (Bytes × ν)

/-- The configuration of a local relay, as far as the handlers read it. -/
structure InnerLocalRelay (ν : Type) where
  externals : Externals
  crypto : Crypto
  local_ : LocalExternals ν
  url : RelayUrl
  mode : Mode := .generic
  maxReqs : Nat := 500
  maxEventSize : Nat
  maxSubidLength : Nat
  maxFiltersPerReq : Nat
  maxFilterLimit : Nat := 500
  maxSubscriptionBytes : Nat
  maxNegentropySubscriptions : Nat := 10
  maxNegentropyItems : Nat
  authDm : Bool := false
  minPow : Option Nat := none
  kindsBlacklist : List UInt16
  writePolicy : Option (Event → WritePolicyResult) := none
  queryPolicy : Option (Filter → QueryPolicyResult × Filter) := none
  nip42 : Option Nip42 := none
  sendRandomEvents : Bool := false

/-- What the database answers while one message is handled. The queries of a
REQ are numbered; a count is the number of the events counted, and negentropy
items are the IDs and timestamps of events. -/
structure Database where
  checkId : EventId → Except Error DatabaseEventStatus
  saveEvent : Event → Except Error SaveEventStatus
  query : Nat → Filter → Except Error EventSet
  count : Filter → Except Error (List Event)
  negentropyItems : Filter → Except Error (List Event)

/-- What one message finds outside the session. -/
structure Surroundings where
  database : Database
  /-- What the bucket of the message's type answers. -/
  limited : Bool
  now : Timestamp
  /-- A fresh challenge. -/
  challenge : String
  randomEvents : List Event

/-- A message on the wire, with the events that its text was made from. -/
structure Output where
  message : RelayMessage
  discloses : List Event := []
  deriving DecidableEq

/-- How handling a message ends early: with `Ok(())` after a reply, or with an
error that ends the connection. -/
inductive Exit where
  | done
  | failed (error : Error)
  deriving DecidableEq

structure Conversation (ν : Type) where
  session : Session ν
  outputs : List Output := []
  /-- What was sent to the broadcast channel. -/
  broadcasts : List Event := []

abbrev Handler (ν : Type) := Transaction Exit (Conversation ν)

inductive GiftWrapQueryAccess where
  | allowed
  | authRequired
  | forbidden
  deriving DecidableEq

variable {ν : Type}

namespace Handler

def sendDisclosing (message : RelayMessage) (discloses : List Event) : Handler ν Unit :=
  modify fun conversation =>
    { conversation with outputs := conversation.outputs ++ [{ message, discloses }] }

/-- `send_msg` of a message that is not made from stored or live events. -/
def send (message : RelayMessage) : Handler ν Unit := sendDisclosing message []

/-- `return send_msg(..)` -/
def reply {α : Type} (message : RelayMessage) : Handler ν α := do
  send message
  throw .done

def broadcast (event : Event) : Handler ν Unit :=
  modify fun conversation => { conversation with broadcasts := conversation.broadcasts ++ [event] }

def getSession : Handler ν (Session ν) := do
  let conversation ← get
  return conversation.session

def setSession (session : Session ν) : Handler ν Unit :=
  modify fun conversation => { conversation with session }

/-- `?` -/
def propagate {α : Type} : Except Error α → Handler ν α
  | .ok value => pure value
  | .error error => throw (.failed error)

/-- `session.nip42.generate_challenge()`, and sending it. -/
def sendChallenge (surroundings : Surroundings) : Handler ν Unit := do
  let session ← getSession
  setSession { session with nip42 := session.nip42.generateChallenge surroundings.challenge }
  send (.auth surroundings.challenge)

/-- Goes on unless the condition holds. -/
def replyIf (condition : Bool) (message : RelayMessage) : Handler ν Unit :=
  if condition then reply message else pure ()

def replyAfterIf (condition : Bool) (before : Handler ν Unit) (message : RelayMessage) :
    Handler ν Unit :=
  if condition then do
    before
    reply message
  else pure ()

def mustAuth : String := MachineReadablePrefix.authRequired.text "you must auth"

end Handler

namespace InnerLocalRelay

open Handler

variable (relay : InnerLocalRelay ν) (surroundings : Surroundings)

/-! ## Authorization -/

def requiresReadAuth (session : Session ν) : Bool :=
  (relay.nip42.any fun nip42 => nip42.mode.isRead) && !session.nip42.isAuthenticated

def subscriptionIdExceedsLimit (id : SubscriptionId) : Bool := relay.maxSubidLength < id.utf8ByteSize

/-- Whether a filter asks for gift wraps: without kinds, or with that kind. -/
def isGiftWrapFilter (filter : Filter) : Bool :=
  match filter.kinds with
  | none => true
  | some kinds => (SortedSet.elems kinds).contains Kind.giftWrap.asU16

/-- Whether the only public key in the `#p` of a filter is the given one. -/
def isAddressedTo (filter : Filter) (publicKey : PublicKey) : Bool :=
  match filter.genericTags.get? .lowercaseP with
  | none => false
  | some publicKeys =>
      publicKeys.len = 1 &&
        (SortedSet.elems publicKeys).contains (relay.externals.hexEncode publicKey.val)

def giftWrapQueryAccess (session : Session ν) (filters : List Filter) : GiftWrapQueryAccess :=
  if !relay.authDm then .allowed
  else
    let giftWrapFilters := filters.filter isGiftWrapFilter
    match session.nip42.publicKey with
    | none => if giftWrapFilters.isEmpty then .allowed else .authRequired
    | some publicKey =>
        if giftWrapFilters.all fun filter => relay.isAddressedTo filter publicKey then .allowed
        else .forbidden

/-! ## EVENT -/

def isRepost (kind : Kind) : Bool := kind.asU16 = 6 || kind.asU16 = 16

def okFalse (event : Event) (machineReadablePrefix : MachineReadablePrefix) (message : String) :
    RelayMessage :=
  .ok event.id false (machineReadablePrefix.text message)

def checkMinPow (event : Event) : Handler ν Unit :=
  match relay.minPow with
  | none => pure ()
  | some difficulty =>
      replyIf (Nip13.targetDifficulty event.tags < difficulty || !event.id.checkPow difficulty)
        (okFalse event .pow ("required a difficulty >= " ++ toString difficulty))

/-- The checks on an event by itself, in order. -/
def checkEvent (event : Event) (messageSize : Nat) : Handler ν Unit := do
  replyIf surroundings.limited (okFalse event .rateLimited "slow down")
  replyIf (relay.maxEventSize < messageSize - 10)
    (okFalse event .blocked ("event size (" ++ toString (messageSize - 10) ++
      " bytes) exceeds maximum allowed size (" ++ toString relay.maxEventSize ++ " bytes)"))
  replyIf (relay.kindsBlacklist.contains event.kind.asU16)
    (okFalse event .blocked ("kind `" ++ toString event.kind.asU16 ++
      "` is not accepted by this relay"))
  replyIf (!event.verifyId relay.externals relay.crypto)
    (okFalse event .invalid "invalid event ID")
  relay.checkMinPow event
  replyIf (event.isExpiredAt surroundings.now) (okFalse event .blocked "event is expired")
  replyIf (isRepost event.kind && (relay.local_.eventFromJson event.content).any Event.isProtected)
    (okFalse event .blocked "repost of a protected event")
  replyIf (event.kind == .giftWrap && (Tags.publicKeys relay.externals event.tags).length ≠ 1)
    (okFalse event .blocked "GiftWrap must contain exactly one recipient public key")
  replyIf (!event.verifySignature relay.crypto) (okFalse event .invalid "invalid event signature")

def requiresWriteAuth (event : Event) (session : Session ν) : Bool :=
  ((relay.nip42.any fun nip42 => nip42.mode.isWrite) || event.isProtected) &&
    !session.nip42.isAuthenticated

def isRelatedTo (event : Event) (publicKey : PublicKey) : Bool :=
  event.pubkey = publicKey || (Tags.publicKeys relay.externals event.tags).contains publicKey

def checkMode (event : Event) : Handler ν Unit :=
  match relay.mode with
  | .generic => pure ()
  | .publicKey publicKey =>
      replyIf (!relay.isRelatedTo event publicKey)
        (okFalse event .blocked "event not related to owner of this relay")

def checkWritePolicy (event : Event) : Handler ν Unit :=
  match relay.writePolicy with
  | none => pure ()
  | some policy =>
      match policy event with
      | .accept => pure ()
      | .reject machineReadablePrefix message status =>
          reply (.ok event.id status (machineReadablePrefix.text message))

/-- The checks on whether this client may write the event. -/
def authorizeEvent (event : Event) : Handler ν Unit := do
  let session ← getSession
  replyAfterIf (relay.requiresWriteAuth event session) (sendChallenge surroundings)
    (okFalse event .authRequired "you must auth")
  replyIf (event.isProtected && session.nip42.publicKey.any fun publicKey => event.pubkey ≠ publicKey)
    (okFalse event .blocked "this event may only be published by its author")
  relay.checkMode event
  relay.checkWritePolicy event

def checkStatus (event : Event) : DatabaseEventStatus → Handler ν Unit
  | .saved =>
      reply (.ok event.id true (MachineReadablePrefix.duplicate.text "already have this event"))
  | .deleted => reply (okFalse event .blocked "this event is deleted")
  | .notExistent => pure ()

def storeEvent (event : Event) : Handler ν Unit := do
  let status ← propagate (surroundings.database.checkId event.id)
  checkStatus event status
  replyAfterIf event.kind.isEphemeral (broadcast event) (.ok event.id true "")
  match surroundings.database.saveEvent event with
  | .ok .success => do
      broadcast event
      send (.ok event.id true "")
  | .ok (.rejected _) => send (okFalse event .error "unknown")
  | .error _ => send (okFalse event .error "database error")

def handleEvent (event : Event) (messageSize : Nat) : Handler ν Unit := do
  relay.checkEvent surroundings event messageSize
  relay.authorizeEvent surroundings event
  storeEvent surroundings event

/-! ## REQ -/

/-- Lets the query policy change a filter, or refuse it. -/
def admitQuery (filter : Filter) (refusal : String → RelayMessage) : Handler ν Filter :=
  match relay.queryPolicy with
  | none => pure filter
  | some policy =>
      match policy filter with
      | (.accept, filter) => pure filter
      | (.reject machineReadablePrefix message, _) =>
          reply (refusal (machineReadablePrefix.text message))

/-- The limit of a filter within the relay's, or too many IDs. -/
def limitFilter (filter : Filter) : Option Filter :=
  match filter.limit, filter.ids with
  | some limit, _ => some { filter with limit := some (min limit relay.maxFilterLimit) }
  | none, some ids =>
      if relay.maxFilterLimit < ids.len then none else some { filter with limit := some ids.len }
  | none, none => some { filter with limit := some relay.maxFilterLimit }

def limitFilters (id : SubscriptionId) (filters : List Filter) : Handler ν (List Filter) :=
  filters.mapM fun filter =>
    match relay.limitFilter filter with
    | some filter => pure filter
    | none => reply (.closed id (MachineReadablePrefix.blocked.text "requested too many event IDs"))

/-- `Option<usize>::sum` of the numbers of IDs. -/
def idsLen (filters : List Filter) : Option Nat :=
  filters.foldl (fun total filter => total.bind fun total =>
    filter.ids.map fun ids => total + ids.len) (some 0)

def textNote (event : Event) : Event := { event with kind := .custom 1 }

def queryAll (database : Database) (filters : List Filter) : Except Error EventSet :=
  filters.zipIdx.foldlM (fun events (filter, index) => do
    let answer ← database.query index filter
    return answer.values.foldl EventSet.insert events) .empty

def storedEvents (filters : List Filter) : Except Error EventSet :=
  if relay.sendRandomEvents then .ok (EventSet.ofList (surroundings.randomEvents.map textNote))
  else queryAll surroundings.database filters

def sendEvent (id : SubscriptionId) (event : Event) : Handler ν Unit :=
  sendDisclosing (.event id event) [event]

def giftWrapError : String :=
  MachineReadablePrefix.error.text "you cannot request another user's gift wrap"

def answerAccess (refusal : String → RelayMessage) : GiftWrapQueryAccess → Handler ν Unit
  | .allowed => pure ()
  | .authRequired => do
      sendChallenge surroundings
      reply (refusal mustAuth)
  | .forbidden => reply (refusal giftWrapError)

/-- Goes on if the session may be served what the filters select. -/
def authorizeFilters (filters : List Filter) (refusal : String → RelayMessage) :
    Handler ν Unit := do
  let session ← getSession
  answerAccess surroundings refusal (relay.giftWrapQueryAccess session filters)

def checkReadAuth (refusal : String → RelayMessage) : Handler ν Unit := do
  let session ← getSession
  replyAfterIf (relay.requiresReadAuth session) (sendChallenge surroundings) (refusal mustAuth)

/-- The checks on a REQ before its filters are looked at. -/
def admitReq (id : SubscriptionId) (filters : List Filter) (requestSize : Nat) :
    Handler ν Unit := do
  let session ← getSession
  replyIf (relay.subscriptionIdExceedsLimit id) (.closed id (MachineReadablePrefix.blocked.text
    ("subscription ID exceeds max length " ++ toString relay.maxSubidLength)))
  replyIf surroundings.limited
    (.closed id (MachineReadablePrefix.rateLimited.text "too many queries"))
  replyIf (relay.maxReqs ≤ session.subscriptions.len && (session.subscriptions.get? id).isNone)
    (.closed id (MachineReadablePrefix.rateLimited.text "too many REQs"))
  replyIf (relay.maxFiltersPerReq < filters.length)
    (.closed id (MachineReadablePrefix.blocked.text "too many filters"))
  replyIf (!session.subscriptionFits id requestSize relay.maxSubscriptionBytes)
    (.closed id (MachineReadablePrefix.rateLimited.text
      ("active subscriptions exceed max size " ++ toString relay.maxSubscriptionBytes ++ " bytes")))
  relay.checkReadAuth surroundings (.closed id)

/-- Keeps the subscription, unless it asked for IDs and as many events were
found. -/
def keepSubscription (id : SubscriptionId) (filters : List Filter) (requestSize found : Nat) :
    Handler ν Unit :=
  if idsLen filters = some found then send (.closed id "")
  else do
    let session ← getSession
    setSession (session.insertSubscription id filters requestSize)

def serveReq (id : SubscriptionId) (filters : List Filter) (requestSize : Nat) :
    Handler ν Unit := do
  let filters ← relay.limitFilters id filters
  let events ← propagate (relay.storedEvents surroundings filters)
  (events.values.filter fun event => !event.isExpiredAt surroundings.now).forM (sendEvent id)
  send (.endOfStoredEvents id)
  keepSubscription id filters requestSize events.len

def handleReq (id : SubscriptionId) (filters : List Filter) (requestSize : Nat) :
    Handler ν Unit := do
  relay.admitReq surroundings id filters requestSize
  let filters ← filters.mapM fun filter => relay.admitQuery filter (.closed id)
  relay.authorizeFilters surroundings filters (.closed id)
  relay.serveReq surroundings id filters requestSize

/-! ## COUNT -/

def handleCount (id : SubscriptionId) (filter : Filter) : Handler ν Unit := do
  replyIf surroundings.limited
    (.closed id (MachineReadablePrefix.rateLimited.text "too many queries"))
  relay.checkReadAuth surroundings (.closed id)
  let filter ← relay.admitQuery filter (.closed id)
  relay.authorizeFilters surroundings [filter] (.closed id)
  let counted ← propagate (surroundings.database.count filter)
  sendDisclosing (.count id counted.length) counted

/-! ## AUTH -/

def authRelayUrl : RelayUrl := (relay.nip42.bind fun nip42 => nip42.relayUrl).getD relay.url

/-- The session after an authentication attempt, and the answer. -/
def answerAuth (session : Session ν) (event : Event) : Session ν × RelayMessage :=
  match session.nip42.checkChallenge relay.externals relay.crypto event relay.authRelayUrl
      surroundings.now with
  | (.ok (), nip42) => ({ session with nip42 }, .ok event.id true "")
  | (.error error, nip42) => ({ session with nip42 }, okFalse event .authRequired error)

def handleAuth (event : Event) : Handler ν Unit := do
  replyIf surroundings.limited
    (okFalse event .rateLimited "too many authentication attempts")
  let session ← getSession
  setSession (relay.answerAuth surroundings session event).1
  send (relay.answerAuth surroundings session event).2

/-! ## Negentropy -/

/-- The items that the other reconciliations of the session keep. -/
def retainedItems (session : Session ν) (id : SubscriptionId) : Nat :=
  (session.negentropySubscription.entries.filter fun entry => entry.1 ≠ id).foldl
    (fun total entry => saturatingAdd total entry.2.items) 0

/-- A filter with room for one item more than may be kept. -/
def limitItems (filter : Filter) (remainingItems : Nat) : Filter :=
  let queryLimit := saturatingAdd remainingItems 1
  { filter with limit := some (filter.limit.elim queryLimit fun limit => min limit queryLimit) }

def invalidNegentropyMessage (id : SubscriptionId) : RelayMessage :=
  .negErr id (MachineReadablePrefix.error.text "invalid negentropy message")

/-- The checks on a NEG-OPEN before its filter is looked at. -/
def admitNegOpen (id : SubscriptionId) : Handler ν Unit := do
  let session ← getSession
  replyIf surroundings.limited
    (.negErr id (MachineReadablePrefix.rateLimited.text "too many queries"))
  replyIf (relay.subscriptionIdExceedsLimit id) (.negErr id (MachineReadablePrefix.blocked.text
    ("subscription ID exceeds max length " ++ toString relay.maxSubidLength)))
  replyIf (relay.maxNegentropySubscriptions ≤ session.negentropySubscription.len &&
      (session.negentropySubscription.get? id).isNone)
    (.negErr id (MachineReadablePrefix.rateLimited.text "too many negentropy subscriptions"))
  relay.checkReadAuth surroundings (.negErr id)

/-- Answers one round of a reconciliation over the given storage, and keeps it. -/
def reconcile (id : SubscriptionId) (storage : List Event) (state : ν) (message : Bytes)
    (abandon : Session ν → Session ν) : Handler ν Unit := do
  let session ← getSession
  match relay.local_.reconcile state message with
  | none => do
      setSession (abandon session)
      send (invalidNegentropyMessage id)
  | some (answer, state) => do
      sendDisclosing (.negMsg id (relay.externals.hexEncode answer)) storage
      setSession { session with
        negentropySubscription := session.negentropySubscription.put id { storage, state } }

def openReconciliation (id : SubscriptionId) (filter : Filter) (initialMessage : Bytes) :
    Handler ν Unit := do
  let session ← getSession
  let remainingItems := relay.maxNegentropyItems - retainedItems session id
  let items ← propagate
    (surroundings.database.negentropyItems (limitItems filter remainingItems))
  replyIf (remainingItems < items.length)
    (.negErr id (MachineReadablePrefix.rateLimited.text "too many negentropy items"))
  let state ← propagate
    (relay.local_.startNegentropy (items.map fun event => (event.createdAt, event.id)))
  relay.reconcile id items state initialMessage fun session => session

def decodeMessage (id : SubscriptionId) (message : String) (abandon : Session ν → Session ν) :
    Handler ν Bytes :=
  match relay.local_.hexDecode message with
  | some bytes => pure bytes
  | none => do
      let session ← getSession
      setSession (abandon session)
      reply (invalidNegentropyMessage id)

def handleNegOpen (id : SubscriptionId) (filter : Filter) (initialMessage : String) :
    Handler ν Unit := do
  relay.admitNegOpen surroundings id
  let filter ← relay.admitQuery filter (.negErr id)
  relay.authorizeFilters surroundings [filter] (.negErr id)
  let initialMessage ← relay.decodeMessage id initialMessage fun session => session
  relay.openReconciliation surroundings id filter initialMessage

def removeNegentropy (id : SubscriptionId) (session : Session ν) : Session ν :=
  { session with negentropySubscription := session.negentropySubscription.delete id }

/-- A failed round ends the reconciliation. -/
def handleNegMsg (id : SubscriptionId) (message : String) : Handler ν Unit := do
  replyIf surroundings.limited
    (.negErr id (MachineReadablePrefix.rateLimited.text "too many queries"))
  let bytes ← relay.decodeMessage id message (removeNegentropy id)
  let session ← getSession
  match session.negentropySubscription.get? id with
  | none => send (.negErr id (MachineReadablePrefix.error.text "subscription not found"))
  | some subscription =>
      relay.reconcile id subscription.storage subscription.state bytes (removeNegentropy id)

/-! ## The connection -/

def handleClientMsg (message : ClientMessage) (messageSize : Nat) : Handler ν Unit :=
  match message with
  | .event event => relay.handleEvent surroundings event messageSize
  | .req id filters => relay.handleReq surroundings id filters messageSize
  | .count id filter => relay.handleCount surroundings id filter
  | .close id => do
      let session ← getSession
      setSession (session.removeSubscription id)
  | .auth event => relay.handleAuth surroundings event
  | .negOpen id filter initialMessage => relay.handleNegOpen surroundings id filter initialMessage
  | .negMsg id message => relay.handleNegMsg surroundings id message
  | .negClose id => do
      let session ← getSession
      setSession (removeNegentropy id session)

end InnerLocalRelay

/-- What the select loop of a connection takes up. -/
inductive Input where
  | text (message : ClientMessage) (messageSize : Nat) (surroundings : Surroundings)
  | malformed
  | binary
  /-- Ping, pong and close frames. -/
  | control
  /-- Any frame over the limit of messages per minute. -/
  | tooManyMessages
  | live (event : Event)
  | lagged (skipped : Nat)
  | shutdown

structure Connection (ν : Type) where
  session : Session ν := {}
  isOpen : Bool := true

namespace InnerLocalRelay

open Handler

variable (relay : InnerLocalRelay ν)

/-- Sends a live event for each subscription with a filter that matches it. The
order among subscriptions is that of a hash map in the source. -/
def sendLive (session : Session ν) (event : Event) : List Output :=
  (session.subscriptions.entries.filter fun entry =>
    entry.2.filters.any fun filter => filter.matchEvent event {}).map fun entry =>
      { message := .event entry.1 event, discloses := [event] }

def overflowMessage : String :=
  "error: live event buffer overflow; resubscribe to recover stored events"

/-- The session after lost live events, and the closed subscriptions. -/
def closeAll (session : Session ν) : Session ν × List Output :=
  ({ session with subscriptions := .empty, subscriptionBytes := 0 },
    session.subscriptions.entries.map fun entry =>
      { message := .closed entry.1 overflowMessage })

structure Handled (ν : Type) where
  connection : Connection ν
  outputs : List Output := []
  broadcasts : List Event := []

def handleWebsocket (connection : Connection ν) : Input → Handled ν
  | .text message messageSize surroundings =>
      let (outcome, conversation) :=
        (relay.handleClientMsg surroundings message messageSize).run
          { session := connection.session }
      { connection := {
          session := conversation.session
          isOpen := match outcome with
            | .ok () | .error .done => true
            | .error (.failed _) => false }
        outputs := conversation.outputs
        broadcasts := conversation.broadcasts }
  | .malformed => { connection, outputs := [{ message := .notice "invalid client message" }] }
  | .binary =>
      { connection
        outputs := [{ message := .notice "binary messages are not processed by this relay" }] }
  | .control => { connection }
  | .tooManyMessages | .shutdown => { connection := { connection with isOpen := false } }
  | .live event => { connection, outputs := sendLive connection.session event }
  | .lagged _ =>
      let (session, outputs) := closeAll connection.session
      { connection := { connection with session }, outputs }

/-- One turn of the loop of an open connection. -/
def Turn (connection : Connection ν) (label : Input × List Output) (connection' : Connection ν) :
    Prop :=
  connection.isOpen = true ∧
    label.2 = (relay.handleWebsocket connection label.1).outputs ∧
    connection' = (relay.handleWebsocket connection label.1).connection

end InnerLocalRelay

end RustNostr.NostrSdk.LocalRelay
