import Mathlib
import RustNostr.Library.Interaction
import RustNostr.Nostr.RelayUrl
import RustNostr.NostrSdk.Gossip.Resolver
import RustNostr.NostrSdk.Pool.RelayPool
import RustNostr.NostrSdk.Relay.SendEvent

/-!
# Sending an event from the client

`Client::send_event` (`nostr-sdk/src/client/api/send_event.rs`) and the pool's part of it
(`nostr-sdk/src/pool/mod.rs`). The database, the gossip store and the pool are asked: other
tasks change them between two calls, so that any answer may come.
-/

set_option autoImplicit false

namespace RustNostr.NostrSdk

open Library NostrGossip Gossip

namespace Error

/-- `From<nostr::error::Error>` -/
def ofNostr (error : RustNostr.Error) : Error := ⟨.protocol, error.message⟩

def gossipNotConfigured : Error := stateMsg "gossip not configured"

end Error

inductive RelayUrlArg where
  | parsed (url : RelayUrl)
  | string (text : String)

def RelayUrlArg.tryIntoRelayUrl (crate : UrlCrate) : RelayUrlArg → Except Error RelayUrl
  | .parsed url => .ok url
  | .string text =>
      match FullRelayUrl.parse crate text with
      | .ok relay => .ok relay.toRelayUrl
      | .error error => .error (.ofNostr error)

inductive OverwritePolicy where
  | broadcast
  | to (list : List RelayUrlArg)
  | toNip17
  | toNip65

inductive InnerAckPolicy where
  | all
  | none
  deriving DecidableEq

structure Output (value success failed : Type) where
  value : value
  success : SortedTable RelayUrl success := .empty
  failed : SortedTable RelayUrl failed := .empty

abbrev SendEventOutput := Output EventId EventSendStatus String

/-- What one relay is told to send, with its timeouts in milliseconds. -/
structure RelaySend where
  event : Event
  waitForOk : Bool
  okTimeout : Nat
  authenticationTimeout : Nat

inductive ClientCall where
  | saveEvent (event : Event)
  | process (event : Event)
  | ensureGossipPublicKeysFresh (publicKeys : SortedSet PublicKey) (gossipKinds : List GossipListKind)
  | getBestRelays (publicKey : PublicKey) (selection : BestRelaySelection) (allowed : GossipAllowedRelays)
  | addRelay (call : AddRelay)
  | writeRelayUrls
  /-- Locks the relays, until all has been sent. -/
  | readRelays
  /-- `send_event` of each of the relays, all at once. -/
  | sendEvents (urls : List RelayUrl) (send : RelaySend)

/-- What the calls are answered with: relays that send at once finish in some order, each once. -/
@[reducible] def ClientAnswer : ClientCall → Type
  | .saveEvent _ | .process _ | .ensureGossipPublicKeysFresh _ _ => Except Error Unit
  | .getBestRelays _ _ _ => Except Error (SortedSet RelayUrl)
  | .addRelay _ => Except Error Bool
  | .writeRelayUrls => SortedSet RelayUrl
  | .readRelays => RelayPool
  | .sendEvents urls _ =>
      { results : List (RelayUrl × Except Error EventSendStatus) // (results.map Prod.fst).Perm urls }

abbrev ClientProgram := Interaction ClientCall ClientAnswer Error

structure Client where
  /-- Whether gossip is configured. -/
  gossip : Bool
  limits : GossipRelayLimits := {}
  allowed : GossipAllowedRelays := {}

namespace Client

/-- A call of `send_event`, with its timeouts in milliseconds. -/
structure SendEvent where
  event : Event
  policy : Option OverwritePolicy := none
  ackPolicy : InnerAckPolicy := .all
  saveIntoDatabase : Bool := true
  waitForOkTimeout : Nat := 10000
  waitForAuthenticationTimeout : Nat := 10000

/-! ## The pool -/

/-- One relay's result goes into the output. -/
def collect (output : SendEventOutput) : RelayUrl × Except Error EventSendStatus → SendEventOutput
  | (url, .ok status) => { output with success := output.success.put url status }
  | (url, .error error) => { output with failed := output.failed.put url error.message }

/-- `RelayPool::send_event` -/
def poolSendEvent (urls : SortedSet RelayUrl) (event : Event) (waitPolicy : InnerAckPolicy)
    (waitForOkTimeout waitForAuthenticationTimeout : Nat) : ClientProgram SendEventOutput := do
  if urls.isEmpty then .error .relaysNotSpecified
  else
    let pool ← Interaction.call ClientCall.readRelays
    match urls.elems.find? fun url => (pool.relays.get? url).isNone with
    | some url => .error (.relayNotFoundWithUrl url)
    | none =>
        let ⟨results, _⟩ ← Interaction.call (ClientCall.sendEvents urls.elems
          ⟨event, waitPolicy = .all, waitForOkTimeout, waitForAuthenticationTimeout⟩)
        pure (results.foldl collect { value := event.id })

/-! ## The relays of an event -/

/-- `GossipRelayResolver::get_relays` -/
def getRelays (publicKeys : List PublicKey) (selection : BestRelaySelection) (allowed : GossipAllowedRelays) :
    ClientProgram (SortedSet RelayUrl) :=
  publicKeys.foldlM (fun urls publicKey => do
    let relays ← Interaction.orFail (Interaction.call (ClientCall.getBestRelays publicKey selection allowed))
    pure (urls.extend relays)) .empty

def ensureGossipPublicKeysFresh (keys : SortedSet PublicKey × List GossipListKind) : ClientProgram Unit :=
  Interaction.orFail (Interaction.call (ClientCall.ensureGossipPublicKeysFresh keys.1 keys.2))

/-- Adds the relays for gossip and connects them. -/
def addGossipRelays (relays : SortedSet RelayUrl) : ClientProgram Unit :=
  relays.elems.foldlM (fun _ url => do
    let _ ← Interaction.orFail (Interaction.call (ClientCall.addRelay ⟨url, .gossip, true⟩))
    pure ()) ()

variable (externals : Externals) (client : Client) (event : Event)

/-- The keys whose relay lists have to be fresh, and which lists. -/
def involved (isNip17 : Bool) : SortedSet PublicKey × List GossipListKind :=
  let tagged := Tags.publicKeys externals event.tags
  if event.kind = .giftWrap then (.ofList tagged, [if isNip17 then .nip17 else .nip65])
  else if event.kind = .contactList then (.ofList [event.pubkey], [.nip65])
  else (.ofList (tagged ++ [event.pubkey]), [.nip65])

def outboxSelection : BestRelaySelection :=
  .all 0 client.limits.writeRelaysPerUser client.limits.hintRelaysPerUser client.limits.mostUsedRelaysPerUser

def inboxSelection : BestRelaySelection :=
  .all client.limits.readRelaysPerUser 0 client.limits.hintRelaysPerUser client.limits.mostUsedRelaysPerUser

/-- A contact list is not sent to those that it mentions. -/
def extendWithInbox (outbox : SortedSet RelayUrl) : ClientProgram (SortedSet RelayUrl) :=
  if event.kind = .contactList then pure outbox
  else do
    let inbox ← getRelays (Tags.publicKeys externals event.tags) client.inboxSelection client.allowed
    pure (outbox.extend inbox)

def noPrivateMessageRelays : Error :=
  .notFound "Private message relays not found. The user is not ready to receive private messages."

def gossipPrepareUrls (isNip17 : Bool) : ClientProgram (SortedSet RelayUrl) := do
  ensureGossipPublicKeysFresh (involved externals event isNip17)
  if isNip17 ∧ event.kind = .giftWrap then
    let relays ← getRelays (Tags.publicKeys externals event.tags) (.privateMessage client.limits.nip17Relays)
      client.allowed
    if relays.isEmpty then .error noPrivateMessageRelays
    else
      addGossipRelays relays
      pure relays
  else
    let outbox ← Interaction.orFail (Interaction.call (ClientCall.getBestRelays event.pubkey client.outboxSelection client.allowed))
    let relays ← extendWithInbox externals client event outbox
    addGossipRelays relays
    let writeRelays ← Interaction.call ClientCall.writeRelayUrls
    pure (relays.extend writeRelays)

variable (crypto : Crypto) (crate : UrlCrate) (call : SendEvent)

/-- The relays that the policy sends to. -/
def route : ClientProgram (SortedSet RelayUrl) :=
  match call.policy, client.gossip with
  | none, true | some .toNip65, true => gossipPrepareUrls externals client call.event false
  | some .toNip17, true => gossipPrepareUrls externals client call.event true
  | some .toNip17, false | some .toNip65, false => .error .gossipNotConfigured
  | some (.to list), _ => .ofExcept ((list.mapM (RelayUrlArg.tryIntoRelayUrl crate)).map SortedSet.ofList)
  | some .broadcast, _ | none, false => Interaction.call ClientCall.writeRelayUrls

/-- Saves the event, unless that is turned off. -/
def saveEvent : ClientProgram Unit :=
  if call.saveIntoDatabase then Interaction.orFail (Interaction.call (ClientCall.saveEvent call.event)) else pure ()

/-- Lets gossip learn from the event, whatever the policy. -/
def processEvent : ClientProgram Unit :=
  if client.gossip then Interaction.orFail (Interaction.call (ClientCall.process call.event)) else pure ()

def sendEvent : ClientProgram SendEventOutput := do
  Interaction.ofExcept ((call.event.verify externals crypto).mapError .ofVerifyError)
  saveEvent call
  processEvent client call
  let urls ← route externals client crate call
  poolSendEvent urls call.event call.ackPolicy call.waitForOkTimeout call.waitForAuthenticationTimeout

end Client

end RustNostr.NostrSdk
