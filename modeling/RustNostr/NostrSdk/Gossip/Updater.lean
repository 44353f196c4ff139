import Mathlib
import RustNostr.Nostr.Filter
import RustNostr.Nostr.RelayUrl
import RustNostr.NostrGossip.Interface

/-!
# The gossip updater

How the client refreshes the relay lists of public keys
(`nostr-sdk/src/client/gossip/updater.rs`): a sync with the relays, and requests to those
for which it failed. The marks of a run are the calls to `update_fetch_attempt`, each of
which sets the time of the last check of a key and a list kind.
-/

set_option autoImplicit false

namespace RustNostr.NostrGossip

def GossipListKind.toEventKind : GossipListKind → Kind
  | .nip17 => .fromU16 10050
  | .nip65 => .fromU16 10002

inductive GossipPublicKeyStatus where
  | missing
  | updated
  | outdated (createdAt : Option Timestamp)
  deriving DecidableEq

end RustNostr.NostrGossip

namespace RustNostr.NostrSdk.Gossip

open Library NostrGossip

inductive RelayStreamEvent where
  | event (event : Event)
  | error (error : Error)
  | completed
  | limitReached

abbrev EventStream : Type := List (RelayUrl × RelayStreamEvent)

/-- The relays of a sync by their outcome, the IDs that they do not have, and the events
that were received from them. -/
structure SyncOutput where
  success : List RelayUrl
  failed : List RelayUrl
  localIds : List EventId
  received : List Event

/-- What a run is given: the statuses at both checks, the stored events, and the answers of
the relays to the sync and to each request. The result of a request is an error if one of
its relays is not in the pool. -/
structure UpdaterCalls where
  firstStatus : PublicKey → GossipListKind → GossipPublicKeyStatus
  secondStatus : PublicKey → GossipListKind → GossipPublicKeyStatus
  sync : Filter → Except Error SyncOutput
  database : List Event
  streamEvents : Nat → List (RelayUrl × List Filter) → Except Error EventStream
  fetchChunks : Nat

/-- A request to the relays for which the sync failed, with what came back. -/
structure ListRequest where
  filters : List Filter
  stream : EventStream

/-- What a run does. -/
structure Refresh where
  marked : List (PublicKey × GossipListKind) := []
  requests : List ListRequest := []
  result : Except Error Unit := .ok ()

namespace Refresh

/-- An error ends the run. -/
def andThen (first next : Refresh) : Refresh :=
  match first.result with
  | .error _ => first
  | .ok () => ⟨first.marked ++ next.marked, first.requests ++ next.requests, next.result⟩

end Refresh

variable (calls : UpdaterCalls)

def computeGossipUpdateCandidates (status : PublicKey → GossipListKind → GossipPublicKeyStatus)
    (publicKeys : List PublicKey) (gossipKinds : List GossipListKind) : List PublicKey :=
  publicKeys.filter fun publicKey => gossipKinds.any fun gossipKind => status publicKey gossipKind ≠ .updated

/-- One call for each kind. -/
def updateFetchAttempts (gossipKinds : List GossipListKind) (publicKey : PublicKey) :
    List (PublicKey × GossipListKind) :=
  gossipKinds.map fun gossipKind => (publicKey, gossipKind)

def markGossipPublicKeysChecked (gossipKinds : List GossipListKind) (publicKeys : List PublicKey) :
    List (PublicKey × GossipListKind) :=
  publicKeys.flatMap (updateFetchAttempts gossipKinds)

/-- The lists of these kinds of all keys. -/
def listsFilter (gossipKinds : List GossipListKind) (publicKeys : List PublicKey) : Filter :=
  { Filter.new with
    authors := some (.ofList publicKeys)
    kinds := some (.ofList (gossipKinds.map fun gossipKind => gossipKind.toEventKind.asU16)) }

def storedEvents (gossipKinds : List GossipListKind) (publicKeys : List PublicKey) : List Event :=
  calls.database.filter fun event => (listsFilter gossipKinds publicKeys).matchEvent event {}

def removeAuthors (stored : List Event) (publicKeys : List PublicKey) : List PublicKey :=
  publicKeys.filter fun publicKey => publicKey ∉ stored.map Event.pubkey

/-- `slice::chunks` -/
def chunks {α : Type} (size : Nat) (elements : List α) : List (List α) :=
  (List.range ((elements.length + size - 1) / size)).map fun index => (elements.drop (index * size)).take size

/-- One second later, or at the end of time. -/
def nextSecond (timestamp : Timestamp) : Timestamp :=
  if timestamp.toNat + 1 < 2 ^ 64 then timestamp + 1 else timestamp

def newerFilter (event : Event) : Filter :=
  { (Filter.new.author event.pubkey).kind event.kind with
    since := some (nextSecond event.createdAt)
    limit := some 1 }

def newerFilters (output : SyncOutput) (stored : List Event) : List Filter :=
  let skipIds := output.localIds ++ output.received.map Event.id
  (stored.filter fun event => event.id ∉ skipIds).map newerFilter

/-- Every relay for which the sync failed is asked the same. -/
def failedTargets (output : SyncOutput) (filters : List Filter) : List (RelayUrl × List Filter) :=
  output.failed.map fun url => (url, filters)

def RelayStreamEvent.toEvent : RelayStreamEvent → Option Event
  | .event delivered => some delivered
  | _ => none

/-- The events of a stream, in their order. -/
def deliveredEvents (stream : EventStream) : List Event :=
  stream.filterMap fun item => item.2.toEvent

/-- One request for each chunk; the first has this index. -/
def fetchChunksFrom (gossipKinds : List GossipListKind) (output : SyncOutput) : Nat → List (List Filter) → Refresh
  | _, [] => {}
  | index, chunk :: rest =>
      match calls.streamEvents index (failedTargets output chunk) with
      | .error error => { result := .error error }
      | .ok stream =>
          let fetched : Refresh := {
            marked := (deliveredEvents stream).flatMap fun event => updateFetchAttempts gossipKinds event.pubkey
            requests := [⟨chunk, stream⟩] }
          fetched.andThen (fetchChunksFrom gossipKinds output (index + 1) rest)

def newerChunks (output : SyncOutput) (stored : List Event) : List (List Filter) :=
  chunks calls.fetchChunks (newerFilters output stored)

def fetchNewerGossipListsFromFailedRelays (gossipKinds : List GossipListKind) (output : SyncOutput)
    (stored : List Event) : Refresh :=
  fetchChunksFrom calls gossipKinds output 0 (newerChunks calls output stored)

def RelayStreamEvent.completesFetch : RelayStreamEvent → Bool
  | event _ | completed => true
  | error _ | limitReached => false

/-- With the marks that follow: the missing keys are checked if a relay answered. -/
def fetchMissingGossipListsFromFailedRelays (gossipKinds : List GossipListKind) (output : SyncOutput)
    (stored : List Event) (missing : List PublicKey) : Refresh :=
  let filters := [listsFilter gossipKinds missing]
  match calls.streamEvents (newerChunks calls output stored).length (failedTargets output filters) with
  | .error error => { result := .error error }
  | .ok stream =>
      let completedFetch := stream.any fun item => item.2.completesFetch
      { marked := if !output.success.isEmpty || completedFetch then markGossipPublicKeysChecked gossipKinds missing
          else []
        requests := [⟨filters, stream⟩] }

/-- The keys without a stored list of any kind. -/
def missingPublicKeys (stored : List Event) (outdated : List PublicKey) : List PublicKey :=
  removeAuthors stored outdated

/-- The end of a run, after the marks of the stored events. -/
def checkMissing (gossipKinds : List GossipListKind) (outdated : List PublicKey) (output : SyncOutput)
    (stored : List Event) : Refresh :=
  let missing := missingPublicKeys stored outdated
  if output.failed.isEmpty then
    if !missing.isEmpty && !output.success.isEmpty then
      { marked := markGossipPublicKeysChecked gossipKinds missing }
    else {}
  else
    (fetchNewerGossipListsFromFailedRelays calls gossipKinds output stored).andThen
      -- The keys of the stored events are removed a second time.
      (let missing := removeAuthors stored missing
      if missing.isEmpty then {}
      else fetchMissingGossipListsFromFailedRelays calls gossipKinds output stored missing)

/-- The keys that are outdated at both checks. -/
def outdatedPublicKeys (publicKeys : List PublicKey) (gossipKinds : List GossipListKind) : List PublicKey :=
  computeGossipUpdateCandidates calls.secondStatus
    (computeGossipUpdateCandidates calls.firstStatus publicKeys gossipKinds) gossipKinds

def syncGossipPublicKeys (publicKeys : List PublicKey) (gossipKinds : List GossipListKind) : Refresh :=
  if publicKeys.isEmpty then {}
  else if (computeGossipUpdateCandidates calls.firstStatus publicKeys gossipKinds).isEmpty then {}
  else
    let outdated := outdatedPublicKeys calls publicKeys gossipKinds
    if outdated.isEmpty then {}
    else
      match calls.sync (listsFilter gossipKinds outdated) with
      | .error error => { result := .error error }
      | .ok output =>
          let stored := storedEvents calls gossipKinds outdated
          let negentropy : Refresh := {
            marked := stored.flatMap fun event => updateFetchAttempts gossipKinds event.pubkey }
          negentropy.andThen (checkMissing calls gossipKinds outdated output stored)

end RustNostr.NostrSdk.Gossip
