import Mathlib
import RustNostr.Nostr.Message
import RustNostr.NostrSdk.Relay.Acquisition

/-!
# Sessions of the local relay

What the local relay keeps for one connection
(`nostr-sdk/src/local_relay/local/session.rs`). The buckets of the rate limiter
are not part of it: what they answer is given with each message.
-/

set_option autoImplicit false

namespace RustNostr.NostrSdk.LocalRelay

open Library

structure Nip42Session where
  publicKey : Option PublicKey := none
  challenges : SortedSet String := .empty

namespace Nip42Session

def isAuthenticated (nip42 : Nip42Session) : Bool := nip42.publicKey.isSome

/-- Remembers a fresh challenge, after forgetting the others when there are too
many. -/
def generateChallenge (nip42 : Nip42Session) (challenge : String) : Nip42Session :=
  let kept := if 20 < nip42.challenges.len then .empty else nip42.challenges
  { nip42 with challenges := SortedSet.insert kept challenge }

def absDiff (left right : Nat) : Nat := max left right - min left right

/-- The challenge that an AUTH event answers, or why it fails. -/
def answeredChallenge (externals : Externals) (crypto : Crypto) (nip42 : Nip42Session)
    (event : Event) (relayUrl : RelayUrl) (now : Timestamp) : Except String String :=
  if event.kind.asU16 ≠ Nip42.authenticationKind then
    .error "invalid authentication event kind"
  else
    match Tags.challenge event.tags with
    | none => .error "challenge not found"
    | some challenge =>
        if (nip42.challenges.get? challenge).isNone then .error "received invalid challenge"
        else if 120 < absDiff now.toNat event.createdAt.toNat then
          .error "challenge is too old (max allowed 2 min)"
        else
          match event.verify externals crypto with
          | .error error => .error error.message
          | .ok () =>
              if Nip42.isValidAuthEvent externals event relayUrl challenge then .ok challenge
              else .error "invalid authentication event"

/-- A failed attempt changes nothing. -/
def checkChallenge (externals : Externals) (crypto : Crypto) (nip42 : Nip42Session)
    (event : Event) (relayUrl : RelayUrl) (now : Timestamp) : Except String Unit × Nip42Session :=
  match nip42.answeredChallenge externals crypto event relayUrl now with
  | .error error => (.error error, nip42)
  | .ok challenge =>
      (.ok (), { publicKey := some event.pubkey, challenges := nip42.challenges.delete challenge })

end Nip42Session

structure Subscription where
  filters : List Filter
  size : Nat

/-- A negentropy reconciliation: the events whose IDs and timestamps its storage
was built from, and the state that the `negentropy` crate keeps. -/
structure NegentropySubscription (ν : Type) where
  storage : List Event
  state : ν

def NegentropySubscription.items {ν : Type} (subscription : NegentropySubscription ν) : Nat :=
  subscription.storage.length

structure Session (ν : Type) where
  subscriptions : SortedTable SubscriptionId Subscription := .empty
  subscriptionBytes : Nat := 0
  negentropySubscription : SortedTable SubscriptionId (NegentropySubscription ν) := .empty
  nip42 : Nip42Session := {}

namespace Session

variable {ν : Type}

/-- Replacing a subscription releases its old size. -/
def subscriptionFits (session : Session ν) (id : SubscriptionId) (size maxSize : Nat) : Bool :=
  let replacedSize := ((session.subscriptions.get? id).map Subscription.size).getD 0
  (checkedAdd (session.subscriptionBytes - replacedSize) size).any fun total => total ≤ maxSize

def insertSubscription (session : Session ν) (id : SubscriptionId) (filters : List Filter)
    (size : Nat) : Session ν :=
  let bytes := match session.subscriptions.get? id with
    | some previous => session.subscriptionBytes - previous.size
    | none => session.subscriptionBytes
  { session with
    subscriptions := session.subscriptions.put id { filters, size }
    subscriptionBytes := saturatingAdd bytes size }

def removeSubscription (session : Session ν) (id : SubscriptionId) : Session ν :=
  match session.subscriptions.get? id with
  | some subscription =>
      { session with
        subscriptions := session.subscriptions.delete id
        subscriptionBytes := session.subscriptionBytes - subscription.size }
  | none => session

end Session

end RustNostr.NostrSdk.LocalRelay
