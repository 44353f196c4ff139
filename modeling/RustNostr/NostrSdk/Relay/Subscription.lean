import Mathlib
import RustNostr.NostrSdk.Shared
import RustNostr.Nostr.Message
import RustNostr.Nostr.Database

/-!
# Subscriptions and relay options

What a relay keeps for each subscription (`SubscriptionData` in
`nostr-sdk/src/relay/inner.rs`) and the options and limits that its handlers
read (`relay/options.rs`, `relay/limits.rs`).
-/

set_option autoImplicit false

namespace RustNostr.NostrSdk

open Library

/-- A shared object, by its identity: an `Arc`. -/
abbrev Ref := Nat

structure SubscriptionData where
  filters : List Filter
  subscribedConnection : Nat
  isAutoClosing : Bool
  /-- The `RawAcquisition` of a request-local acquisition. -/
  acquisition : Option Ref
  receivedEose : Bool := false
  receivedEvents : Nat := 0
  closed : Bool := false
  /-- The counter of REQs that are still queued, for long-lived subscriptions. -/
  pendingReqCounter : Option Ref

namespace SubscriptionData

def longLived (filters : List Filter) (subscribedConnection : Nat) (pendingReqCounter : Ref) :
    SubscriptionData where
  filters := filters
  subscribedConnection := subscribedConnection
  isAutoClosing := false
  acquisition := none
  pendingReqCounter := some pendingReqCounter

def autoClosing (filters : List Filter) (acquisition : Option Ref) : SubscriptionData where
  filters := filters
  subscribedConnection := 0
  isAutoClosing := true
  acquisition := acquisition
  pendingReqCounter := none

/-- Whether the subscription must be restored on the current WebSocket session;
`pending` gives the shared counters their values. -/
def needsRestore (data : SubscriptionData) (pending : Ref → Nat) (currentConnection : Nat) : Bool :=
  if data.isAutoClosing then false
  else if data.pendingReqCounter.any fun counter => 0 < pending counter then false
  else if data.closed then true
  else data.subscribedConnection < currentConnection

end SubscriptionData

/-- `RelayEventLimits`; the limits per kind are keyed by the kind's number, by
which kinds are compared. -/
structure RelayEventLimits where
  maxSize : Option UInt32 := none
  maxSizePerKind : SortedTable UInt16 (Option UInt32) := .empty
  maxNumTags : Option UInt16 := some 2000
  maxNumTagsPerKind : SortedTable UInt16 (Option UInt16) :=
    SortedTable.put .empty Kind.contactList.asU16 (some 10000)

namespace RelayEventLimits

def getMaxSize (limits : RelayEventLimits) (kind : Kind) : Option UInt32 :=
  (limits.maxSizePerKind.get? kind.asU16).getD limits.maxSize

def getMaxNumTags (limits : RelayEventLimits) (kind : Kind) : Option UInt16 :=
  (limits.maxNumTagsPerKind.get? kind.asU16).getD limits.maxNumTags

end RelayEventLimits

/-- The options of a relay that the modelled handlers read. -/
structure RelayOptions where
  limits : RelayEventLimits := {}
  reconnect : Bool := true
  /-- In milliseconds. -/
  connectTimeout : Nat := 15000
  verifySubscriptions : Bool := false
  banRelayOnMismatch : Bool := false

/-- `AdmitStatus`, without the reason of a rejection. -/
inductive AdmitStatus where
  | success
  | rejected
  deriving DecidableEq

end RustNostr.NostrSdk
