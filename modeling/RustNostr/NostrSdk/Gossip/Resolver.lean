import Mathlib
import RustNostr.Library.Grouping
import RustNostr.Nostr.Filter
import RustNostr.NostrGossip.Interface
import RustNostr.NostrSdk.Shared

/-!
# The gossip resolver

Which relays a filter is sent to, and what is left of it for each of them
(`nostr-sdk/src/client/gossip/resolver.rs`, `gossip/mod.rs`, and of
`gossip/updater.rs` the breaking down).
-/

set_option autoImplicit false

namespace RustNostr.NostrSdk.Gossip

open Library NostrGossip

inductive BrokenDownFilters where
  | filters (map : SortedTable RelayUrl Filter)
  | orphan (filter : Filter)
  | other (filter : Filter)

inductive GossipFilterPattern where
  | nip65
  | nip65AndNip17
  deriving DecidableEq

def GossipFilterPattern.hasNip17 (pattern : GossipFilterPattern) : Bool := pattern = .nip65AndNip17

def findFilterPattern (filter : Filter) : GossipFilterPattern :=
  let areKindsEmpty := filter.kinds.all SortedSet.isEmpty
  let hasGiftWrapKind := filter.kinds.any fun kinds => (SortedSet.elems kinds).contains Kind.giftWrap.asU16
  let hasPTags := (filter.genericTags.get? .lowercaseP).isSome
  if hasGiftWrapKind || hasPTags && areKindsEmpty then .nip65AndNip17 else .nip65

structure GossipRelayLimits where
  readRelaysPerUser : UInt8 := 3
  writeRelaysPerUser : UInt8 := 3
  hintRelaysPerUser : UInt8 := 1
  mostUsedRelaysPerUser : UInt8 := 1
  nip17Relays : UInt8 := 3

/-- A gossip store, as it is asked for relays. -/
structure Store where
  getBestRelays : PublicKey → BestRelaySelection → GossipAllowedRelays →
    Except Error (SortedSet RelayUrl)

section Resolver

variable (gossip : Store) (allowed : GossipAllowedRelays)

def getRelays (publicKeys : List PublicKey) (selection : BestRelaySelection) :
    Except Error (SortedSet RelayUrl) :=
  publicKeys.foldlM (fun urls publicKey => do
    let relays ← gossip.getBestRelays publicKey selection allowed
    pure (urls.extend relays)) .empty

def mapRelays (publicKeys : List PublicKey) (selection : BestRelaySelection) :
    Except Error (Groups RelayUrl PublicKey) :=
  publicKeys.foldlM (fun urls publicKey => do
    let relays ← gossip.getBestRelays publicKey selection allowed
    pure (Groups.addAll urls relays.elems publicKey)) .empty

/-- The relays of private messages, if the pattern asks for them. -/
def nip17Relays {α : Type} (pattern : GossipFilterPattern) (limits : GossipRelayLimits)
    (lookup : BestRelaySelection → Except Error α) : Except Error (Option α) :=
  if pattern.hasNip17 then (lookup (.privateMessage limits.nip17Relays)).map some else .ok none

/-- The keys of every relay: those of the one selection, then hints, the most received,
and private messages. -/
def keyRelays (publicKeys : List PublicKey) (selection : BestRelaySelection)
    (pattern : GossipFilterPattern) (limits : GossipRelayLimits) :
    Except Error (Groups RelayUrl PublicKey) := do
  let listed ← mapRelays gossip allowed publicKeys selection
  let hints ← mapRelays gossip allowed publicKeys (.hints limits.hintRelaysPerUser)
  let mostReceived ← mapRelays gossip allowed publicKeys (.mostReceived limits.mostUsedRelaysPerUser)
  let relays := (listed.extend hints).extend mostReceived
  let nip17 ← nip17Relays pattern limits (mapRelays gossip allowed publicKeys)
  pure (nip17.elim relays relays.extend)

variable (externals : Externals)

/-- The public keys among the values of the filter's `p` tag. -/
def pTag (filter : Filter) : Option (SortedSet PublicKey) :=
  (filter.genericTags.get? .lowercaseP).map fun values =>
    SortedSet.ofList (values.elems.filterMap externals.hexDecode)

def withAuthors (filter : Filter) (publicKeys : SortedSet PublicKey) : Filter :=
  { filter with authors := some publicKeys }

def withPTag (filter : Filter) (publicKeys : SortedSet PublicKey) : Filter :=
  { filter with
    genericTags := filter.genericTags.put .lowercaseP
      (SortedSet.ofList (publicKeys.elems.map fun publicKey => externals.hexEncode publicKey.val)) }

/-- A filter for each relay, or the filter without one. -/
def perRelay {ν : Type} (filter : Filter) (relays : SortedTable RelayUrl ν) (change : ν → Filter) :
    BrokenDownFilters :=
  if relays.entries.isEmpty then .orphan filter else .filters (relays.mapValues fun _ => change)

def breakDownFilter (filter : Filter) (pattern : GossipFilterPattern) (limits : GossipRelayLimits) :
    Except Error BrokenDownFilters :=
  match filter.authors, pTag externals filter with
  | some authors, none => do
      let outbox ← keyRelays gossip allowed authors.elems (.write limits.writeRelaysPerUser) pattern limits
      pure (perRelay filter outbox (withAuthors filter))
  | none, some publicKeys => do
      let inbox ← keyRelays gossip allowed publicKeys.elems (.read limits.readRelaysPerUser) pattern limits
      pure (perRelay filter inbox (withPTag externals filter))
  | some authors, some publicKeys => do
      let union : SortedSet PublicKey := authors.extend publicKeys
      let relays ← getRelays gossip allowed union.elems
        (.all limits.readRelaysPerUser limits.writeRelaysPerUser limits.hintRelaysPerUser
          limits.mostUsedRelaysPerUser)
      let nip17 ← nip17Relays pattern limits (getRelays gossip allowed union.elems)
      pure (perRelay filter (nip17.elim relays relays.extend) fun _ => filter)
  | none, none => .ok (.other filter)

end Resolver

end RustNostr.NostrSdk.Gossip
