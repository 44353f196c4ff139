import Mathlib
import RustNostr.Library.KeyedLists
import RustNostr.Nostr.RelayList
import RustNostr.NostrGossip.Interface

/-!
# The gossip store in memory

Per public key the relays it is known with, their flags and how often events came from
them (`gossip/nostr-gossip-memory/src/store.rs`). The times of the last fetch attempts,
which processing events does not touch, are left out. A store is seen under its lock;
`now` is the clock while one event is processed.
-/

set_option autoImplicit false

namespace RustNostr.NostrGossip.Memory

open Library

def maxNip17Size : Nat := 7
def maxNip65Size : Nat := 7
def maxRelaysPerPk : Nat := 7

structure PkRelayData where
  bitflags : GossipFlags := .none
  receivedEvents : UInt64 := 0
  lastReceivedEvent : Option Timestamp := none

structure PkData where
  relays : IndexMap RelayUrl PkRelayData := .empty

/-- `NostrGossipMemory` -/
abbrev Store := LruMap PublicKey PkData

/-- `u64::saturating_add(1)` -/
def saturatingSucc (number : UInt64) : UInt64 := if number = UInt64.ofNat (2 ^ 64 - 1) then number else number + 1

/-! ## Processing events -/

def readWriteMask : GossipFlags := GossipFlags.read.add .write

def listedFlags : Option RelayMetadata → GossipFlags
  | some .read => .read
  | some .write => .write
  | none => GossipFlags.read.add .write

/-- A relay of a NIP-65 list: what it was listed for is removed before. -/
def markListed (metadata : Option RelayMetadata) : Option PkRelayData → PkRelayData
  | some data => { data with bitflags := (data.bitflags.remove readWriteMask).add (listedFlags metadata) }
  | none => { bitflags := GossipFlags.none.add (listedFlags metadata) }

/-- A relay of a NIP-17 list. -/
def markPrivateMessage : Option PkRelayData → PkRelayData
  | some data => { data with bitflags := data.bitflags.add .privateMessage }
  | none => { bitflags := GossipFlags.none.add .privateMessage }

def countReceived (now : Timestamp) (flags : GossipFlags) (data : PkRelayData) : PkRelayData where
  bitflags := data.bitflags.add flags
  receivedEvents := saturatingSucc data.receivedEvents
  lastReceivedEvent := some now

def updateRelayPerUser (now : Timestamp) (data : PkData) (relayUrl : RelayUrl) (flags : GossipFlags) :
    PkData :=
  let update (known : Option PkRelayData) := countReceived now flags (known.getD {})
  if (data.relays.get? relayUrl).isSome ∨ data.relays.len ≤ maxRelaysPerPk then
    { data with relays := data.relays.upsert relayUrl update }
  else data

def updateNip65Relays (list : List (RelayUrl × Option RelayMetadata)) (data : PkData) : PkData :=
  list.foldl (fun data entry =>
    { data with relays := data.relays.upsert entry.1 (markListed entry.2) }) data

def updateNip17Relays (list : List RelayUrl) (data : PkData) : PkData :=
  list.foldl (fun data relay =>
    { data with relays := data.relays.upsert relay markPrivateMessage }) data

variable (externals : Externals)

/-- What the event says of relays, by its kind. -/
def processLists (now : Timestamp) (store : Store) (event : Event) : Store :=
  if event.kind.asU16 = 10002 then
    store.touch event.pubkey fun data =>
      updateNip65Relays ((Nip65.extractRelayList externals event).take maxNip65Size) (data.getD {})
  else if event.kind.asU16 = 10050 then
    store.touch event.pubkey fun data =>
      updateNip17Relays ((Nip17.extractRelayList externals event).take maxNip17Size) (data.getD {})
  else
    (Nip01.relayHints externals event).foldl (fun store hint =>
      store.touch hint.1 fun data => updateRelayPerUser now (data.getD {}) hint.2 .hint) store

def processEvent (now : Timestamp) (store : Store) (event : Event) (relayUrl : Option RelayUrl) : Store :=
  let store := processLists externals now store event
  match relayUrl with
  | none => store
  | some relayUrl => store.touch event.pubkey fun data =>
      updateRelayPerUser now (data.getD {}) relayUrl .received

/-! ## Looking relays up -/

/-- More events first, then the later last event. -/
def ranksBefore (left right : PkRelayData) : Bool :=
  right.receivedEvents < left.receivedEvents ||
    (left.receivedEvents == right.receivedEvents &&
      match left.lastReceivedEvent, right.lastReceivedEvent with
      | _, none => true
      | none, some _ => false
      | some left, some right => right ≤ left)

def getRelaysByFlag (classes : RelayClasses) (store : Store) (publicKey : PublicKey) (flag : GossipFlags)
    (allowed : GossipAllowedRelays) (limit : UInt8) : List RelayUrl :=
  let relays := ((store.peek publicKey).elim [] fun data => data.relays.entries).filter fun entry =>
    allowed.isAllowed classes entry.1 && entry.2.bitflags.has flag
  ((relays.mergeSort fun left right => ranksBefore left.2 right.2).take limit.toNat).map Prod.fst

/-- The flags that a relay carries for a key. -/
def flagsOf (store : Store) (publicKey : PublicKey) (relay : RelayUrl) : GossipFlags :=
  (((store.peek publicKey).bind fun data => data.relays.get? relay).map PkRelayData.bitflags).getD .none

end RustNostr.NostrGossip.Memory
