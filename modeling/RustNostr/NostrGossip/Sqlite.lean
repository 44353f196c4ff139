import Mathlib
import RustNostr.Library.Grouping
import RustNostr.Nostr.RelayList
import RustNostr.Nostr.RelayUrl
import RustNostr.NostrGossip.Interface

/-!
# The gossip store in SQLite

Processing events (`gossip/nostr-gossip-sqlite/src/store.rs`). The tables of public keys
and of relays only give numbers to keys and to URL texts, so a row of `relays_per_user`
stands here under the key and the text itself. Integers of a column have 64 bits.
-/

set_option autoImplicit false

namespace RustNostr.NostrGossip.Sqlite

open Library

structure RelayPerUser where
  bitflags : BitVec 64 := 0
  receivedEvents : Nat := 0
  lastReceivedEvent : Int64 := 0

/-- The table `relays_per_user`. -/
abbrev Database := SortedTable (PublicKey ×ₗ String) RelayPerUser

/-- The text of the relay in the table `relays`. -/
def urlText (relayUrl : RelayUrl) : String := FullRelayUrl.trimSlashes relayUrl.url

def rowKey (publicKey : PublicKey) (relayUrl : RelayUrl) : PublicKey ×ₗ String :=
  toLex (publicKey, urlText relayUrl)

/-- `GossipFlags::as_u32` as a parameter of a statement. -/
def column (flags : GossipFlags) : BitVec 64 := flags.bits.toBitVec.setWidth 64

def readWriteFlags : GossipFlags := GossipFlags.read.add .write

/-- `INSERT … ON CONFLICT … DO UPDATE` -/
def upsert (database : Database) (key : PublicKey ×ₗ String) (inserted : RelayPerUser)
    (update : RelayPerUser → RelayPerUser) : Database :=
  database.put key ((database.get? key).elim inserted update)

def removeFlagFromUserRelays (database : Database) (publicKey : PublicKey) (flags : GossipFlags) :
    Database :=
  database.mapValues fun key row =>
    if (ofLex key).1 = publicKey then { row with bitflags := row.bitflags &&& ~~~column flags } else row

def updateRelayPerUser (now : Timestamp) (database : Database) (publicKey : PublicKey)
    (relayUrl : RelayUrl) (flags : GossipFlags) : Database :=
  upsert database (rowKey publicKey relayUrl)
    { bitflags := column flags, receivedEvents := 1, lastReceivedEvent := now.toInt64 }
    fun row => {
      bitflags := row.bitflags ||| column flags
      receivedEvents := row.receivedEvents + 1
      lastReceivedEvent := now.toInt64 }

/-- Sets flags of a listed relay. -/
def listRelay (database : Database) (publicKey : PublicKey) (relayUrl : RelayUrl) (flags : GossipFlags) :
    Database :=
  upsert database (rowKey publicKey relayUrl) { bitflags := column flags }
    fun row => { row with bitflags := row.bitflags ||| column flags }

def listedFlags : Option RelayMetadata → GossipFlags
  | some .read => .read
  | some .write => .write
  | none => readWriteFlags

def updateNip65Relays (database : Database) (publicKey : PublicKey)
    (list : List (RelayUrl × Option RelayMetadata)) : Database :=
  list.foldl (fun database entry => listRelay database publicKey entry.1 (listedFlags entry.2))
    (removeFlagFromUserRelays database publicKey readWriteFlags)

def updateNip17Relays (database : Database) (publicKey : PublicKey) (list : List RelayUrl) : Database :=
  list.foldl (fun database relay => listRelay database publicKey relay .privateMessage)
    (removeFlagFromUserRelays database publicKey .privateMessage)

variable (externals : Externals)

def updateHints (now : Timestamp) (database : Database) (event : Event) : Database :=
  (Nip01.relayHints externals event).foldl
    (fun database hint => updateRelayPerUser now database hint.1 hint.2 .hint) database

def processEvent (now : Timestamp) (database : Database) (event : Event) (relayUrl : Option RelayUrl) :
    Database :=
  let database :=
    if event.kind.asU16 = 10002 then
      updateNip65Relays database event.pubkey (Nip65.extractRelayList externals event)
    else if event.kind.asU16 = 10050 then
      updateNip17Relays database event.pubkey (Nip17.extractRelayList externals event)
    else updateHints externals now database event
  match relayUrl with
  | none => database
  | some relayUrl => updateRelayPerUser now database event.pubkey relayUrl .received

/-- The flags of the relay's row, without one none. -/
def flagsOf (database : Database) (publicKey : PublicKey) (relay : RelayUrl) : BitVec 64 :=
  ((database.get? (rowKey publicKey relay)).map RelayPerUser.bitflags).getD 0

end RustNostr.NostrGossip.Sqlite
