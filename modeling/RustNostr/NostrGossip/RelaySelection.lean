import Mathlib
import RustNostr.Library.RowOrder
import RustNostr.NostrGossip.LatestLists
import RustNostr.NostrGossip.Sqlite

/-!
# Relays of a flag in SQLite

`get_relays_by_flag` of `gossip/nostr-gossip-sqlite/src/store.rs`. The statement ranks the
rows and limits them to a page; what is allowed is decided afterwards, on the page.
-/

set_option autoImplicit false

namespace RustNostr.NostrGossip.Sqlite

open Library

/-- A row of the statement, with the URL of its relay. -/
structure UserRelay where
  url : String
  row : RelayPerUser

def relaysQueryLimit : UInt8 := 21

/-- `ORDER BY rpu.received_events DESC, rpu.last_received_event DESC` -/
def rank (relay : UserRelay) : ℕᵒᵈ ×ₗ ℤᵒᵈ :=
  toLex (OrderDual.toDual relay.row.receivedEvents, OrderDual.toDual relay.row.lastReceivedEvent.toInt)

/-- `WHERE pk.public_key = ?1 AND (rpu.bitflags & ?2) = ?2` -/
def relaysWithFlag (database : Database) (publicKey : PublicKey) (flag : GossipFlags) : List UserRelay :=
  (database.entries.filter fun entry =>
      (ofLex entry.1).1 = publicKey ∧ entry.2.bitflags &&& column flag = column flag).map
    fun entry => ⟨(ofLex entry.1).2, entry.2⟩

variable (externals : Externals) (classes : RelayClasses) (order : Arrangement rank)
variable (database : Database) (publicKey : PublicKey) (flag : GossipFlags)
variable (allowed : GossipAllowedRelays) (limit : UInt8)

/-- The relay of a row, if its URL is valid and the relay is allowed. -/
def allowedRelay (relay : UserRelay) : Option RelayUrl :=
  (externals.relayUrlParse relay.url).filter (allowed.isAllowed classes)

/-- The loop over the rows of the page. -/
def collectRelays (relays : List RelayUrl) : List UserRelay → List RelayUrl
  | [] => relays
  | relay :: rest =>
      if limit.toNat ≤ relays.length then relays
      else
        match externals.relayUrlParse relay.url with
        | some relayUrl =>
            if !allowed.isAllowed classes relayUrl then collectRelays relays rest
            else collectRelays (relays ++ [relayUrl]) rest
        | none => collectRelays relays rest

def getRelaysByFlag : List RelayUrl :=
  let queryLimit := max limit relaysQueryLimit
  let rows := (order.arrange (relaysWithFlag database publicKey flag)).take queryLimit.toNat
  collectRelays externals classes allowed limit [] rows

/-- The first allowed relays with the flag, in one of the orders that the ranking leaves. -/
def FirstAllowed (result : List RelayUrl) : Prop :=
  ∃ order : Arrangement rank,
    result = ((order.arrange (relaysWithFlag database publicKey flag)).filterMap
      (allowedRelay externals classes allowed)).take limit.toNat

variable {externals classes order database publicKey flag allowed limit}

theorem collectRelays_eq (relays : List RelayUrl) (rows : List UserRelay) :
    collectRelays externals classes allowed limit relays rows =
      relays ++ (rows.filterMap (allowedRelay externals classes allowed)).take
        (limit.toNat - relays.length) := by
  induction rows generalizing relays with
  | nil => simp [collectRelays]
  | cons relay rest ih =>
      rw [collectRelays]
      by_cases full : limit.toNat ≤ relays.length
      · rw [if_pos full, Nat.sub_eq_zero_of_le full, List.take_zero, List.append_nil]
      · rw [if_neg full]
        cases parsed : externals.relayUrlParse relay.url with
        | none =>
            have skipped : allowedRelay externals classes allowed relay = none := by
              rw [allowedRelay, parsed]
              rfl
            rw [List.filterMap_cons_none skipped]
            exact ih relays
        | some relayUrl =>
            by_cases isAllowed : allowed.isAllowed classes relayUrl = true
            · have kept : allowedRelay externals classes allowed relay = some relayUrl := by
                rw [allowedRelay, parsed, Option.filter_some, if_pos isAllowed]
              have one : limit.toNat - relays.length = limit.toNat - (relays.length + 1) + 1 := by omega
              rw [List.filterMap_cons_some kept]
              simp only [isAllowed, Bool.not_true, Bool.false_eq_true, if_false]
              rw [ih, one, List.take_succ_cons, List.length_append, List.length_singleton,
                List.append_assoc, List.singleton_append]
            · have skipped : allowedRelay externals classes allowed relay = none := by
                rw [allowedRelay, parsed, Option.filter_some, if_neg isAllowed]
              rw [List.filterMap_cons_none skipped]
              simp only [isAllowed, Bool.not_false, if_true]
              exact ih relays

theorem getRelaysByFlag_eq :
    getRelaysByFlag externals classes order database publicKey flag allowed limit =
      (((order.arrange (relaysWithFlag database publicKey flag)).take
          (max limit relaysQueryLimit).toNat).filterMap
        (allowedRelay externals classes allowed)).take limit.toNat := by
  rw [getRelaysByFlag, collectRelays_eq]
  rfl

/-- The relays returned are the first allowed ones exactly if enough of those on the page
are allowed, or no row behind the page is. -/
theorem getRelaysByFlag_firstAllowed_iff :
    FirstAllowed externals classes database publicKey flag allowed limit
        (getRelaysByFlag externals classes order database publicKey flag allowed limit) ↔
      PageSuffices (allowedRelay externals classes allowed)
        (order.arrange (relaysWithFlag database publicKey flag))
        (max limit relaysQueryLimit).toNat limit.toNat := by
  rw [getRelaysByFlag_eq]
  constructor
  · intro first
    obtain ⟨other, same⟩ := first
    exact pageSuffices_of_take_eq ((other.perm _).trans (order.perm _).symm) same
  · exact fun enough => ⟨order, enough.take_eq⟩

/-! ## A page of relays that are not allowed -/

/-- Relays are secure by their scheme. -/
def sampleClasses : RelayClasses where
  isOnion _ := false
  isLocalAddr _ := false
  isSecure relayUrl := "wss://".toList.isPrefixOf relayUrl.url.toList

def reader : PublicKey := .replicate 32 1

/-- A read relay of the key with so many events. -/
def readRelay (url : String) (receivedEvents : Nat) : (PublicKey ×ₗ String) × RelayPerUser :=
  (toLex (reader, url), { bitflags := 1, receivedEvents })

/-- Twenty-one relays without TLS rank before one with TLS. -/
def crowded : Database :=
  .ofEntries (readRelay "wss://secure.example" 1 ::
    (List.range 21).map fun number => readRelay ("ws://plain.example/" ++ toString number) 2)

open Memory.LatestLists in
/-- The allowed relay is the twenty-second and is not found. -/
theorem getRelaysByFlag_crowded :
    getRelaysByFlag sampleExternals sampleClasses (.stable rank) crowded reader .read {} 1 = [] ∧
      ¬ FirstAllowed sampleExternals sampleClasses crowded reader .read {} 1 [] := by
  -- One evaluation of the database serves both facts.
  have evaluated : getRelaysByFlag sampleExternals sampleClasses (.stable rank) crowded reader .read {} 1 = [] ∧
      ((relaysWithFlag crowded reader .read).filterMap
        (allowedRelay sampleExternals sampleClasses {})).length = 1 := by
    decide +kernel
  obtain ⟨crowdedOut, one⟩ := evaluated
  constructor
  · exact crowdedOut
  · intro first
    obtain ⟨order, same⟩ := first
    have lengths := congrArg List.length same
    rw [List.length_take, ((order.perm _).filterMap _).length_eq, one] at lengths
    cases lengths

end RustNostr.NostrGossip.Sqlite
