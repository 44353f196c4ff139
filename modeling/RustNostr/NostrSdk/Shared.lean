import Mathlib
import RustNostr.Library.Transaction
import RustNostr.Nostr.EventJson

/-!
# State shared between relays

The errors of the SDK (`nostr-sdk/src/error.rs`) and the cache of verified event
IDs that all relays of a client share (`nostr-sdk/src/shared.rs`).
-/

set_option autoImplicit false

namespace RustNostr.NostrSdk

open Library

inductive ErrorKind where
  | protocol
  | io
  | transport
  | database
  | gossip
  | policy
  | timeout
  | notFound
  | invalid
  | state
  | rejected
  | unsupported
  | limitExceeded
  | other
  deriving DecidableEq

structure Error where
  kind : ErrorKind
  message : String
  deriving DecidableEq

namespace Error

def protocolMsg (message : String) : Error := ⟨.protocol, message⟩

def invalidMsg (message : String) : Error := ⟨.invalid, message⟩

def stateMsg (message : String) : Error := ⟨.state, message⟩

def notFound (message : String) : Error := ⟨.notFound, message⟩

def limitExceeded (message : String) : Error := ⟨.limitExceeded, message⟩

def shutdown : Error := stateMsg "shutdown"

def notConnected : Error := stateMsg "relay not connected"

def timeout : Error := ⟨.timeout, "timeout"⟩

def relayNotFound : Error := ⟨.notFound, "relay not found"⟩

/-- `From<nostr::error::Error>` -/
def ofVerifyError (error : VerifyError) : Error := ⟨.protocol, error.message⟩

end Error

/-- `LruCache<K, ()>`: its keys, the least recently put last. -/
structure LruCache (κ : Type) where
  cap : Nat
  cap_pos : 0 < cap
  keys : List κ
  nodup : keys.Nodup
  len_le : keys.length ≤ cap

namespace LruCache

variable {κ : Type} [DecidableEq κ]

def new (cap : Nat) (cap_pos : 0 < cap) : LruCache κ :=
  ⟨cap, cap_pos, [], List.nodup_nil, Nat.zero_le cap⟩

/-- Looking a key up this way does not make it a recent one. -/
def contains (cache : LruCache κ) (key : κ) : Bool := cache.keys.contains key

/-- Makes the key the most recent one; a new key in a full cache evicts the
least recent one. -/
def put (cache : LruCache κ) (key : κ) : LruCache κ where
  cap := cache.cap
  cap_pos := cache.cap_pos
  keys := (key :: cache.keys.erase key).take cache.cap
  nodup := (List.nodup_cons.mpr
    ⟨cache.nodup.not_mem_erase, cache.nodup.erase key⟩).sublist (List.take_sublist _ _)
  len_le := List.length_take_le _ _

theorem not_contains_new {cap : Nat} {cap_pos : 0 < cap} (key : κ) :
    (new cap cap_pos).contains key = false := rfl

theorem contains_put {cache : LruCache κ} {key other : κ}
    (holds : (cache.put key).contains other = true) :
    other = key ∨ cache.contains other = true := by
  have member : other ∈ (key :: cache.keys.erase key).take cache.cap :=
    List.contains_iff_mem.mp holds
  cases List.mem_cons.mp (List.mem_of_mem_take member) with
  | inl same => exact .inl same
  | inr kept => exact .inr (List.contains_iff_mem.mpr (List.mem_of_mem_erase kept))

end LruCache

namespace SharedState

def maxVerificationCacheSize : Nat := 128000

/-- The verification cache of a new `SharedState`. -/
def verificationCache : LruCache EventId := .new maxVerificationCacheSize (by decide)

variable (externals : Externals) (crypto : Crypto)

/-- An event whose ID is in the cache is taken to be verified; one that fails
to verify leaves the cache as it is. -/
def verifyAndCache (event : Event) : Transaction Error (LruCache EventId) Unit := do
  let cache ← get
  if cache.contains event.id then return ()
  match event.verify externals crypto with
  | .error error => throw (Error.ofVerifyError error)
  | .ok () => modify fun cache => cache.put event.id

theorem run_verifyAndCache (event : Event) (cache : LruCache EventId) :
    (verifyAndCache externals crypto event).run cache =
      if cache.contains event.id then (.ok (), cache)
      else match event.verify externals crypto with
        | .error error => (.error (Error.ofVerifyError error), cache)
        | .ok () => (.ok (), cache.put event.id) := by
  unfold verifyAndCache
  change (if _ then _ else _ : Transaction Error (LruCache EventId) Unit).run cache = _
  split
  · rfl
  · split <;> rfl

/-- An event that fails to verify, under an ID that is in the cache. -/
def AlteredReplay (cache : LruCache EventId) (event : Event) : Prop :=
  cache.contains event.id = true ∧ ¬ event.Verified externals crypto

instance (cache : LruCache EventId) (event : Event) :
    Decidable (AlteredReplay externals crypto cache event) :=
  inferInstanceAs (Decidable (_ ∧ _))

theorem verifyAndCache_ok_iff {event : Event} {cache : LruCache EventId} :
    ((verifyAndCache externals crypto event).run cache).1 = .ok () ↔
      cache.contains event.id = true ∨ event.Verified externals crypto := by
  rw [run_verifyAndCache]
  split
  · next known => simp [known]
  · next unknown =>
      cases verified : event.verify externals crypto with
      | error error =>
          have fails : ¬ event.Verified externals crypto := by
            rw [← Event.verify_ok_iff, verified]
            simp
          simp [unknown, fails]
      | ok _ => simp [Event.verify_ok_iff.mp verified]

/-- What the cache holds afterwards it held before, or it is the ID of the
event, which has been verified. -/
theorem contains_verifyAndCache {event : Event} {cache : LruCache EventId} {id : EventId}
    (holds : ((verifyAndCache externals crypto event).run cache).2.contains id = true) :
    cache.contains id = true ∨ (id = event.id ∧ event.Verified externals crypto) := by
  rw [run_verifyAndCache] at holds
  split at holds
  · exact .inl holds
  · split at holds
    · exact .inl holds
    · next verified =>
        cases LruCache.contains_put holds with
        | inl same => exact .inr ⟨same, Event.verify_ok_iff.mp verified⟩
        | inr before => exact .inl before

end SharedState

end RustNostr.NostrSdk
