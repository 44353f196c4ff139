import Mathlib
import RustNostr.Nostr.Event

/-!
# The gossip interface

What the gossip stores and their users share (`gossip/nostr-gossip`): the flags of a
relay, and the selection of the relays that are best for a key.
-/

set_option autoImplicit false

namespace RustNostr.NostrGossip

open Library

/-! ## Flags -/

structure GossipFlags where
  bits : UInt32 := 0
  deriving DecidableEq

namespace GossipFlags

def none : GossipFlags := ⟨0⟩
def read : GossipFlags := ⟨1⟩
def write : GossipFlags := ⟨2⟩
def privateMessage : GossipFlags := ⟨4⟩
def hint : GossipFlags := ⟨8⟩
def received : GossipFlags := ⟨16⟩

def add (flags other : GossipFlags) : GossipFlags := ⟨flags.bits ||| other.bits⟩

/-- Flips the flags, also those that are not set. -/
def remove (flags other : GossipFlags) : GossipFlags := ⟨flags.bits ^^^ other.bits⟩

def has (flags other : GossipFlags) : Bool := flags.bits &&& other.bits ≠ 0

@[simp] theorem has_none (flag : GossipFlags) : none.has flag = false := by
  simp [has, none]

@[simp] theorem has_add (flags other flag : GossipFlags) :
    (flags.add other).has flag = (flags.has flag || other.has flag) := by
  have parts : (flags.bits ||| other.bits) &&& flag.bits = 0 ↔
      flags.bits &&& flag.bits = 0 ∧ other.bits &&& flag.bits = 0 := by
    simp only [← UInt32.toBitVec_inj, UInt32.toBitVec_and, UInt32.toBitVec_or,
      BitVec.and_or_distrib_right]
    exact BitVec.or_eq_zero_iff
  simp only [has, add, ne_eq, parts, not_and_or, Bool.decide_or]

/-- A flag of one bit is that bit. -/
theorem has_eq_getLsbD (flags : GossipFlags) {flag : GossipFlags} {index : Nat} (small : index < 32)
    (single : flag.bits.toBitVec = BitVec.twoPow 32 index) :
    flags.has flag = flags.bits.toBitVec.getLsbD index := by
  have nonzero : BitVec.twoPow 32 index ≠ 0#32 := by
    intro zero
    have bit := congrArg (fun bits : BitVec 32 => bits.getLsbD index) zero
    simp [small] at bit
  have zero : flags.bits &&& flag.bits = 0 ↔ flags.bits.toBitVec.getLsbD index = false := by
    rw [← UInt32.toBitVec_inj, UInt32.toBitVec_and, single, BitVec.and_twoPow]
    cases flags.bits.toBitVec.getLsbD index with
    | false => simp
    | true => simpa using nonzero
  simp only [has, ne_eq, zero, Bool.not_eq_false, Bool.decide_eq_true]

/-- Removing a flag flips it. -/
theorem has_remove (flags other : GossipFlags) {flag : GossipFlags} {index : Nat} (small : index < 32)
    (single : flag.bits.toBitVec = BitVec.twoPow 32 index) :
    (flags.remove other).has flag = (flags.has flag ^^ other.has flag) := by
  simp only [has_eq_getLsbD _ small single, remove, UInt32.toBitVec_xor, BitVec.getLsbD_xor]

end GossipFlags

/-! ## Selection -/

inductive GossipListKind where
  | nip17
  | nip65
  deriving DecidableEq

/-- What the `url` crate says of the host and of the scheme of a relay. -/
structure RelayClasses where
  isOnion : RelayUrl → Bool
  isLocalAddr : RelayUrl → Bool
  isSecure : RelayUrl → Bool

structure GossipAllowedRelays where
  onion : Bool := true
  localRelays : Bool := false
  withoutTls : Bool := false
  deriving DecidableEq

def GossipAllowedRelays.isAllowed (classes : RelayClasses) (allowed : GossipAllowedRelays)
    (relayUrl : RelayUrl) : Bool :=
  if !allowed.onion && classes.isOnion relayUrl then false
  else if !allowed.localRelays && classes.isLocalAddr relayUrl then false
  else if !allowed.withoutTls && !classes.isSecure relayUrl then false
  else true

inductive BestRelaySelection where
  | all (read write hints mostReceived : UInt8)
  | read (limit : UInt8)
  | write (limit : UInt8)
  | privateMessage (limit : UInt8)
  | hints (limit : UInt8)
  | mostReceived (limit : UInt8)
  deriving DecidableEq

/-- A hash set of relays is the set sorted by URL; nothing depends on its order. -/
scoped instance : LinearOrder RelayUrl :=
  .lift' RelayUrl.url fun left right same => by
    cases left
    cases right
    exact congrArg _ same

end RustNostr.NostrGossip
