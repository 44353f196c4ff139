import Mathlib
import RustNostr.Library.Run
import RustNostr.Library.TableTotals
import RustNostr.NostrGossip.Interface
import RustNostr.NostrSdk.Shared

/-!
# The relay pool

Adding and removing relays, connecting and shutting down
(`nostr-sdk/src/pool/mod.rs`), by tasks whose steps interleave. What a task does
under the lock of the relays is one step: nothing is awaited there.
-/

set_option autoImplicit false

namespace RustNostr.NostrSdk

open Library NostrGossip

structure RelayCapabilities where
  bits : UInt64
  deriving DecidableEq

namespace RelayCapabilities

def read : RelayCapabilities := ⟨1⟩

def write : RelayCapabilities := ⟨2⟩

def gossip : RelayCapabilities := ⟨4⟩

def discovery : RelayCapabilities := ⟨8⟩

def union (left right : RelayCapabilities) : RelayCapabilities := ⟨left.bits ||| right.bits⟩

def hasAny (capabilities other : RelayCapabilities) : Bool :=
  capabilities.bits &&& other.bits != 0

def remove (capabilities other : RelayCapabilities) : RelayCapabilities :=
  ⟨capabilities.bits &&& ~~~other.bits⟩

end RelayCapabilities

/-- What the pool calls on its relays. -/
inductive RelayCall where
  | connect (url : RelayUrl)
  | disconnect (url : RelayUrl)
  | shutdown (url : RelayUrl)
  deriving DecidableEq

/-- The relays with their capabilities, and the mark that the pool has been
shut down. -/
structure RelayPool where
  relays : SortedTable RelayUrl RelayCapabilities := .empty
  isShutdown : Bool := false

structure PoolOptions where
  /-- An `Option<NonZeroUsize>`. -/
  maxRelays : Option ℕ+ := none
  admitPolicy : Bool := false

/-- What a call returns, and what it has called on relays. -/
structure Locked (α : Type) where
  result : α
  pool : RelayPool
  calls : List RelayCall := []

def PoolOptions.isFull (options : PoolOptions) (relays : Nat) : Bool :=
  options.maxRelays.any fun max : ℕ+ => (max : Nat) ≤ relays

structure AddRelay where
  url : RelayUrl
  capabilities : RelayCapabilities
  connect : Bool

def AddRelay.calls (call : AddRelay) : List RelayCall :=
  if call.connect then [.connect call.url] else []

namespace RelayPool

variable (pool : RelayPool)

/-- `add_relay` under the lock. -/
def addRelay (options : PoolOptions) (call : AddRelay) : Locked (Except Error Bool) :=
  match pool.relays.get? call.url with
  | some current =>
      { result := .ok false
        pool := { pool with relays := pool.relays.put call.url (current.union call.capabilities) }
        calls := call.calls }
  | none =>
      if options.isFull pool.relays.len then
        { result := .error (.limitExceeded "too many relays"), pool }
      else
        { result := .ok true
          pool := { pool with relays := pool.relays.put call.url call.capabilities }
          calls := call.calls }

/-- The capabilities left to a relay that gossip needs, which cannot be removed. -/
def cannotRemove (capabilities : RelayCapabilities) : Option RelayCapabilities :=
  if capabilities.hasAny .gossip then
    some (capabilities.remove ((RelayCapabilities.read.union .write).union .discovery))
  else none

def removeRelay (url : RelayUrl) (force : Bool) : Locked (Except Error Unit) :=
  match pool.relays.get? url with
  | none => { result := .error .relayNotFound, pool }
  | some capabilities =>
      let removed : Locked (Except Error Unit) :=
        { result := .ok ()
          pool := { pool with relays := pool.relays.delete url }
          calls := [.disconnect url] }
      if force then removed
      else
        match cannotRemove capabilities with
        | some left =>
            { result := .ok (), pool := { pool with relays := pool.relays.put url left } }
        | none => removed

/-- Shuts a relay down, or puts it back if it cannot be removed. -/
def removeOrPutBack (locked : Locked Unit) (entry : RelayUrl × RelayCapabilities) : Locked Unit :=
  match cannotRemove entry.2 with
  | some left =>
      { locked with pool := { locked.pool with relays := locked.pool.relays.put entry.1 left } }
  | none => { locked with calls := locked.calls ++ [.shutdown entry.1] }

/-- `remove_all_relays` without force. -/
def removeRemovableRelays : Locked Unit :=
  pool.relays.entries.foldl removeOrPutBack
    { result := (), pool := { pool with relays := .empty } }

def forceRemoveAllRelays : Locked Unit where
  result := ()
  pool := { pool with relays := .empty }
  calls := pool.relays.entries.map fun entry => .shutdown entry.1

def removeAllRelays (force : Bool) : Locked Unit :=
  if force then pool.forceRemoveAllRelays else pool.removeRemovableRelays

def connect : Locked Unit where
  result := ()
  pool := pool
  calls := pool.relays.entries.map fun entry => .connect entry.1

/-- A pool that has been shut down is left as it is. -/
def shutdown : Locked Unit :=
  if pool.isShutdown then { result := (), pool }
  else RelayPool.forceRemoveAllRelays { pool with isShutdown := true }

end RelayPool

/-- Calls of one task to the pool, apart from `add_relay`. -/
inductive PoolCall where
  | removeRelay (url : RelayUrl) (force : Bool)
  | removeAllRelays (force : Bool)
  | connect
  | shutdown

def PoolCall.locked (pool : RelayPool) : PoolCall → Locked Unit
  | removeRelay url force =>
      let locked := pool.removeRelay url force
      { result := (), pool := locked.pool, calls := locked.calls }
  | removeAllRelays force => pool.removeAllRelays force
  | connect => pool.connect
  | shutdown => pool.shutdown

/-- Where a task is in its call. -/
inductive PoolTask where
  | idle
  /-- Before `add_relay` looks whether the pool has been shut down. -/
  | adding (call : AddRelay)
  /-- The policy is asked. -/
  | policing (call : AddRelay)
  /-- The policy has admitted the relay; the lock is awaited. -/
  | locking (call : AddRelay)
  | calling (call : PoolCall)

structure PoolState (κ : Type) where
  pool : RelayPool := {}
  tasks : κ → PoolTask := fun _ => .idle

inductive PoolAct where
  | start
  | check
  | enter
  | cancel
  /-- `add_relay` returns. -/
  | added (result : Except Error Bool) (calls : List RelayCall)
  /-- Another call returns. -/
  | called (calls : List RelayCall)

structure PoolLabel (κ : Type) where
  task : κ
  act : PoolAct

namespace PoolState

variable {κ : Type} [DecidableEq κ]

/-- The task goes on, with the pool as given. -/
def go (state : PoolState κ) (task : κ) (next : PoolTask) (pool : RelayPool) : PoolState κ where
  pool := pool
  tasks := Function.update state.tasks task next

end PoolState

/-- One step of a task. A future may be dropped wherever it awaits. -/
inductive PoolStep {κ : Type} [DecidableEq κ] (options : PoolOptions) (state : PoolState κ) :
    PoolLabel κ → PoolState κ → Prop where
  | add {task : κ} (call : AddRelay) : state.tasks task = .idle →
      PoolStep options state ⟨task, .start⟩ (state.go task (.adding call) state.pool)
  | call {task : κ} (call : PoolCall) : state.tasks task = .idle →
      PoolStep options state ⟨task, .start⟩ (state.go task (.calling call) state.pool)
  | cancel {task : κ} : PoolStep options state ⟨task, .cancel⟩ (state.go task .idle state.pool)
  | check {task : κ} {call : AddRelay} : state.tasks task = .adding call →
      state.pool.isShutdown = false →
      PoolStep options state ⟨task, .check⟩ (state.go task (.policing call) state.pool)
  | refuse {task : κ} {call : AddRelay} : state.tasks task = .adding call →
      state.pool.isShutdown = true →
      PoolStep options state ⟨task, .added (.error .shutdown) []⟩
        (state.go task .idle state.pool)
  | enter {task : κ} {call : AddRelay} : state.tasks task = .policing call →
      PoolStep options state ⟨task, .enter⟩ (state.go task (.locking call) state.pool)
  | reject {task : κ} {call : AddRelay} : state.tasks task = .policing call →
      options.admitPolicy = true →
      PoolStep options state ⟨task, .added (.ok false) []⟩ (state.go task .idle state.pool)
  | policyFails {task : κ} {call : AddRelay} {error : Error} :
      state.tasks task = .policing call → options.admitPolicy = true →
      PoolStep options state ⟨task, .added (.error error) []⟩ (state.go task .idle state.pool)
  | addRelay {task : κ} {call : AddRelay} : state.tasks task = .locking call →
      PoolStep options state
        ⟨task, .added (state.pool.addRelay options call).result
          (state.pool.addRelay options call).calls⟩
        (state.go task .idle (state.pool.addRelay options call).pool)
  | locked {task : κ} {call : PoolCall} : state.tasks task = .calling call →
      PoolStep options state ⟨task, .called (call.locked state.pool).calls⟩
        (state.go task .idle (call.locked state.pool).pool)

end RustNostr.NostrSdk
