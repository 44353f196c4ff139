import Mathlib
import RustNostr.Library.FifoLock
import RustNostr.Library.Run
import RustNostr.Library.SortedTable
import RustNostr.Nostr.Event

/-!
# The gossip semaphore

`GossipSemaphore::acquire`, the `Drop` of its permit and `cleanup`
(`nostr-sdk/src/client/gossip/semaphore.rs`) as steps of the tasks that run
them. The code between two waits is cut at every use of a lock that another
task may see. An `Arc<Semaphore>` is the number of its allocation.
-/

set_option autoImplicit false

namespace RustNostr.NostrSdk.Gossip

open Library

abbrev SemaphoreId := Nat

/-- Where an `acquire` is, and after it the permit that it returned and the
cleanup that the permit's drop spawned. -/
inductive Phase where
  /-- At `in_flight.lock().await`. -/
  | locking
  /-- In the loop over the semaphores. -/
  | acquiring (permits semaphores : List SemaphoreId)
  /-- At `acquire_owned().await`, with the semaphores that come after. -/
  | awaiting (permits : List SemaphoreId) (semaphore : SemaphoreId) (semaphores : List SemaphoreId)
  /-- Cancelled at `acquire_owned().await`: its permits and then its guard are dropped. -/
  | unwinding (permits : List SemaphoreId)
  /-- The `GossipSemaphorePermit` is live. -/
  | holding (permits : List SemaphoreId)
  | dropping (permits : List SemaphoreId)
  /-- The cleanup was spawned and has not run yet. -/
  | spawned
  | cleanupLocking
  | cleaning (publicKeys : List PublicKey)
  /-- Over, or never begun. -/
  | finished
  deriving DecidableEq

namespace Phase

def permits : Phase → List SemaphoreId
  | acquiring permits _ | awaiting permits _ _ | unwinding permits | holding permits
  | dropping permits => permits
  | locking | spawned | cleanupLocking | cleaning _ | finished => []

/-- The semaphores of an acquire that it has no permit of yet. -/
def semaphores : Phase → List SemaphoreId
  | acquiring _ semaphores => semaphores
  | awaiting _ semaphore semaphores => semaphore :: semaphores
  | _ => []

/-- The semaphore in whose queue an acquire waits. -/
def awaited : Phase → Option SemaphoreId
  | awaiting _ semaphore _ => some semaphore
  | _ => none

/-- In the queue of the mutex, the owner included. -/
def Queues : Phase → Prop
  | locking | acquiring _ _ | awaiting _ _ _ | unwinding _ | cleanupLocking | cleaning _ => True
  | holding _ | dropping _ | spawned | finished => False

/-- Has the guard of the mutex. -/
def Guards : Phase → Prop
  | acquiring _ _ | awaiting _ _ _ | unwinding _ | cleaning _ => True
  | _ => False

/-- The task is inside `acquire`. -/
def Acquires : Phase → Prop
  | locking | acquiring _ _ | awaiting _ _ _ | unwinding _ => True
  | _ => False

/-- At one of the two waits of `acquire`. -/
def Waits : Phase → Prop
  | locking | awaiting _ _ _ => True
  | _ => False

def Live : Phase → Prop
  | holding _ => True
  | _ => False

end Phase

structure Acquire where
  task : Nat
  publicKeys : SortedSet PublicKey
  phase : Phase

/-- The shared map and its mutex, the semaphores that were ever allocated, and
all calls of `acquire`. -/
structure GossipSemaphore where
  inFlight : SortedTable PublicKey SemaphoreId
  mutex : FifoLock Nat
  /-- Those not allocated yet are free. -/
  semaphores : SemaphoreId → FifoLock Nat
  allocated : Nat
  acquires : Nat → Acquire

namespace GossipSemaphore

def permitNum : Nat := 1

/-- With nobody in its queue a semaphore has its one permit. -/
def availablePermits (semaphore : FifoLock Nat) : Nat :=
  if semaphore.isFree then permitNum else 0

def new : GossipSemaphore where
  inFlight := .empty
  mutex := .free
  semaphores _ := .free
  allocated := 0
  acquires _ := ⟨0, .empty, .finished⟩

/-- `entry(public_key).or_insert_with(..)` -/
def getSemaphore (state : GossipSemaphore) (publicKey : PublicKey) : SemaphoreId × GossipSemaphore :=
  match state.inFlight.get? publicKey with
  | some semaphore => (semaphore, state)
  | none => (state.allocated, { state with
      inFlight := state.inFlight.put publicKey state.allocated
      allocated := state.allocated + 1 })

def getSemaphores (state : GossipSemaphore) : List PublicKey → List SemaphoreId × GossipSemaphore
  | [] => ([], state)
  | publicKey :: publicKeys =>
      let (semaphore, state) := state.getSemaphore publicKey
      let (semaphores, state) := state.getSemaphores publicKeys
      (semaphore :: semaphores, state)

/-- One round of the loop of `cleanup`. -/
def cleanupKey (state : GossipSemaphore) (publicKey : PublicKey) : GossipSemaphore :=
  match state.inFlight.get? publicKey with
  | some semaphore =>
      if availablePermits (state.semaphores semaphore) = permitNum then
        { state with inFlight := state.inFlight.delete publicKey }
      else state
  | none => state

def call (state : GossipSemaphore) (id : Nat) (acquire : Acquire) : GossipSemaphore :=
  { state with acquires := Function.update state.acquires id acquire }

def enter (state : GossipSemaphore) (id : Nat) (phase : Phase) : GossipSemaphore :=
  { state with acquires := Function.update state.acquires id { state.acquires id with phase } }

def requestMutex (state : GossipSemaphore) (id : Nat) : GossipSemaphore :=
  { state with mutex := state.mutex.request id }

def leaveMutex (state : GossipSemaphore) (id : Nat) : GossipSemaphore :=
  { state with mutex := state.mutex.leave id }

def requestPermit (state : GossipSemaphore) (id : Nat) (semaphore : SemaphoreId) : GossipSemaphore :=
  { state with semaphores :=
      Function.update state.semaphores semaphore ((state.semaphores semaphore).request id) }

/-- Drops a permit, or the future that waits for one. -/
def leaveSemaphore (state : GossipSemaphore) (id : Nat) (semaphore : SemaphoreId) :
    GossipSemaphore :=
  { state with semaphores :=
      Function.update state.semaphores semaphore ((state.semaphores semaphore).leave id) }

/-- A task goes on only when its `acquire` has returned or was cancelled. -/
def Idle (state : GossipSemaphore) (task : Nat) : Prop :=
  ∀ id, (state.acquires id).task = task → ¬ (state.acquires id).phase.Acquires

end GossipSemaphore

/-- What happens next. `advance` goes on with the code of one call. -/
inductive Action where
  | acquire (id task : Nat) (publicKeys : SortedSet PublicKey)
  | cancel (id : Nat)
  | drop (id : Nat)
  | advance (id : Nat)

/-- Neither a new call nor a cancellation. -/
def Action.Progresses : Action → Prop
  | acquire _ _ _ | cancel _ => False
  | drop _ | advance _ => True

inductive Step : GossipSemaphore → Action → GossipSemaphore → Prop where
  | acquire {state : GossipSemaphore} {id task : Nat} {publicKeys : SortedSet PublicKey} :
      (state.acquires id).phase = .finished → state.Idle task →
      Step state (.acquire id task publicKeys)
        ((state.requestMutex id).call id ⟨task, publicKeys, .locking⟩)
  /-- The mutex is got, and then all semaphores of the keys. -/
  | lock {state : GossipSemaphore} {id : Nat} :
      (state.acquires id).phase = .locking → state.mutex.owner = some id →
      Step state (.advance id)
        ((state.getSemaphores (state.acquires id).publicKeys.elems).2.enter id
          (.acquiring [] (state.getSemaphores (state.acquires id).publicKeys.elems).1))
  | acquireOwned {state : GossipSemaphore} {id : Nat} {permits semaphores : List SemaphoreId}
      {semaphore : SemaphoreId} :
      (state.acquires id).phase = .acquiring permits (semaphore :: semaphores) →
      Step state (.advance id)
        ((state.requestPermit id semaphore).enter id (.awaiting permits semaphore semaphores))
  | push {state : GossipSemaphore} {id : Nat} {permits semaphores : List SemaphoreId}
      {semaphore : SemaphoreId} :
      (state.acquires id).phase = .awaiting permits semaphore semaphores →
      (state.semaphores semaphore).owner = some id →
      Step state (.advance id) (state.enter id (.acquiring (permits ++ [semaphore]) semaphores))
  /-- Releases the mutex and returns the permit. -/
  | returnPermit {state : GossipSemaphore} {id : Nat} {permits : List SemaphoreId} :
      (state.acquires id).phase = .acquiring permits [] →
      Step state (.advance id) ((state.leaveMutex id).enter id (.holding permits))
  | cancelLock {state : GossipSemaphore} {id : Nat} :
      (state.acquires id).phase = .locking →
      Step state (.cancel id) ((state.leaveMutex id).enter id .finished)
  | cancelPermit {state : GossipSemaphore} {id : Nat} {permits semaphores : List SemaphoreId}
      {semaphore : SemaphoreId} :
      (state.acquires id).phase = .awaiting permits semaphore semaphores →
      Step state (.cancel id) ((state.leaveSemaphore id semaphore).enter id (.unwinding permits))
  | unwind {state : GossipSemaphore} {id : Nat} {permits : List SemaphoreId}
      {semaphore : SemaphoreId} :
      (state.acquires id).phase = .unwinding (semaphore :: permits) →
      Step state (.advance id) ((state.leaveSemaphore id semaphore).enter id (.unwinding permits))
  | unwound {state : GossipSemaphore} {id : Nat} :
      (state.acquires id).phase = .unwinding [] →
      Step state (.advance id) ((state.leaveMutex id).enter id .finished)
  | drop {state : GossipSemaphore} {id : Nat} {permits : List SemaphoreId} :
      (state.acquires id).phase = .holding permits → state.Idle (state.acquires id).task →
      Step state (.drop id) (state.enter id (.dropping permits))
  | release {state : GossipSemaphore} {id : Nat} {permits : List SemaphoreId}
      {semaphore : SemaphoreId} :
      (state.acquires id).phase = .dropping (semaphore :: permits) →
      Step state (.advance id) ((state.leaveSemaphore id semaphore).enter id (.dropping permits))
  | spawn {state : GossipSemaphore} {id : Nat} :
      (state.acquires id).phase = .dropping [] → Step state (.advance id) (state.enter id .spawned)
  | cleanup {state : GossipSemaphore} {id : Nat} :
      (state.acquires id).phase = .spawned →
      Step state (.advance id) ((state.requestMutex id).enter id .cleanupLocking)
  | cleanupLock {state : GossipSemaphore} {id : Nat} :
      (state.acquires id).phase = .cleanupLocking → state.mutex.owner = some id →
      Step state (.advance id)
        (state.enter id (.cleaning (state.acquires id).publicKeys.elems))
  | cleanupKey {state : GossipSemaphore} {id : Nat} {publicKey : PublicKey}
      {rest : List PublicKey} :
      (state.acquires id).phase = .cleaning (publicKey :: rest) →
      Step state (.advance id) ((state.cleanupKey publicKey).enter id (.cleaning rest))
  | cleaned {state : GossipSemaphore} {id : Nat} :
      (state.acquires id).phase = .cleaning [] →
      Step state (.advance id) ((state.leaveMutex id).enter id .finished)

end RustNostr.NostrSdk.Gossip
