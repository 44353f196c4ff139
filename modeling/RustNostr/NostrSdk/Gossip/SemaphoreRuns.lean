import Mathlib
import RustNostr.NostrSdk.Gossip.Semaphore

/-!
# Runs of the gossip semaphore

What holds of the mutex, of the semaphores and of the map in every run:
whose turn it is, which permits are out, and for which keys.
-/

set_option autoImplicit false

namespace RustNostr.NostrSdk.Gossip

open Library

variable {state after : GossipSemaphore} {action : Action} {id : Nat} {acquire : Acquire}

namespace GossipSemaphore

theorem getSemaphore_frame (state : GossipSemaphore) (publicKey : PublicKey) :
    (state.getSemaphore publicKey).2.mutex = state.mutex ∧
      (state.getSemaphore publicKey).2.semaphores = state.semaphores ∧
      (state.getSemaphore publicKey).2.acquires = state.acquires := by
  unfold getSemaphore
  split <;> exact ⟨rfl, rfl, rfl⟩

theorem getSemaphores_frame (state : GossipSemaphore) (publicKeys : List PublicKey) :
    (state.getSemaphores publicKeys).2.mutex = state.mutex ∧
      (state.getSemaphores publicKeys).2.semaphores = state.semaphores ∧
      (state.getSemaphores publicKeys).2.acquires = state.acquires := by
  induction publicKeys generalizing state with
  | nil => exact ⟨rfl, rfl, rfl⟩
  | cons publicKey publicKeys ih =>
      obtain ⟨mutex, semaphores, acquires⟩ := ih (state.getSemaphore publicKey).2
      obtain ⟨mutex', semaphores', acquires'⟩ := getSemaphore_frame state publicKey
      exact ⟨mutex.trans mutex', semaphores.trans semaphores', acquires.trans acquires'⟩

theorem cleanupKey_frame (state : GossipSemaphore) (publicKey : PublicKey) :
    (state.cleanupKey publicKey).mutex = state.mutex ∧
      (state.cleanupKey publicKey).semaphores = state.semaphores ∧
      (state.cleanupKey publicKey).allocated = state.allocated ∧
      (state.cleanupKey publicKey).acquires = state.acquires := by
  unfold cleanupKey
  split
  · split <;> exact ⟨rfl, rfl, rfl, rfl⟩
  · exact ⟨rfl, rfl, rfl, rfl⟩

theorem call_acquires (same : after.acquires = state.acquires) :
    (after.call id acquire).acquires = Function.update state.acquires id acquire := by
  rw [call, same]

theorem enter_acquires {phase : Phase} (same : after.acquires = state.acquires) :
    (after.enter id phase).acquires =
      Function.update state.acquires id { state.acquires id with phase } := by
  rw [enter, same]

/-- A cleanup takes away the one entry that nobody uses. -/
theorem get?_cleanupKey {publicKey other : PublicKey} {semaphore : SemaphoreId} :
    (state.cleanupKey publicKey).inFlight.get? other = some semaphore ↔
      state.inFlight.get? other = some semaphore ∧
        ¬ (other = publicKey ∧ (state.semaphores semaphore).isFree) := by
  unfold cleanupKey availablePermits permitNum
  cases found : state.inFlight.get? publicKey with
  | none =>
      simp only [iff_self_and]
      rintro present ⟨rfl, _⟩
      rw [found] at present
      cases present
  | some used =>
      by_cases isFree : (state.semaphores used).isFree
      · simp only [isFree, if_true, SortedTable.get?_delete]
        by_cases same : other = publicKey
        · rw [same, found]
          simp only [if_true, reduceCtorEq, Option.some.injEq, true_and, false_iff, not_and, not_not]
          rintro rfl
          exact isFree
        · simp [same]
      · simp only [isFree, Bool.false_eq_true, if_false, zero_ne_one, iff_self_and]
        rintro present ⟨rfl, free⟩
        rw [found] at present
        cases present
        exact isFree free

end GossipSemaphore

/-- The semaphores that an acquire has a permit of, or will ask for one. -/
def Phase.claims (phase : Phase) : List SemaphoreId := phase.permits ++ phase.semaphores

/-- The acquire is bound to have a permit for each of its keys, or has it. -/
def Phase.Secures : Phase → Prop
  | acquiring _ _ | awaiting _ _ _ | holding _ => True
  | _ => False

/-! ## The map -/

/-- No two keys have one semaphore. -/
structure MapValid (state : GossipSemaphore) : Prop where
  injective : ∀ semaphore publicKey other, state.inFlight.get? publicKey = some semaphore →
    state.inFlight.get? other = some semaphore → publicKey = other
  allocated : ∀ semaphore publicKey, state.inFlight.get? publicKey = some semaphore →
    semaphore < state.allocated

/-- What getting the semaphores of some keys does to the map. -/
structure Extends (before after : GossipSemaphore) (publicKeys : List PublicKey) : Prop where
  kept : ∀ publicKey semaphore, before.inFlight.get? publicKey = some semaphore →
    after.inFlight.get? publicKey = some semaphore
  added : ∀ publicKey semaphore, after.inFlight.get? publicKey = some semaphore →
    before.inFlight.get? publicKey = some semaphore ∨
      publicKey ∈ publicKeys ∧ before.allocated ≤ semaphore
  grows : before.allocated ≤ after.allocated

namespace MapValid

theorem getSemaphore (valid : MapValid state) (publicKey : PublicKey) :
    MapValid (state.getSemaphore publicKey).2 ∧
      Extends state (state.getSemaphore publicKey).2 [publicKey] ∧
      (state.getSemaphore publicKey).2.inFlight.get? publicKey =
        some (state.getSemaphore publicKey).1 := by
  unfold GossipSemaphore.getSemaphore
  cases found : state.inFlight.get? publicKey with
  | some semaphore => exact ⟨valid, ⟨fun _ _ => id, fun _ _ => .inl, le_rfl⟩, found⟩
  | none =>
      refine ⟨⟨?_, ?_⟩, ⟨?_, ?_, Nat.le_succ _⟩, ?_⟩
      · intro semaphore first second
        simp only [SortedTable.get?_put]
        have bound := valid.allocated semaphore
        split_ifs with isFirst isSecond isSecond
        · intro _ _
          rw [isFirst, isSecond]
        · intro same other
          cases same
          exact absurd (bound second other) (lt_irrefl _)
        · intro other same
          cases same
          exact absurd (bound first other) (lt_irrefl _)
        · exact valid.injective semaphore first second
      · intro semaphore other
        simp only [SortedTable.get?_put]
        split_ifs with here
        · intro same
          cases same
          exact Nat.lt_succ_self _
        · exact fun present => Nat.lt_succ_of_lt (valid.allocated semaphore other present)
      · intro other semaphore present
        have different : other ≠ publicKey := by
          rintro rfl
          rw [found] at present
          cases present
        simp only [SortedTable.get?_put, different, if_false]
        exact present
      · intro other semaphore
        simp only [SortedTable.get?_put]
        split_ifs with here
        · intro same
          cases same
          exact .inr ⟨List.mem_singleton.mpr here, le_rfl⟩
        · exact .inl
      · simp [SortedTable.get?_put]

/-- Each key gets the semaphore that the map has for it afterwards. -/
theorem getSemaphores (valid : MapValid state) (publicKeys : List PublicKey) :
    MapValid (state.getSemaphores publicKeys).2 ∧
      Extends state (state.getSemaphores publicKeys).2 publicKeys ∧
      publicKeys.map (state.getSemaphores publicKeys).2.inFlight.get? =
        (state.getSemaphores publicKeys).1.map some := by
  induction publicKeys generalizing state with
  | nil => exact ⟨valid, ⟨fun _ _ => id, fun _ _ => .inl, le_rfl⟩, rfl⟩
  | cons publicKey publicKeys ih =>
      obtain ⟨first, head, found⟩ := valid.getSemaphore publicKey
      obtain ⟨last, tail, rest⟩ := ih first
      refine ⟨last, ⟨?_, ?_, head.grows.trans tail.grows⟩, ?_⟩
      · exact fun other semaphore present =>
          tail.kept other semaphore (head.kept other semaphore present)
      · intro other semaphore present
        rcases tail.added other semaphore present with earlier | ⟨member, fresh⟩
        · rcases head.added other semaphore earlier with before | ⟨member, fresh⟩
          · exact .inl before
          · cases List.mem_singleton.mp member
            exact .inr ⟨List.mem_cons_self, fresh⟩
        · exact .inr ⟨List.mem_cons_of_mem _ member, head.grows.trans fresh⟩
      · exact congrArg₂ List.cons (tail.kept _ _ found) rest

theorem getSemaphores_nodup (valid : MapValid state) {publicKeys : List PublicKey}
    (distinct : publicKeys.Nodup) : (state.getSemaphores publicKeys).1.Nodup := by
  obtain ⟨last, _, found⟩ := valid.getSemaphores publicKeys
  have images : (publicKeys.map (state.getSemaphores publicKeys).2.inFlight.get?).Nodup := by
    refine List.Nodup.map_on ?_ distinct
    intro first member second _ same
    have present := List.mem_map_of_mem (f := (state.getSemaphores publicKeys).2.inFlight.get?) member
    rw [found] at present
    obtain ⟨semaphore, _, here⟩ := List.mem_map.mp present
    exact last.injective semaphore first second here.symm (here.trans same).symm
  rw [found] at images
  exact images.of_map

theorem cleanupKey (valid : MapValid state) (publicKey : PublicKey) :
    MapValid (state.cleanupKey publicKey) := by
  obtain ⟨_, _, allocated, _⟩ := state.cleanupKey_frame publicKey
  have kept : ∀ other semaphore, (state.cleanupKey publicKey).inFlight.get? other = some semaphore →
      state.inFlight.get? other = some semaphore :=
    fun other semaphore present => (GossipSemaphore.get?_cleanupKey.mp present).1
  constructor
  · exact fun semaphore first second firstPresent secondPresent =>
      valid.injective semaphore first second (kept _ _ firstPresent) (kept _ _ secondPresent)
  · intro semaphore other present
    rw [allocated]
    exact valid.allocated semaphore other (kept _ _ present)

theorem step (valid : MapValid state) (step : Step state action after) : MapValid after := by
  cases step with
  | lock locking owns =>
      obtain ⟨injective, allocated⟩ := (valid.getSemaphores _).1
      exact ⟨injective, allocated⟩
  | cleanupKey cleaning =>
      obtain ⟨injective, allocated⟩ := valid.cleanupKey _
      exact ⟨injective, allocated⟩
  | _ => exact ⟨valid.injective, valid.allocated⟩

end MapValid

/-! ## The mutex -/

structure MutexValid (state : GossipSemaphore) : Prop where
  member : ∀ id, id ∈ state.mutex ↔ (state.acquires id).phase.Queues
  owner : ∀ id, (state.acquires id).phase.Guards → state.mutex.owner = some id

namespace MutexValid

theorem update (valid : MutexValid state)
    (acquires : after.acquires = Function.update state.acquires id acquire)
    (others : ∀ other, other ≠ id → (other ∈ after.mutex ↔ other ∈ state.mutex) ∧
      (state.mutex.owner = some other → after.mutex.owner = some other))
    (member : id ∈ after.mutex ↔ acquire.phase.Queues)
    (owner : acquire.phase.Guards → after.mutex.owner = some id) : MutexValid after where
  member := by
    intro other
    rw [acquires]
    by_cases same : other = id
    · rw [same, Function.update_self]
      exact member
    · rw [Function.update_of_ne same, (others other same).1]
      exact valid.member other
  owner := by
    intro other
    rw [acquires]
    by_cases same : other = id
    · rw [same, Function.update_self]
      exact owner
    · rw [Function.update_of_ne same]
      exact fun guards => (others other same).2 (valid.owner other guards)

/-- The mutex is not touched. -/
theorem stay (valid : MutexValid state)
    (acquires : after.acquires = Function.update state.acquires id acquire)
    (same : after.mutex = state.mutex)
    (queues : (state.acquires id).phase.Queues ↔ acquire.phase.Queues)
    (owner : acquire.phase.Guards → state.mutex.owner = some id) : MutexValid after := by
  apply valid.update acquires
  · intro other _
    simp [same]
  · rw [same, valid.member, queues]
  · rwa [same]

theorem request (valid : MutexValid state)
    (acquires : after.acquires = Function.update state.acquires id acquire)
    (same : after.mutex = state.mutex.request id) (queues : acquire.phase.Queues)
    (waits : ¬ acquire.phase.Guards) : MutexValid after := by
  apply valid.update acquires
  · intro other different
    simp only [same, FifoLock.mem_request, different, or_false, true_and]
    exact FifoLock.owner_request
  · simp [same, queues]
  · exact fun guards => absurd guards waits

theorem leave (valid : MutexValid state)
    (acquires : after.acquires = Function.update state.acquires id acquire)
    (same : after.mutex = state.mutex.leave id) (left : ¬ acquire.phase.Queues)
    (waits : ¬ acquire.phase.Guards) : MutexValid after := by
  apply valid.update acquires
  · intro other different
    simp only [same, FifoLock.mem_leave, different, ne_eq, not_false_eq_true, and_true, true_and]
    exact fun owns => FifoLock.owner_leave owns different
  · simp [same, left]
  · exact fun guards => absurd guards waits

theorem step (valid : MutexValid state) (step : Step state action after) : MutexValid after := by
  cases step with
  | acquire finished idle => exact valid.request rfl rfl trivial id
  | lock locking owns =>
      obtain ⟨mutex, _, acquires⟩ := state.getSemaphores_frame (state.acquires _).publicKeys.elems
      refine valid.stay (GossipSemaphore.enter_acquires acquires) mutex ?_ fun _ => owns
      simp [locking, Phase.Queues]
  | acquireOwned acquiring =>
      refine valid.stay rfl rfl ?_ fun _ => valid.owner _ ?_
      all_goals simp [acquiring, Phase.Queues, Phase.Guards]
  | push awaiting owns =>
      refine valid.stay rfl rfl ?_ fun _ => valid.owner _ ?_
      all_goals simp [awaiting, Phase.Queues, Phase.Guards]
  | returnPermit acquiring => exact valid.leave rfl rfl id id
  | cancelLock locking => exact valid.leave rfl rfl id id
  | cancelPermit awaiting =>
      refine valid.stay rfl rfl ?_ fun _ => valid.owner _ ?_
      all_goals simp [awaiting, Phase.Queues, Phase.Guards]
  | unwind unwinding =>
      refine valid.stay rfl rfl ?_ fun _ => valid.owner _ ?_
      all_goals simp [unwinding, Phase.Queues, Phase.Guards]
  | unwound unwinding => exact valid.leave rfl rfl id id
  | drop holding idle => exact valid.stay rfl rfl (by simp [holding, Phase.Queues]) nofun
  | release dropping => exact valid.stay rfl rfl (by simp [dropping, Phase.Queues]) nofun
  | spawn dropping => exact valid.stay rfl rfl (by simp [dropping, Phase.Queues]) nofun
  | cleanup spawned => exact valid.request rfl rfl trivial id
  | cleanupLock locking owns =>
      exact valid.stay rfl rfl (by simp [locking, Phase.Queues]) fun _ => owns
  | cleanupKey cleaning =>
      obtain ⟨mutex, _, _, acquires⟩ := state.cleanupKey_frame _
      refine valid.stay (GossipSemaphore.enter_acquires acquires) mutex ?_ fun _ => valid.owner _ ?_
      all_goals simp [cleaning, Phase.Queues, Phase.Guards]
  | cleaned cleaning => exact valid.leave rfl rfl id id

end MutexValid

/-! ## The semaphores -/

structure PermitsValid (state : GossipSemaphore) : Prop where
  member : ∀ semaphore id, id ∈ state.semaphores semaphore ↔
    semaphore ∈ (state.acquires id).phase.permits ∨
      (state.acquires id).phase.awaited = some semaphore
  owner : ∀ semaphore id, semaphore ∈ (state.acquires id).phase.permits →
    (state.semaphores semaphore).owner = some id
  distinct : ∀ id, (state.acquires id).phase.claims.Nodup

namespace PermitsValid

theorem update (valid : PermitsValid state)
    (acquires : after.acquires = Function.update state.acquires id acquire)
    (others : ∀ semaphore other, other ≠ id →
      (other ∈ after.semaphores semaphore ↔ other ∈ state.semaphores semaphore) ∧
      ((state.semaphores semaphore).owner = some other →
        (after.semaphores semaphore).owner = some other))
    (member : ∀ semaphore, id ∈ after.semaphores semaphore ↔
      semaphore ∈ acquire.phase.permits ∨ acquire.phase.awaited = some semaphore)
    (owner : ∀ semaphore ∈ acquire.phase.permits, (after.semaphores semaphore).owner = some id)
    (distinct : acquire.phase.claims.Nodup) : PermitsValid after where
  member := by
    intro semaphore other
    rw [acquires]
    by_cases same : other = id
    · rw [same, Function.update_self]
      exact member semaphore
    · rw [Function.update_of_ne same, (others semaphore other same).1]
      exact valid.member semaphore other
  owner := by
    intro semaphore other
    rw [acquires]
    by_cases same : other = id
    · rw [same, Function.update_self]
      exact owner semaphore
    · rw [Function.update_of_ne same]
      exact fun member => (others semaphore other same).2 (valid.owner semaphore other member)
  distinct := by
    intro other
    rw [acquires]
    by_cases same : other = id
    · rw [same, Function.update_self]
      exact distinct
    · rw [Function.update_of_ne same]
      exact valid.distinct other

/-- No semaphore is touched. -/
theorem stay (valid : PermitsValid state)
    (acquires : after.acquires = Function.update state.acquires id acquire)
    (same : after.semaphores = state.semaphores)
    (member : ∀ semaphore,
      semaphore ∈ acquire.phase.permits ∨ acquire.phase.awaited = some semaphore ↔
      semaphore ∈ (state.acquires id).phase.permits ∨
        (state.acquires id).phase.awaited = some semaphore)
    (owner : ∀ semaphore ∈ acquire.phase.permits, (state.semaphores semaphore).owner = some id)
    (distinct : acquire.phase.claims.Nodup) : PermitsValid after := by
  apply valid.update acquires
  · intro semaphore other _
    simp [same]
  · intro semaphore
    rw [same, valid.member, member]
  · rwa [same]
  · exact distinct

/-- Before and after there is no permit. -/
theorem idle (valid : PermitsValid state)
    (acquires : after.acquires = Function.update state.acquires id acquire)
    (same : after.semaphores = state.semaphores)
    (before : (state.acquires id).phase.permits = [] ∧ (state.acquires id).phase.awaited = none)
    (none : acquire.phase.permits = [] ∧ acquire.phase.awaited = none)
    (distinct : acquire.phase.claims.Nodup) : PermitsValid after := by
  apply valid.stay acquires same
  · simp [before, none]
  · simp [none]
  · exact distinct

theorem leave {semaphore : SemaphoreId} (valid : PermitsValid state)
    (acquires : after.acquires = Function.update state.acquires id acquire)
    (same : after.semaphores = Function.update state.semaphores semaphore
      ((state.semaphores semaphore).leave id))
    (left : semaphore ∉ acquire.phase.permits) (stops : acquire.phase.awaited = none)
    (rest : ∀ other, other ≠ semaphore → (other ∈ acquire.phase.permits ↔
      other ∈ (state.acquires id).phase.permits ∨
        (state.acquires id).phase.awaited = some other))
    (owner : ∀ other ∈ acquire.phase.permits, other ∈ (state.acquires id).phase.permits)
    (distinct : acquire.phase.claims.Nodup) : PermitsValid after := by
  apply valid.update acquires
  · intro other party different
    rw [same]
    by_cases here : other = semaphore
    · rw [here, Function.update_self]
      exact ⟨by simp [different], fun owns => FifoLock.owner_leave owns different⟩
    · rw [Function.update_of_ne here]
      exact ⟨Iff.rfl, fun owns => owns⟩
  · intro other
    rw [same, stops]
    by_cases here : other = semaphore
    · rw [here, Function.update_self]
      simp [left]
    · rw [Function.update_of_ne here, valid.member, rest other here]
      simp
  · intro other member
    have here : other ≠ semaphore := by
      rintro rfl
      exact left member
    rw [same, Function.update_of_ne here]
    exact valid.owner other id (owner other member)
  · exact distinct

/-- The first of the permits is dropped. -/
theorem releaseFirst {semaphore : SemaphoreId} (valid : PermitsValid state)
    (acquires : after.acquires = Function.update state.acquires id acquire)
    (same : after.semaphores = Function.update state.semaphores semaphore
      ((state.semaphores semaphore).leave id))
    (before : (state.acquires id).phase.permits = semaphore :: acquire.phase.permits)
    (starts : (state.acquires id).phase.awaited = none) (stops : acquire.phase.awaited = none)
    (nothing : acquire.phase.semaphores = []) : PermitsValid after := by
  have distinct := valid.distinct id
  rw [Phase.claims, before] at distinct
  have parts := List.nodup_cons.mp (List.nodup_append.mp distinct).1
  refine valid.leave acquires same parts.1 stops ?_ ?_ ?_
  · intro other different
    simp [before, starts, different]
  · intro other member
    rw [before]
    exact List.mem_cons_of_mem _ member
  · rw [Phase.claims, nothing, List.append_nil]
    exact parts.2

theorem request {semaphore : SemaphoreId} (valid : PermitsValid state)
    (acquires : after.acquires = Function.update state.acquires id acquire)
    (same : after.semaphores = Function.update state.semaphores semaphore
      ((state.semaphores semaphore).request id))
    (permits : acquire.phase.permits = (state.acquires id).phase.permits)
    (starts : (state.acquires id).phase.awaited = none)
    (waits : acquire.phase.awaited = some semaphore)
    (distinct : acquire.phase.claims.Nodup) : PermitsValid after := by
  apply valid.update acquires
  · intro other party different
    rw [same]
    by_cases here : other = semaphore
    · rw [here, Function.update_self]
      exact ⟨by simp [different], FifoLock.owner_request⟩
    · rw [Function.update_of_ne here]
      exact ⟨Iff.rfl, fun owns => owns⟩
  · intro other
    rw [same, waits, permits]
    by_cases here : other = semaphore
    · rw [here, Function.update_self]
      simp
    · rw [Function.update_of_ne here, valid.member, starts]
      simp [Ne.symm here]
  · intro other member
    rw [permits] at member
    have owns := valid.owner other id member
    rw [same]
    by_cases here : other = semaphore
    · rw [here] at owns ⊢
      rw [Function.update_self]
      exact FifoLock.owner_request owns
    · rwa [Function.update_of_ne here]
  · exact distinct

theorem step (valid : PermitsValid state) (map : MapValid state)
    (step : Step state action after) : PermitsValid after := by
  cases step with
  | acquire finished idle =>
      refine valid.idle rfl rfl ?_ ⟨rfl, rfl⟩ List.nodup_nil
      simp [finished, Phase.permits, Phase.awaited]
  | @lock id locking owns =>
      obtain ⟨_, semaphores, acquires⟩ := state.getSemaphores_frame (state.acquires id).publicKeys.elems
      refine valid.idle (GossipSemaphore.enter_acquires acquires) semaphores ?_
        ⟨rfl, rfl⟩ ?_
      · simp [locking, Phase.permits, Phase.awaited]
      · exact map.getSemaphores_nodup (SortedSet.elems_nodup _)
  | @acquireOwned id permits semaphores semaphore acquiring =>
      have distinct := valid.distinct id
      refine valid.request rfl rfl ?_ ?_ rfl ?_
      all_goals simp_all [Phase.permits, Phase.awaited, Phase.claims, Phase.semaphores]
  | @push id permits semaphores semaphore awaiting owns =>
      have distinct := valid.distinct id
      have held := fun other => valid.owner other id
      rw [awaiting] at distinct held
      refine valid.stay rfl rfl ?_ ?_ ?_
      · simp [awaiting, Phase.permits, Phase.awaited, eq_comm]
      · intro other member
        rcases List.mem_append.mp member with earlier | last
        · exact held other earlier
        · cases List.mem_singleton.mp last
          exact owns
      · simpa [Phase.permits, Phase.claims, Phase.semaphores] using distinct
  | @returnPermit id permits acquiring =>
      have distinct := valid.distinct id
      have held := fun other => valid.owner other id
      rw [acquiring] at distinct held
      exact valid.stay rfl rfl (by simp [acquiring, Phase.permits, Phase.awaited]) held distinct
  | cancelLock locking =>
      refine valid.idle rfl rfl ?_ ⟨rfl, rfl⟩ List.nodup_nil
      simp [locking, Phase.permits, Phase.awaited]
  | @cancelPermit id permits semaphores semaphore awaiting =>
      have distinct := valid.distinct id
      simp only [awaiting, Phase.claims, Phase.permits, Phase.semaphores] at distinct
      have parts := List.nodup_append.mp distinct
      refine valid.leave rfl rfl ?_ rfl ?_ ?_ ?_
      · exact fun member => parts.2.2 _ member _ List.mem_cons_self rfl
      · intro other different
        simp [awaiting, Phase.permits, Phase.awaited, different.symm]
      · simp [awaiting, Phase.permits]
      · simpa [Phase.permits, Phase.claims, Phase.semaphores] using parts.1
  | unwind unwinding =>
      refine valid.releaseFirst rfl rfl ?_ ?_ rfl rfl
      all_goals simp [unwinding, Phase.permits, Phase.awaited]
  | unwound unwinding =>
      refine valid.idle rfl rfl ?_ ⟨rfl, rfl⟩ List.nodup_nil
      simp [unwinding, Phase.permits, Phase.awaited]
  | @drop id permits holding idle =>
      have distinct := valid.distinct id
      have held := fun other => valid.owner other id
      rw [holding] at distinct held
      exact valid.stay rfl rfl (by simp [holding, Phase.permits, Phase.awaited]) held distinct
  | release dropping =>
      refine valid.releaseFirst rfl rfl ?_ ?_ rfl rfl
      all_goals simp [dropping, Phase.permits, Phase.awaited]
  | spawn dropping =>
      refine valid.idle rfl rfl ?_ ⟨rfl, rfl⟩ List.nodup_nil
      simp [dropping, Phase.permits, Phase.awaited]
  | cleanup spawned =>
      refine valid.idle rfl rfl ?_ ⟨rfl, rfl⟩ List.nodup_nil
      simp [spawned, Phase.permits, Phase.awaited]
  | cleanupLock locking owns =>
      refine valid.idle rfl rfl ?_ ⟨rfl, rfl⟩ List.nodup_nil
      simp [locking, Phase.permits, Phase.awaited]
  | @cleanupKey id publicKey rest cleaning =>
      obtain ⟨_, semaphores, _, acquires⟩ := state.cleanupKey_frame publicKey
      refine valid.idle (GossipSemaphore.enter_acquires acquires) semaphores ?_ ⟨rfl, rfl⟩ ?_
      · simp [cleaning, Phase.permits, Phase.awaited]
      · exact List.nodup_nil
  | cleaned cleaning =>
      refine valid.idle rfl rfl ?_ ⟨rfl, rfl⟩ List.nodup_nil
      simp [cleaning, Phase.permits, Phase.awaited]

end PermitsValid

/-! ## Semaphores and keys -/

structure KeysValid (state : GossipSemaphore) : Prop where
  used : ∀ id, ∀ semaphore ∈ (state.acquires id).phase.claims, semaphore < state.allocated
  keyed : ∀ id, ∀ semaphore ∈ (state.acquires id).phase.claims, ∀ publicKey,
    state.inFlight.get? publicKey = some semaphore →
      publicKey ∈ (state.acquires id).publicKeys.elems
  secured : ∀ id, (state.acquires id).phase.Secures →
    ∀ publicKey ∈ (state.acquires id).publicKeys.elems,
      ∃ semaphore ∈ (state.acquires id).phase.claims,
        state.inFlight.get? publicKey = some semaphore

namespace KeysValid

theorem update (valid : KeysValid state)
    (acquires : after.acquires = Function.update state.acquires id acquire)
    (allocated : state.allocated ≤ after.allocated)
    (present : ∀ publicKey semaphore, after.inFlight.get? publicKey = some semaphore →
      state.inFlight.get? publicKey = some semaphore ∨ state.allocated ≤ semaphore)
    (kept : ∀ other, other ≠ id → (state.acquires other).phase.Secures →
      ∀ semaphore ∈ (state.acquires other).phase.claims, ∀ publicKey,
        state.inFlight.get? publicKey = some semaphore →
          after.inFlight.get? publicKey = some semaphore)
    (used : ∀ semaphore ∈ acquire.phase.claims, semaphore < after.allocated)
    (keyed : ∀ semaphore ∈ acquire.phase.claims, ∀ publicKey,
      after.inFlight.get? publicKey = some semaphore → publicKey ∈ acquire.publicKeys.elems)
    (secured : acquire.phase.Secures → ∀ publicKey ∈ acquire.publicKeys.elems,
      ∃ semaphore ∈ acquire.phase.claims, after.inFlight.get? publicKey = some semaphore) :
    KeysValid after where
  used := by
    intro other
    rw [acquires]
    by_cases same : other = id
    · rw [same, Function.update_self]
      exact used
    · rw [Function.update_of_ne same]
      exact fun semaphore member => (valid.used other semaphore member).trans_le allocated
  keyed := by
    intro other
    rw [acquires]
    by_cases same : other = id
    · rw [same, Function.update_self]
      exact keyed
    · rw [Function.update_of_ne same]
      intro semaphore member publicKey found
      rcases present publicKey semaphore found with before | fresh
      · exact valid.keyed other semaphore member publicKey before
      · exact absurd (valid.used other semaphore member) (not_lt.mpr fresh)
  secured := by
    intro other
    rw [acquires]
    by_cases same : other = id
    · rw [same, Function.update_self]
      exact secured
    · rw [Function.update_of_ne same]
      intro secures publicKey member
      obtain ⟨semaphore, claimed, found⟩ := valid.secured other secures publicKey member
      exact ⟨semaphore, claimed, kept other same secures semaphore claimed publicKey found⟩

/-- An acquire that wants nothing, or wants nothing more. -/
theorem rest (valid : KeysValid state)
    (acquires : after.acquires = Function.update state.acquires id acquire)
    (sameMap : after.inFlight = state.inFlight) (allocated : after.allocated = state.allocated)
    (nothing : acquire.phase.claims = []) (unbound : ¬ acquire.phase.Secures) :
    KeysValid after := by
  apply valid.update acquires allocated.ge
  · intro publicKey semaphore found
    exact .inl (sameMap ▸ found)
  · intro other _ _ semaphore _ publicKey found
    rwa [sameMap]
  · simp [nothing]
  · simp [nothing]
  · exact fun secures => absurd secures unbound

/-- An acquire that keeps what it wants or drops some of it. -/
theorem stay (valid : KeysValid state)
    (acquires : after.acquires = Function.update state.acquires id acquire)
    (sameMap : after.inFlight = state.inFlight) (allocated : after.allocated = state.allocated)
    (sameKeys : acquire.publicKeys = (state.acquires id).publicKeys)
    (fewer : acquire.phase.claims ⊆ (state.acquires id).phase.claims)
    (bound : acquire.phase.Secures → (state.acquires id).phase.Secures ∧
      (state.acquires id).phase.claims ⊆ acquire.phase.claims) : KeysValid after := by
  apply valid.update acquires allocated.ge
  · intro publicKey semaphore found
    exact .inl (sameMap ▸ found)
  · intro other _ _ semaphore _ publicKey found
    rwa [sameMap]
  · intro semaphore member
    rw [allocated]
    exact valid.used id semaphore (fewer member)
  · intro semaphore member publicKey found
    rw [sameKeys]
    rw [sameMap] at found
    exact valid.keyed id semaphore (fewer member) publicKey found
  · intro secures publicKey member
    rw [sameKeys] at member
    obtain ⟨secured, more⟩ := bound secures
    obtain ⟨semaphore, claimed, found⟩ := valid.secured id secured publicKey member
    exact ⟨semaphore, more claimed, by rwa [sameMap]⟩

theorem lock (valid : KeysValid state) (map : MapValid state) {publicKeys : SortedSet PublicKey}
    (acquires : after.acquires = Function.update state.acquires id acquire)
    (sameMap : after.inFlight = (state.getSemaphores publicKeys.elems).2.inFlight)
    (allocated : after.allocated = (state.getSemaphores publicKeys.elems).2.allocated)
    (sameKeys : acquire.publicKeys = publicKeys)
    (claims : acquire.phase.claims = (state.getSemaphores publicKeys.elems).1) :
    KeysValid after := by
  obtain ⟨last, extends', found⟩ := map.getSemaphores publicKeys.elems
  have keys : ∀ semaphore ∈ acquire.phase.claims, ∃ publicKey ∈ publicKeys.elems,
      after.inFlight.get? publicKey = some semaphore := by
    intro semaphore member
    rw [claims] at member
    have image := List.mem_map_of_mem (f := some) member
    rw [← found] at image
    rw [sameMap]
    exact List.mem_map.mp image
  apply valid.update acquires (allocated ▸ extends'.grows)
  · intro publicKey semaphore present
    rw [sameMap] at present
    exact (extends'.added publicKey semaphore present).imp_right And.right
  · intro other _ _ semaphore _ publicKey present
    rw [sameMap]
    exact extends'.kept publicKey semaphore present
  · intro semaphore member
    obtain ⟨publicKey, _, present⟩ := keys semaphore member
    rw [sameMap] at present
    rw [allocated]
    exact last.allocated semaphore publicKey present
  · intro semaphore member publicKey present
    obtain ⟨other, otherMember, otherPresent⟩ := keys semaphore member
    rw [sameMap] at present otherPresent
    rw [sameKeys, last.injective semaphore publicKey other present otherPresent]
    exact otherMember
  · intro _ publicKey member
    rw [sameKeys] at member
    have image := List.mem_map_of_mem
      (f := (state.getSemaphores publicKeys.elems).2.inFlight.get?) member
    rw [found] at image
    obtain ⟨semaphore, claimed, present⟩ := List.mem_map.mp image
    exact ⟨semaphore, claims ▸ claimed, by rw [sameMap, present]⟩

/-- A cleanup leaves the entries of those that hold permits alone, and no other
acquire is in its loop. -/
theorem cleanupKey (valid : KeysValid state) (mutex : MutexValid state)
    (permits : PermitsValid state) {publicKey : PublicKey} {remaining : List PublicKey}
    (cleaning : (state.acquires id).phase = .cleaning (publicKey :: remaining)) :
    KeysValid ((state.cleanupKey publicKey).enter id (.cleaning remaining)) := by
  obtain ⟨_, _, allocated, acquires⟩ := state.cleanupKey_frame publicKey
  refine valid.update (GossipSemaphore.enter_acquires acquires) allocated.ge ?_ ?_ ?_ ?_ ?_
  · exact fun other semaphore found => .inl (GossipSemaphore.get?_cleanupKey.mp found).1
  · intro other different secures semaphore claimed key found
    refine GossipSemaphore.get?_cleanupKey.mpr ⟨found, ?_⟩
    rintro ⟨rfl, isFree⟩
    have held : semaphore ∈ (state.acquires other).phase.permits := by
      have single : (state.acquires other).phase.Guards → False := by
        intro guards
        have owns := mutex.owner other guards
        rw [mutex.owner id (by simp [cleaning, Phase.Guards])] at owns
        exact different (Option.some.inj owns).symm
      cases phase : (state.acquires other).phase with
      | holding held =>
          rw [phase] at claimed
          simpa [Phase.claims, Phase.semaphores] using claimed
      | acquiring _ _ => exact absurd (by simp [phase, Phase.Guards]) single
      | awaiting _ _ _ => exact absurd (by simp [phase, Phase.Guards]) single
      | _ => simp [phase, Phase.Secures] at secures
    exact FifoLock.isFree_iff.mp isFree other ((permits.member semaphore other).mpr (.inl held))
  · exact nofun
  · exact nofun
  · exact nofun

theorem step (valid : KeysValid state) (map : MapValid state) (mutex : MutexValid state)
    (permits : PermitsValid state) (step : Step state action after) : KeysValid after := by
  cases step with
  | acquire finished idle => exact valid.rest rfl rfl rfl rfl nofun
  | lock locking owns =>
      obtain ⟨_, _, acquires⟩ := state.getSemaphores_frame (state.acquires _).publicKeys.elems
      exact valid.lock map (GossipSemaphore.enter_acquires acquires) rfl rfl rfl rfl
  | acquireOwned acquiring =>
      refine valid.stay rfl rfl rfl rfl ?_ fun _ => ?_
      all_goals simp [acquiring, Phase.Secures, Phase.claims, Phase.permits, Phase.semaphores]
  | push awaiting owns =>
      refine valid.stay rfl rfl rfl rfl ?_ fun _ => ?_
      all_goals simp [awaiting, Phase.Secures, Phase.claims, Phase.permits, Phase.semaphores]
  | returnPermit acquiring =>
      refine valid.stay rfl rfl rfl rfl ?_ fun _ => ?_
      all_goals simp [acquiring, Phase.Secures, Phase.claims, Phase.permits, Phase.semaphores]
  | cancelLock locking => exact valid.rest rfl rfl rfl rfl nofun
  | cancelPermit awaiting =>
      refine valid.stay rfl rfl rfl rfl ?_ nofun
      simp [awaiting, Phase.claims, Phase.permits, Phase.semaphores]
  | unwind unwinding =>
      refine valid.stay rfl rfl rfl rfl ?_ nofun
      simp [unwinding, Phase.claims, Phase.permits, Phase.semaphores]
  | unwound unwinding => exact valid.rest rfl rfl rfl rfl nofun
  | drop holding idle =>
      refine valid.stay rfl rfl rfl rfl ?_ nofun
      simp [holding, Phase.claims, Phase.permits, Phase.semaphores]
  | release dropping =>
      refine valid.stay rfl rfl rfl rfl ?_ nofun
      simp [dropping, Phase.claims, Phase.permits, Phase.semaphores]
  | spawn dropping => exact valid.rest rfl rfl rfl rfl nofun
  | cleanup spawned => exact valid.rest rfl rfl rfl rfl nofun
  | cleanupLock locking owns => exact valid.rest rfl rfl rfl rfl nofun
  | cleanupKey cleaning => exact valid.cleanupKey mutex permits cleaning
  | cleaned cleaning => exact valid.rest rfl rfl rfl rfl nofun

end KeysValid

/-! ## Every run -/

structure Valid (state : GossipSemaphore) : Prop where
  map : MapValid state
  mutex : MutexValid state
  permits : PermitsValid state
  keys : KeysValid state

namespace Valid

theorem new : Valid .new where
  map := ⟨nofun, nofun⟩
  mutex := ⟨fun _ => ⟨nofun, nofun⟩, nofun⟩
  permits := ⟨fun _ _ => ⟨nofun, nofun⟩, nofun, fun _ => List.nodup_nil⟩
  keys := ⟨nofun, nofun, nofun⟩

theorem step (valid : Valid state) (step : Step state action after) : Valid after where
  map := valid.map.step step
  mutex := valid.mutex.step step
  permits := valid.permits.step valid.map step
  keys := valid.keys.step valid.map valid.mutex valid.permits step

theorem of_run {trace : List (GossipSemaphore × Action)} (run : Run (Traced Step) .new trace state) :
    Valid state := by
  refine Run.state_invariant new ?_ run
  intro before label after valid traced
  obtain ⟨rfl, step⟩ := traced
  exact valid.step step

/-- The one acquire in the loop over its semaphores. -/
theorem guard_unique (valid : Valid state) {other : Nat} (first : (state.acquires id).phase.Guards)
    (second : (state.acquires other).phase.Guards) : id = other :=
  Option.some.inj ((valid.mutex.owner id first).symm.trans (valid.mutex.owner other second))

end Valid

/-! ## Mutual exclusion -/

/-- No two live permits share a public key. -/
def Exclusive (state : GossipSemaphore) : Prop :=
  ∀ id other publicKey, (state.acquires id).phase.Live → (state.acquires other).phase.Live →
    publicKey ∈ (state.acquires id).publicKeys.elems →
    publicKey ∈ (state.acquires other).publicKeys.elems → id = other

/-- A live permit has the semaphore of each of its keys. -/
theorem Valid.owner_of_live (valid : Valid state) (live : (state.acquires id).phase.Live)
    {publicKey : PublicKey} (member : publicKey ∈ (state.acquires id).publicKeys.elems) :
    ∃ semaphore, state.inFlight.get? publicKey = some semaphore ∧
      (state.semaphores semaphore).owner = some id := by
  cases phase : (state.acquires id).phase with
  | holding permits =>
      obtain ⟨semaphore, claimed, found⟩ :=
        valid.keys.secured id (by rw [phase]; trivial) publicKey member
      refine ⟨semaphore, found, valid.permits.owner semaphore id ?_⟩
      rw [phase] at claimed ⊢
      simpa [Phase.claims, Phase.semaphores] using claimed
  | _ => simp [phase, Phase.Live] at live

theorem Valid.exclusive (valid : Valid state) : Exclusive state := by
  intro id other publicKey live otherLive member otherMember
  obtain ⟨semaphore, found, owns⟩ := valid.owner_of_live live member
  obtain ⟨semaphore', found', owns'⟩ := valid.owner_of_live otherLive otherMember
  cases Option.some.inj (found.symm.trans found')
  exact Option.some.inj (owns.symm.trans owns')

/-! ## Progress -/

/-- A task that calls `acquire` has no permit. -/
def Unburdened (state : GossipSemaphore) : Action → Prop
  | .acquire _ task _ => ∀ id, (state.acquires id).phase.Live → (state.acquires id).task ≠ task
  | _ => True

/-- A task that is inside `acquire` is so once, and has no permit. -/
structure Apart (state : GossipSemaphore) : Prop where
  single : ∀ id other, (state.acquires id).phase.Acquires → (state.acquires other).phase.Acquires →
    (state.acquires id).task = (state.acquires other).task → id = other
  unburdened : ∀ id other, (state.acquires id).phase.Live → (state.acquires other).phase.Acquires →
    (state.acquires id).task ≠ (state.acquires other).task

namespace Apart

theorem stay (apart : Apart state)
    (acquires : after.acquires = Function.update state.acquires id acquire)
    (task : acquire.task = (state.acquires id).task)
    (acquiring : acquire.phase.Acquires → (state.acquires id).phase.Acquires)
    (live : acquire.phase.Live → (state.acquires id).phase.Live) : Apart after := by
  have before : ∀ other, (after.acquires other).task = (state.acquires other).task ∧
      ((after.acquires other).phase.Acquires → (state.acquires other).phase.Acquires) ∧
      ((after.acquires other).phase.Live → (state.acquires other).phase.Live) := by
    intro other
    rw [acquires]
    by_cases same : other = id
    · rw [same, Function.update_self]
      exact ⟨task, acquiring, live⟩
    · rw [Function.update_of_ne same]
      exact ⟨rfl, fun acquires => acquires, fun live => live⟩
  constructor
  · intro first second firstIn secondIn same
    rw [(before first).1, (before second).1] at same
    exact apart.single first second ((before first).2.1 firstIn) ((before second).2.1 secondIn) same
  · intro first second firstLive secondIn
    rw [(before first).1, (before second).1]
    exact apart.unburdened first second ((before first).2.2 firstLive) ((before second).2.1 secondIn)

theorem call (apart : Apart state) {task : Nat}
    (acquires : after.acquires = Function.update state.acquires id acquire)
    (calls : acquire.task = task) (idle : state.Idle task)
    (unburdened : ∀ other, (state.acquires other).phase.Live → (state.acquires other).task ≠ task)
    (waits : ¬ acquire.phase.Live) : Apart after := by
  constructor
  · intro first second
    rw [acquires]
    by_cases isFirst : first = id <;> by_cases isSecond : second = id
    · exact fun _ _ _ => isFirst.trans isSecond.symm
    · rw [isFirst, Function.update_self, Function.update_of_ne isSecond, calls]
      exact fun _ secondIn same => absurd secondIn (idle second same.symm)
    · rw [isSecond, Function.update_self, Function.update_of_ne isFirst, calls]
      exact fun firstIn _ same => absurd firstIn (idle first same)
    · rw [Function.update_of_ne isFirst, Function.update_of_ne isSecond]
      exact apart.single first second
  · intro first second
    rw [acquires]
    by_cases isFirst : first = id
    · rw [isFirst, Function.update_self]
      exact fun live => absurd live waits
    · rw [Function.update_of_ne isFirst]
      by_cases isSecond : second = id
      · rw [isSecond, Function.update_self, calls]
        exact fun live _ => unburdened first live
      · rw [Function.update_of_ne isSecond]
        exact apart.unburdened first second

theorem leave (apart : Apart state)
    (acquires : after.acquires = Function.update state.acquires id acquire)
    (task : acquire.task = (state.acquires id).task)
    (acquiring : (state.acquires id).phase.Acquires) (left : ¬ acquire.phase.Acquires) :
    Apart after := by
  constructor
  · intro first second
    rw [acquires]
    by_cases isFirst : first = id
    · rw [isFirst, Function.update_self]
      exact fun firstIn => absurd firstIn left
    · by_cases isSecond : second = id
      · rw [isSecond, Function.update_self]
        exact fun _ secondIn => absurd secondIn left
      · rw [Function.update_of_ne isFirst, Function.update_of_ne isSecond]
        exact apart.single first second
  · intro first second
    rw [acquires]
    by_cases isSecond : second = id
    · rw [isSecond, Function.update_self]
      exact fun _ secondIn => absurd secondIn left
    · rw [Function.update_of_ne isSecond]
      by_cases isFirst : first = id
      · rw [isFirst, Function.update_self, task]
        exact fun _ secondIn same => isSecond (apart.single id second acquiring secondIn same).symm
      · rw [Function.update_of_ne isFirst]
        exact apart.unburdened first second

theorem step (apart : Apart state) (unburdened : Unburdened state action)
    (step : Step state action after) : Apart after := by
  cases step with
  | acquire finished idle => exact apart.call rfl rfl idle unburdened id
  | returnPermit acquiring =>
      refine apart.leave rfl rfl ?_ nofun
      rw [acquiring]
      trivial
  | lock locking owns =>
      obtain ⟨_, _, acquires⟩ := state.getSemaphores_frame (state.acquires _).publicKeys.elems
      refine apart.stay (GossipSemaphore.enter_acquires acquires) rfl ?_ nofun
      simp [locking, Phase.Acquires]
  | cleanupKey cleaning =>
      obtain ⟨_, _, _, acquires⟩ := state.cleanupKey_frame _
      exact apart.stay (GossipSemaphore.enter_acquires acquires) rfl nofun nofun
  | acquireOwned acquiring =>
      exact apart.stay rfl rfl (by simp [acquiring, Phase.Acquires]) nofun
  | push awaiting owns => exact apart.stay rfl rfl (by simp [awaiting, Phase.Acquires]) nofun
  | cancelPermit awaiting => exact apart.stay rfl rfl (by simp [awaiting, Phase.Acquires]) nofun
  | unwind unwinding => exact apart.stay rfl rfl (by simp [unwinding, Phase.Acquires]) nofun
  | _ => exact apart.stay rfl rfl nofun nofun

theorem of_run {trace : List (GossipSemaphore × Action)}
    (run : Run (Traced Step) .new trace state)
    (unburdened : ∀ label ∈ trace, Unburdened label.1 label.2) : Apart state := by
  induction run with
  | nil => exact ⟨nofun, nofun⟩
  | @snoc trace middle _ label _ last ih =>
      obtain ⟨rfl, step⟩ := last
      refine (ih fun label member => unburdened label ?_).step (unburdened label ?_) step
      · exact List.mem_append_left _ member
      · exact List.mem_append_right _ (List.mem_singleton_self _)

end Apart

/-- Whoever has a permit of a semaphore gives it up without waiting for anything,
unless it has the mutex. -/
theorem Apart.owner_progresses (apart : Apart state)
    {semaphore : SemaphoreId} (held : semaphore ∈ (state.acquires id).phase.permits)
    (outside : ¬ (state.acquires id).phase.Guards) :
    ∃ action after, action.Progresses ∧ Step state action after := by
  cases phase : (state.acquires id).phase with
  | holding permits =>
      refine ⟨.drop id, _, trivial, .drop phase ?_⟩
      intro other same acquires
      exact apart.unburdened id other (by rw [phase]; trivial) acquires same.symm
  | dropping permits =>
      cases permits with
      | nil => exact ⟨.advance id, _, trivial, .spawn phase⟩
      | cons first permits => exact ⟨.advance id, _, trivial, .release phase⟩
  | acquiring permits semaphores => exact absurd (by rw [phase]; trivial) outside
  | awaiting permits semaphore semaphores => exact absurd (by rw [phase]; trivial) outside
  | unwinding permits => exact absurd (by rw [phase]; trivial) outside
  | _ => simp [phase, Phase.permits] at held

/-- The owner of the mutex goes on, or somebody does whom it waits for. -/
theorem Valid.progress (valid : Valid state) (apart : Apart state)
    (owns : state.mutex.owner = some id) :
    ∃ action after, action.Progresses ∧ Step state action after := by
  have queues := (valid.mutex.member id).mp (FifoLock.mem_of_owner owns)
  cases phase : (state.acquires id).phase with
  | locking => exact ⟨.advance id, _, trivial, .lock phase owns⟩
  | acquiring permits semaphores =>
      cases semaphores with
      | nil => exact ⟨.advance id, _, trivial, .returnPermit phase⟩
      | cons semaphore semaphores => exact ⟨.advance id, _, trivial, .acquireOwned phase⟩
  | awaiting permits semaphore semaphores =>
      have guards : (state.acquires id).phase.Guards := by rw [phase]; trivial
      have waits := (valid.permits.member semaphore id).mpr (.inr (by rw [phase]; rfl))
      obtain ⟨holder, holds⟩ := FifoLock.exists_owner waits
      by_cases same : holder = id
      · exact ⟨.advance id, _, trivial, .push phase (same ▸ holds)⟩
      · have outside : ¬ (state.acquires holder).phase.Guards :=
          fun holderGuards => same (valid.guard_unique holderGuards guards)
        have member := (valid.permits.member semaphore holder).mp (FifoLock.mem_of_owner holds)
        rcases member with held | awaited
        · exact apart.owner_progresses held outside
        · cases holderPhase : (state.acquires holder).phase with
          | awaiting _ _ _ => exact absurd (by rw [holderPhase]; trivial) outside
          | _ => simp [holderPhase, Phase.awaited] at awaited
  | unwinding permits =>
      cases permits with
      | nil => exact ⟨.advance id, _, trivial, .unwound phase⟩
      | cons first permits => exact ⟨.advance id, _, trivial, .unwind phase⟩
  | cleanupLocking => exact ⟨.advance id, _, trivial, .cleanupLock phase owns⟩
  | cleaning publicKeys =>
      cases publicKeys with
      | nil => exact ⟨.advance id, _, trivial, .cleaned phase⟩
      | cons publicKey publicKeys => exact ⟨.advance id, _, trivial, .cleanupKey phase⟩
  | _ => simp [phase, Phase.Queues] at queues

/-- While some acquire waits, a step is there that neither starts nor cancels one. -/
def DeadlockFree (state : GossipSemaphore) : Prop :=
  ∀ id, (state.acquires id).phase.Waits →
    ∃ action after, action.Progresses ∧ Step state action after

theorem Valid.deadlockFree (valid : Valid state) (apart : Apart state) : DeadlockFree state := by
  intro id waits
  have queues : (state.acquires id).phase.Queues := by
    cases phase : (state.acquires id).phase <;> simp_all [Phase.Waits, Phase.Queues]
  obtain ⟨owner, owns⟩ := FifoLock.exists_owner ((valid.mutex.member id).mpr queues)
  exact valid.progress apart owns

end RustNostr.NostrSdk.Gossip
