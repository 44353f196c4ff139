import Mathlib
import RustNostr.NostrSdk.Gossip.SemaphoreRuns

/-!
# What the cleanups leave behind

An entry of the map is taken away by the cleanup of a permit for its key. An
acquire that is cancelled while it waits for a semaphore has entries in the map
already, but no permit whose drop would spawn a cleanup.
-/

set_option autoImplicit false

namespace RustNostr.NostrSdk.Gossip

open Library

variable {state after : GossipSemaphore} {action : Action} {id : Nat} {acquire : Acquire}
  {publicKey : PublicKey}

/-- A cleanup of the key is still to come, if the acquire is not cancelled. -/
def Acquire.Covers (acquire : Acquire) (publicKey : PublicKey) : Prop :=
  match acquire.phase with
  | .acquiring _ _ | .awaiting _ _ _ | .holding _ | .dropping _ | .spawned | .cleanupLocking =>
      publicKey ∈ acquire.publicKeys.elems
  | .cleaning remaining => publicKey ∈ remaining
  | .locking | .unwinding _ | .finished => False

def Covered (state : GossipSemaphore) (publicKey : PublicKey) : Prop :=
  ∃ id, (state.acquires id).Covers publicKey

/-- An acquire is cancelled that waits for a semaphore, and nobody else is there
to clean up one of its keys. -/
def Abandons (state : GossipSemaphore) (action : Action) (publicKey : PublicKey) : Prop :=
  ∃ id permits semaphore semaphores, action = .cancel id ∧
    (state.acquires id).phase = .awaiting permits semaphore semaphores ∧
    publicKey ∈ (state.acquires id).publicKeys.elems ∧
    ∀ other, other ≠ id → ¬ (state.acquires other).Covers publicKey

/-- An acquire of the key gets the mutex. -/
def Locks (state : GossipSemaphore) (action : Action) (publicKey : PublicKey) : Prop :=
  ∃ id, action = .advance id ∧ (state.acquires id).phase = .locking ∧
    publicKey ∈ (state.acquires id).publicKeys.elems

/-- The key was abandoned in the run, and no acquire has come to it since. -/
def Leaked (trace : List (GossipSemaphore × Action)) (publicKey : PublicKey) : Prop :=
  ∃ earlier state action later, trace = earlier ++ (state, action) :: later ∧
    Abandons state action publicKey ∧ ∀ label ∈ later, ¬ Locks label.1 label.2 publicKey

/-- No acquire waits, no permit is live and no cleanup is to come. -/
def Quiescent (state : GossipSemaphore) : Prop :=
  ∀ id, (state.acquires id).phase = .finished

theorem leaked_concat {trace : List (GossipSemaphore × Action)} :
    Leaked (trace ++ [(state, action)]) publicKey ↔
      (Leaked trace publicKey ∧ ¬ Locks state action publicKey) ∨
        Abandons state action publicKey := by
  constructor
  · intro ⟨earlier, before, taken, later, split, abandons, quiet⟩
    cases later using List.reverseRecOn with
    | nil =>
        obtain ⟨_, same⟩ := List.append_inj' split rfl
        cases List.singleton_inj.mp same
        exact .inr abandons
    | append_singleton later last =>
        rw [← List.cons_append, ← List.append_assoc] at split
        obtain ⟨same, sameLast⟩ := List.append_inj' split rfl
        cases List.singleton_inj.mp sameLast
        refine .inl ⟨⟨earlier, before, taken, later, same, abandons, ?_⟩, ?_⟩
        · exact fun label member => quiet label (List.mem_append_left _ member)
        · exact quiet (state, action) (List.mem_append_right _ (List.mem_singleton_self _))
  · rintro (⟨⟨earlier, before, taken, later, rfl, abandons, quiet⟩, unlocked⟩ | abandons)
    · refine ⟨earlier, before, taken, later ++ [(state, action)], ?_, abandons, ?_⟩
      · rw [List.append_assoc, List.cons_append]
      · intro label member
        rcases List.mem_append.mp member with inLater | last
        · exact quiet label inLater
        · cases List.mem_singleton.mp last
          exact unlocked
    · exact ⟨trace, state, action, [], rfl, abandons, nofun⟩

/-! ## Who is there to clean up -/

/-- One acquire changes, and covers no key that it did not cover before. -/
theorem covered_of_update
    (acquires : after.acquires = Function.update state.acquires id acquire)
    (before : acquire.Covers publicKey → (state.acquires id).Covers publicKey)
    (covered : Covered after publicKey) : Covered state publicKey := by
  obtain ⟨other, covers⟩ := covered
  rw [acquires] at covers
  by_cases same : other = id
  · rw [same, Function.update_self] at covers
    exact ⟨id, before covers⟩
  · rw [Function.update_of_ne same] at covers
    exact ⟨other, covers⟩

/-- One acquire changes, and covers the keys that it covered before. -/
theorem Covered.update (covered : Covered state publicKey)
    (acquires : after.acquires = Function.update state.acquires id acquire)
    (still : (state.acquires id).Covers publicKey → acquire.Covers publicKey ∨
      ∃ other, other ≠ id ∧ (state.acquires other).Covers publicKey) :
    Covered after publicKey := by
  have others : ∀ other, other ≠ id → (state.acquires other).Covers publicKey →
      Covered after publicKey := by
    intro other different covers
    exact ⟨other, by rwa [acquires, Function.update_of_ne different]⟩
  obtain ⟨other, covers⟩ := covered
  by_cases same : other = id
  · rw [same] at covers
    rcases still covers with here | ⟨third, different, there⟩
    · exact ⟨id, by rwa [acquires, Function.update_self]⟩
    · exact others third different there
  · exact others other same covers

/-- Only an acquire that gets the mutex comes to a key. -/
theorem covered_of_step (step : Step state action after) (unlocked : ¬ Locks state action publicKey)
    (covered : Covered after publicKey) : Covered state publicKey := by
  cases step with
  | acquire finished idle => exact covered_of_update (GossipSemaphore.call_acquires rfl) False.elim covered
  | @lock id locking owns =>
      obtain ⟨_, _, acquires⟩ := state.getSemaphores_frame (state.acquires id).publicKeys.elems
      refine covered_of_update (GossipSemaphore.enter_acquires acquires) ?_ covered
      exact fun member => absurd ⟨id, rfl, locking, member⟩ unlocked
  | @cleanupKey id first rest cleaning =>
      obtain ⟨_, _, _, acquires⟩ := state.cleanupKey_frame first
      refine covered_of_update (GossipSemaphore.enter_acquires acquires) ?_ covered
      intro member
      simp only [Acquire.Covers, cleaning]
      exact List.mem_cons_of_mem _ member
  | cancelLock locking => exact covered_of_update (GossipSemaphore.enter_acquires rfl) False.elim covered
  | cancelPermit awaiting => exact covered_of_update (GossipSemaphore.enter_acquires rfl) False.elim covered
  | unwind unwinding => exact covered_of_update (GossipSemaphore.enter_acquires rfl) False.elim covered
  | unwound unwinding => exact covered_of_update (GossipSemaphore.enter_acquires rfl) False.elim covered
  | cleaned cleaning => exact covered_of_update (GossipSemaphore.enter_acquires rfl) False.elim covered
  | acquireOwned phase | push phase | returnPermit phase | drop phase | release phase | spawn phase
  | cleanup phase | cleanupLock phase =>
      refine covered_of_update (GossipSemaphore.enter_acquires rfl) ?_ covered
      intro member
      simpa only [Acquire.Covers, phase] using member

theorem Locks.covered (locks : Locks state action publicKey) (step : Step state action after) :
    Covered after publicKey := by
  obtain ⟨id, rfl, locking, member⟩ := locks
  have acquires := (state.getSemaphores_frame (state.acquires id).publicKeys.elems).2.2
  cases step with
  | lock phase owns =>
      refine ⟨id, ?_⟩
      rw [GossipSemaphore.enter_acquires acquires, Function.update_self]
      exact member
  | _ => simp_all

/-- Who is in the queue of a semaphore during a cleanup has a permit for its key. -/
theorem Valid.covers_of_queued (valid : Valid state) {remaining : List PublicKey}
    (cleaning : (state.acquires id).phase = .cleaning remaining) {other : Nat}
    {semaphore : SemaphoreId} (queued : other ∈ state.semaphores semaphore)
    (found : state.inFlight.get? publicKey = some semaphore) :
    other ≠ id ∧ (state.acquires other).Covers publicKey := by
  have member := (valid.permits.member semaphore other).mp queued
  have different : other ≠ id := by
    rintro rfl
    simp [cleaning, Phase.permits, Phase.awaited] at member
  have outside : ¬ (state.acquires other).phase.Guards := by
    intro guards
    exact different (valid.guard_unique guards (by rw [cleaning]; trivial))
  refine ⟨different, ?_⟩
  cases phase : (state.acquires other).phase with
  | holding permits | dropping permits =>
      simp only [Acquire.Covers, phase]
      refine valid.keys.keyed other semaphore ?_ publicKey found
      simpa [phase, Phase.claims, Phase.permits, Phase.semaphores, Phase.awaited] using member
  | acquiring _ _ | awaiting _ _ _ | unwinding _ =>
      exact absurd (by rw [phase]; trivial) outside
  | _ => simp [phase, Phase.permits, Phase.awaited] at member

/-- Whoever takes leave of a key has cleaned it up, unless it was cancelled. -/
theorem Covered.step (covered : Covered state publicKey) (valid : Valid state)
    (step : Step state action after) (kept : ¬ Abandons state action publicKey)
    {semaphore : SemaphoreId} (present : after.inFlight.get? publicKey = some semaphore) :
    Covered after publicKey := by
  cases step with
  | acquire finished idle =>
      refine covered.update (GossipSemaphore.call_acquires rfl) fun covers => ?_
      simp [Acquire.Covers, finished] at covers
  | lock locking owns =>
      obtain ⟨_, _, acquires⟩ := state.getSemaphores_frame (state.acquires _).publicKeys.elems
      refine covered.update (GossipSemaphore.enter_acquires acquires) fun covers => ?_
      simp [Acquire.Covers, locking] at covers
  | @cancelPermit id permits semaphores awaited awaiting =>
      refine covered.update (GossipSemaphore.enter_acquires rfl) fun covers => .inr ?_
      simp only [Acquire.Covers, awaiting] at covers
      by_contra alone
      refine kept ⟨id, permits, awaited, semaphores, rfl, awaiting, covers, ?_⟩
      exact fun other different there => alone ⟨other, different, there⟩
  | @cleanupKey id first rest cleaning =>
      obtain ⟨_, semaphores, _, acquires⟩ := state.cleanupKey_frame first
      refine covered.update (GossipSemaphore.enter_acquires acquires) fun covers => ?_
      obtain ⟨found, used⟩ := GossipSemaphore.get?_cleanupKey.mp present
      simp only [Acquire.Covers, cleaning] at covers
      cases List.mem_cons.mp covers with
      | inl same =>
          -- The semaphore is in use, and those in its queue have the key.
          have inUse : ¬ (state.semaphores semaphore).isFree := fun isFree => used ⟨same, isFree⟩
          rw [FifoLock.isFree_iff] at inUse
          push Not at inUse
          obtain ⟨other, queued⟩ := inUse
          exact .inr ⟨other, valid.covers_of_queued cleaning queued found⟩
      | inr later => exact .inl later
  | cancelLock phase | unwind phase | unwound phase | cleaned phase =>
      refine covered.update (GossipSemaphore.enter_acquires rfl) fun covers => ?_
      simp [Acquire.Covers, phase] at covers
  | acquireOwned phase | push phase | returnPermit phase | drop phase | release phase | spawn phase
  | cleanup phase | cleanupLock phase =>
      refine covered.update (GossipSemaphore.enter_acquires rfl) fun covers => .inl ?_
      simpa only [Acquire.Covers, phase] using covers

/-! ## Entries of the map -/

theorem present_of_step (valid : Valid state) (step : Step state action after)
    (unlocked : ¬ Locks state action publicKey) {semaphore : SemaphoreId}
    (present : after.inFlight.get? publicKey = some semaphore) :
    state.inFlight.get? publicKey = some semaphore := by
  cases step with
  | @lock id locking owns =>
      obtain ⟨_, extends', _⟩ := valid.map.getSemaphores (state.acquires id).publicKeys.elems
      rcases extends'.added publicKey semaphore present with before | ⟨member, _⟩
      · exact before
      · exact absurd ⟨id, rfl, locking, member⟩ unlocked
  | cleanupKey cleaning => exact (GossipSemaphore.get?_cleanupKey.mp present).1
  | _ => exact present

/-- The entry of a key that nobody covers stays. -/
theorem present_step (valid : Valid state) (step : Step state action after)
    (uncovered : ¬ Covered state publicKey) {semaphore : SemaphoreId}
    (present : state.inFlight.get? publicKey = some semaphore) :
    after.inFlight.get? publicKey = some semaphore := by
  cases step with
  | @lock id locking owns =>
      obtain ⟨_, extends', _⟩ := valid.map.getSemaphores (state.acquires id).publicKeys.elems
      exact extends'.kept publicKey semaphore present
  | @cleanupKey id first rest cleaning =>
      refine GossipSemaphore.get?_cleanupKey.mpr ⟨present, ?_⟩
      rintro ⟨rfl, _⟩
      refine uncovered ⟨id, ?_⟩
      simp [Acquire.Covers, cleaning]
  | _ => exact present

/-- What is abandoned has an entry, and nobody is left for it. -/
theorem Abandons.step (abandons : Abandons state action publicKey) (valid : Valid state)
    (step : Step state action after) :
    ¬ Covered after publicKey ∧ ∃ semaphore, after.inFlight.get? publicKey = some semaphore := by
  obtain ⟨id, permits, semaphore, semaphores, rfl, awaiting, member, alone⟩ := abandons
  cases step with
  | cancelLock locking =>
      rw [locking] at awaiting
      cases awaiting
  | cancelPermit phase =>
      constructor
      · rintro ⟨other, covers⟩
        by_cases same : other = id
        · rw [same] at covers
          simp [GossipSemaphore.enter, Acquire.Covers] at covers
        · rw [GossipSemaphore.enter_acquires rfl, Function.update_of_ne same] at covers
          exact alone other same covers
      · obtain ⟨semaphore, _, found⟩ :=
          valid.keys.secured id (by rw [awaiting]; trivial) publicKey member
        exact ⟨semaphore, found⟩

/-! ## Every run -/

/-- Every entry is one that a cleanup is to come for, or it leaked. -/
structure Accounted (trace : List (GossipSemaphore × Action)) (state : GossipSemaphore) : Prop where
  entry : ∀ publicKey semaphore, state.inFlight.get? publicKey = some semaphore →
    Covered state publicKey ∨ Leaked trace publicKey
  leak : ∀ publicKey, Leaked trace publicKey → ¬ Covered state publicKey ∧
    ∃ semaphore, state.inFlight.get? publicKey = some semaphore

namespace Accounted

theorem new : Accounted [] .new where
  entry := nofun
  leak := by
    rintro publicKey ⟨earlier, _, _, _, split, _⟩
    cases List.append_eq_nil_iff.mp split.symm with
    | intro _ none => cases none

theorem step {trace : List (GossipSemaphore × Action)} (accounted : Accounted trace state)
    (valid : Valid state) (step : Step state action after) :
    Accounted (trace ++ [(state, action)]) after where
  entry := by
    intro publicKey semaphore present
    rw [leaked_concat]
    by_cases locks : Locks state action publicKey
    · exact .inl (locks.covered step)
    · by_cases abandons : Abandons state action publicKey
      · exact .inr (.inr abandons)
      · have before := present_of_step valid step locks present
        rcases accounted.entry publicKey semaphore before with covered | leaked
        · exact .inl (covered.step valid step abandons present)
        · exact .inr (.inl ⟨leaked, locks⟩)
  leak := by
    intro publicKey leaked
    rcases leaked_concat.mp leaked with ⟨earlier, unlocked⟩ | abandons
    · obtain ⟨uncovered, semaphore, present⟩ := accounted.leak publicKey earlier
      exact ⟨fun covered => uncovered (covered_of_step step unlocked covered),
        semaphore, present_step valid step uncovered present⟩
    · exact abandons.step valid step

theorem of_run {trace : List (GossipSemaphore × Action)}
    (run : Run (Traced Step) .new trace state) : Accounted trace state := by
  induction run with
  | nil => exact new
  | @snoc trace middle _ label before last ih =>
      obtain ⟨taken, action⟩ := label
      obtain ⟨same, step⟩ := last
      cases same
      exact ih.step (Valid.of_run before) step

end Accounted

/-- In every run no two live permits share a key, and as long as no task calls
`acquire` with a permit of its own, something goes on where an acquire waits.
When all is over the map is empty if and only if no key leaked. -/
theorem acquire_exclusive_progresses_leaks {trace : List (GossipSemaphore × Action)}
    (run : Run (Traced Step) .new trace state) :
    Exclusive state ∧
    ((∀ label ∈ trace, Unburdened label.1 label.2) → DeadlockFree state) ∧
    (Quiescent state →
      (state.inFlight = .empty ↔ ∀ publicKey, ¬ Leaked trace publicKey)) := by
  have valid := Valid.of_run run
  have accounted := Accounted.of_run run
  refine ⟨valid.exclusive, fun unburdened => ?_, fun quiescent => ⟨?_, ?_⟩⟩
  · exact valid.deadlockFree (Apart.of_run run unburdened)
  · intro empty publicKey leaked
    obtain ⟨_, semaphore, present⟩ := accounted.leak publicKey leaked
    rw [empty] at present
    cases present
  · intro clean
    have uncovered : ∀ publicKey, ¬ Covered state publicKey := by
      rintro publicKey ⟨id, covers⟩
      simp [Acquire.Covers, quiescent id] at covers
    apply SortedTable.ext_get?
    intro publicKey
    cases found : state.inFlight.get? publicKey with
    | none => rfl
    | some semaphore =>
        rcases accounted.entry publicKey semaphore found with covered | leaked
        · exact absurd covered (uncovered publicKey)
        · exact absurd leaked (clean publicKey)

/-! ## A cancelled acquire -/

def firstKey : PublicKey := .replicate 32 0

def secondKey : PublicKey := .replicate 32 1

def firstKeys : SortedSet PublicKey := ⟨[(firstKey, ())], List.pairwise_singleton _ _⟩

def bothKeys : SortedSet PublicKey := ⟨[(firstKey, ()), (secondKey, ())], by decide +kernel⟩

private theorem cancelled_run : ∃ trace state, Run (Traced Step) .new trace state ∧
    (∀ label ∈ trace, Unburdened label.1 label.2) ∧ Quiescent state ∧
    state.inFlight.get? secondKey = some 1 := by
  have run := Run.trace .nil (Step.acquire rfl nofun : Step .new (.acquire 0 0 firstKeys) _)
  have run := run.trace (.lock rfl rfl : Step _ (.advance 0) _)
  have run := run.trace (.acquireOwned rfl : Step _ (.advance 0) _)
  have run := run.trace (.push rfl rfl : Step _ (.advance 0) _)
  have run := run.trace (.returnPermit rfl : Step _ (.advance 0) _)
  -- The second task waits for the first one's key and is cancelled.
  have run := run.trace
    (.acquire rfl (fun id => by cases id <;> nofun) : Step _ (.acquire 1 1 bothKeys) _)
  have run := run.trace (.lock rfl rfl : Step _ (.advance 1) _)
  have run := run.trace (.acquireOwned rfl : Step _ (.advance 1) _)
  have run := run.trace (.cancelPermit rfl : Step _ (.cancel 1) _)
  have run := run.trace (.unwound rfl : Step _ (.advance 1) _)
  -- The first task drops its permit, and its cleanup runs.
  have run := run.trace
    (.drop rfl (fun id _ => by rcases id with _ | _ | _ <;> nofun) : Step _ (.drop 0) _)
  have run := run.trace (.release rfl : Step _ (.advance 0) _)
  have run := run.trace (.spawn rfl : Step _ (.advance 0) _)
  have run := run.trace (.cleanup rfl : Step _ (.advance 0) _)
  have run := run.trace (.cleanupLock rfl rfl : Step _ (.advance 0) _)
  have run := run.trace (.cleanupKey rfl : Step _ (.advance 0) _)
  have run := run.trace (.cleaned rfl : Step _ (.advance 0) _)
  refine ⟨_, _, run, ?_, ?_, ?_⟩
  · simp only [List.forall_mem_append, List.forall_mem_singleton, Unburdened, and_true,
      List.nil_append]
    refine ⟨nofun, fun id => ?_⟩
    cases id with
    | zero => exact fun _ => Nat.zero_ne_one
    | succ id => exact nofun
  · intro id
    rcases id with _ | _ | _ <;> rfl
  · decide +kernel
/-- All is over, and the key that only the cancelled acquire had is still there. -/
theorem acquire_leaks :
    ¬ ∀ trace state, Run (Traced Step) .new trace state →
      (∀ label ∈ trace, Unburdened label.1 label.2) → Quiescent state →
      state.inFlight = .empty := by
  intro clean
  obtain ⟨trace, state, run, unburdened, quiescent, present⟩ := cancelled_run
  rw [clean trace state run unburdened quiescent] at present
  cases present

theorem acquire_exclusive_progresses_leaks_cancelled : ∃ trace state,
    Run (Traced Step) .new trace state ∧ Exclusive state ∧ DeadlockFree state ∧
      Quiescent state ∧ ∃ publicKey, Leaked trace publicKey := by
  obtain ⟨trace, state, run, unburdened, quiescent, present⟩ := cancelled_run
  obtain ⟨exclusive, progresses, leaks⟩ := acquire_exclusive_progresses_leaks run
  refine ⟨trace, state, run, exclusive, progresses unburdened, quiescent, ?_⟩
  by_contra clean
  have empty := (leaks quiescent).mpr fun publicKey leaked => clean ⟨publicKey, leaked⟩
  rw [empty] at present
  cases present

end RustNostr.NostrSdk.Gossip
