import Mathlib
import RustNostr.Library.Run
import RustNostr.Nostr.GiftWrap
import RustNostr.Nostr.ProofOfWork

/-!
# Mining

The miners of `nostr/src/nips/nip13`. Each thread of the multi-thread miner walks the nonces
in steps of the number of threads; the threads share a flag that says one of them has found
an event and a flag that cancels. Whatever touches a flag is a step of its own, and the
threads take their steps in any order.
-/

set_option autoImplicit false

namespace RustNostr

open Library Library.Checked

/-- `Tag::pow` -/
def Tag.pow (nonce : Nat) (difficulty : UInt8) : Tag :=
  ⟨["nonce", toString nonce, toString difficulty.toNat], List.cons_ne_nil _ _⟩

namespace Nip13

/-- The event with a nonce: a tag is pushed once, and each nonce takes its place. -/
def withNonce (unsigned : UnsignedEvent) (difficulty : UInt8) (nonce : Nat) : UnsignedEvent :=
  let tags := unsigned.tags ++ [Tag.pow 0 difficulty]
  { unsigned with tags := tags.set (tags.length - 1) (Tag.pow nonce difficulty) }

/-- What one nonce gives. `none` is the overflow in the count of the zero bits. -/
def tryNonce {SecretKey : Type} (calls : KeyCalls SecretKey) (unsigned : UnsignedEvent) (difficulty : UInt8)
    (nonce : Nat) : Option (Option UnsignedEvent) :=
  let event := withNonce unsigned difficulty nonce
  let id := event.computeId calls
  (checkPow id difficulty).map fun enough => if enough then some { event with id := some id } else none

/-- The greatest `u128`. -/
def greatestNonce : Nat := 2 ^ 128 - 1

/-! ## One thread -/

/-- How a turn of the loop of `single_thread::mine` ends. -/
inductive Turn where
  | next (nonce : Nat)
  | returned (result : Option UnsignedEvent)
  | panicked
  deriving DecidableEq

section Miners

variable (attempt : Nat → Option (Option UnsignedEvent))

/-- A turn of the loop, with what a load of the cancel flag gives in it. -/
def singleTurn (cancelled : Bool) (nonce : Nat) : Turn :=
  if nonce % 1024 = 0 ∧ cancelled then .returned none
  else
    match atMost greatestNonce (nonce + 1) with
    | none => .panicked
    | some nonce =>
        match attempt nonce with
        | none => .panicked
        | some none => .next nonce
        | some (some event) => .returned (some event)

/-- The loop for so many turns; the flag is loaded at some nonces. -/
def singleLoop (cancelled : Nat → Bool) : Nat → Nat → Turn
  | 0, nonce => .next nonce
  | turns + 1, nonce =>
      match singleTurn attempt (cancelled nonce) nonce with
      | .next nonce => singleLoop cancelled turns nonce
      | ended => ended

/-! ## Many threads -/

/-- Where a mining thread is: at the top of its loop, before a load of a flag, before an
attempt, before it stores that it has found an event, or at its end. -/
inductive Worker where
  | top (nonce : Nat)
  | loadFound (nonce : Nat)
  | loadCancel (nonce : Nat)
  | trying (nonce : Nat)
  | storing (event : UnsignedEvent)
  | returned (result : Option UnsignedEvent)
  | panicked
  deriving DecidableEq

/-- A step of a thread, and the flag `found` after it. -/
def Worker.step (numThreads : Nat) (found cancel : Bool) : Worker → Option (Worker × Bool)
  | top nonce =>
      match atMost greatestNonce (nonce + numThreads) with
      | none => some (panicked, found)
      | some nonce => some (if nonce / numThreads % 1024 = 0 then loadFound nonce else trying nonce, found)
  | loadFound nonce => some (if found then returned none else loadCancel nonce, found)
  | loadCancel nonce => some (if cancel then returned none else trying nonce, found)
  | trying nonce =>
      match attempt nonce with
      | none => some (panicked, found)
      | some none => some (top nonce, found)
      | some (some event) => some (storing event, found)
  | storing event => some (returned (some event), true)
  | returned _ => none
  | panicked => none

/-- Where `mine` is: spawning the threads, waiting for one of the flags, joining the threads
in their order, or at its end. -/
inductive Main where
  | spawning
  | pollFound
  | pollCancel
  | loadFound
  | joining (position : Nat)
  | fallback (nonce : Nat)
  | returned (result : Option UnsignedEvent)
  | panicked
  deriving DecidableEq

structure Mining where
  found : Bool
  cancel : Bool
  workers : List Worker
  main : Main

def Mining.start : Mining := ⟨false, false, [], .spawning⟩

/-- A step of `mine`. A join waits until the thread has ended. -/
def Mining.stepMain (numThreads : Nat) (mining : Mining) : Option Mining :=
  match mining.main with
  | .spawning =>
      if mining.workers.length < numThreads then
        some { mining with workers := mining.workers ++ [.top mining.workers.length] }
      else some { mining with main := .pollFound }
  | .pollFound => some { mining with main := if mining.found then .loadFound else .pollCancel }
  | .pollCancel => some { mining with main := if mining.cancel then .loadFound else .pollFound }
  | .loadFound => some { mining with main := if mining.found then .joining 0 else .returned none }
  | .joining position =>
      match mining.workers[position]? with
      | none => some { mining with main := .fallback 0 }
      | some (.returned (some event)) => some { mining with main := .returned (some event) }
      | some (.returned none) | some .panicked => some { mining with main := .joining (position + 1) }
      | some _ => none
  | .fallback nonce =>
      match singleTurn attempt mining.cancel nonce with
      | .next nonce => some { mining with main := .fallback nonce }
      | .returned result => some { mining with main := .returned result }
      | .panicked => some { mining with main := .panicked }
  | .returned _ | .panicked => none

inductive Act where
  | main
  | worker (thread : Nat)
  /-- Whoever shares the flag cancels. -/
  | cancel
  deriving DecidableEq

def Mining.stepWorker (numThreads : Nat) (mining : Mining) (thread : Nat) : Option Mining := do
  let worker ← mining.workers[thread]?
  let (worker, found) ← worker.step attempt numThreads mining.found mining.cancel
  return { mining with workers := mining.workers.set thread worker, found := found }

def Mining.step (numThreads : Nat) (mining : Mining) : Act → Option Mining
  | .main => mining.stepMain attempt numThreads
  | .worker thread => mining.stepWorker attempt numThreads thread
  | .cancel => if mining.cancel then none else some { mining with cancel := true }

/-- The steps of a schedule, and where they end. -/
def Mining.follow (numThreads : Nat) (mining : Mining) : List Act → Option (List (Mining × Act) × Mining)
  | [] => some ([], mining)
  | act :: acts => do
      let after ← mining.step attempt numThreads act
      let (trace, finish) ← Mining.follow numThreads after acts
      return ((mining, act) :: trace, finish)

/-- The runs of `mine` with its threads, with the states that the steps start from. -/
abbrev Mines (numThreads : Nat) (start : Mining) : List (Mining × Act) → Mining → Prop :=
  Run (Traced fun before act after => Mining.step attempt numThreads before act = some after) start

variable {attempt} in
theorem mines_of_follow {numThreads : Nat} {mining finish : Mining} {acts : List Act}
    {trace : List (Mining × Act)} (followed : mining.follow attempt numThreads acts = some (trace, finish)) :
    Mines attempt numThreads mining trace finish := by
  induction acts generalizing mining trace with
  | nil =>
      cases followed
      exact .nil
  | cons act acts ih =>
      simp only [Mining.follow, Option.bind_eq_bind, Option.bind_eq_some_iff, Prod.exists, Option.pure_def,
        Option.some.injEq, Prod.mk.injEq] at followed
      obtain ⟨after, stepped, trace, finish, rest, rfl, rfl⟩ := followed
      exact (ih rest).cons ⟨rfl, stepped⟩

end Miners

/-! ## What an attempt gives -/

section Attempts

variable {SecretKey : Type} {calls : KeyCalls SecretKey} {unsigned event : UnsignedEvent} {difficulty : UInt8}
  {nonce : Nat}

@[simp] theorem withNonce_tags :
    (withNonce unsigned difficulty nonce).tags = unsigned.tags ++ [Tag.pow nonce difficulty] := by
  simp [withNonce]

/-- What a miner gives for an event: the event with a nonce tag behind its own and the ID of
all that, which has enough zero bits. -/
structure Mined (calls : KeyCalls SecretKey) (unsigned : UnsignedEvent) (difficulty : UInt8)
    (event : UnsignedEvent) (nonce : Nat) : Prop where
  fields : event = { unsigned with id := event.id, tags := unsigned.tags ++ [Tag.pow nonce difficulty] }
  identified : event.id = some (event.computeId calls)
  worked : checkPow (event.computeId calls) difficulty = some true

theorem mined_of_tryNonce (hit : tryNonce calls unsigned difficulty nonce = some (some event)) :
    Mined calls unsigned difficulty event nonce := by
  obtain ⟨enough, checked, result⟩ := Option.map_eq_some_iff.mp hit
  cases enough with
  | false => cases result
  | true =>
      cases result
      exact ⟨by simp [withNonce], rfl, checked⟩

theorem addSignature_id {sig : Signature} {signed : Event} (added : unsigned.addSignature calls sig = .ok signed) :
    signed.id = unsigned.id.getD (unsigned.computeId calls) ∧ signed.tags = unsigned.tags := by
  unfold UnsignedEvent.addSignature at added
  simp only at added
  split at added
  next => cases added
  next =>
    split at added
    next => cases added
    next =>
      cases added
      exact ⟨rfl, rfl⟩

/-- Signing keeps the ID that was mined. -/
theorem Mined.signed {aux : Bytes} {secretKey : SecretKey} {signed : Event}
    (mined : Mined calls unsigned difficulty event nonce)
    (signing : signEvent calls secretKey aux event = .ok signed) :
    event.id = some signed.id ∧ signed.Verified calls.externals calls.crypto ∧
      checkPow signed.id difficulty = some true ∧ Tag.pow nonce difficulty ∈ signed.tags := by
  obtain ⟨verified, _⟩ := addSignature_ok signing
  obtain ⟨id, tags⟩ := addSignature_id signing
  have same : signed.id = event.computeId calls := by
    rw [id, mined.identified]
    rfl
  refine ⟨same ▸ mined.identified, verified, same ▸ mined.worked, ?_⟩
  rw [tags, mined.fields]
  simp

end Attempts

/-! ## The nonces of a thread -/

/-- The nonce that the thread's step tries. -/
def Worker.nonce : Worker → Option Nat
  | trying nonce => some nonce
  | _ => none

/-- The thread and the nonce of an attempt. -/
def attemptOf : Mining × Act → Option (Nat × Nat)
  | (mining, .worker thread) => do
      let worker ← mining.workers[thread]?
      let nonce ← worker.nonce
      return (thread, nonce)
  | (_, .main) | (_, .cancel) => none

/-- The attempts of a run, in their order. -/
def attempts (trace : List (Mining × Act)) : List (Nat × Nat) := trace.filterMap attemptOf

def noncesOf (trace : List (Mining × Act)) (thread : Nat) : List Nat :=
  (attempts trace).filterMap fun tried => if tried.1 = thread then some tried.2 else none

/-- The nonce of a thread's attempt, counted from zero. -/
def stride (numThreads thread count : Nat) : Nat := thread + numThreads * (count + 1)

section Threads

variable {attempt : Nat → Option (Option UnsignedEvent)} {numThreads thread count : Nat}
  {mining after : Mining} {worker next : Worker} {found cancel found' : Bool}

/-- The first attempts of a thread gave nothing. -/
def Missed (attempt : Nat → Option (Option UnsignedEvent)) (numThreads thread count : Nat) : Prop :=
  ∀ earlier < count, attempt (stride numThreads thread earlier) = some none

/-- The thread's last attempt gave the event, and none before it did. -/
def Hit (attempt : Nat → Option (Option UnsignedEvent)) (numThreads thread count : Nat)
    (event : UnsignedEvent) : Prop :=
  ∃ last, count = last + 1 ∧ Missed attempt numThreads thread last ∧
    attempt (stride numThreads thread last) = some (some event)

/-- Where a thread is after so many attempts. -/
def Worker.After (attempt : Nat → Option (Option UnsignedEvent)) (numThreads thread count : Nat) :
    Worker → Prop
  | top nonce => nonce = thread + numThreads * count ∧ Missed attempt numThreads thread count
  | loadFound nonce | loadCancel nonce | trying nonce =>
      nonce = stride numThreads thread count ∧ Missed attempt numThreads thread count
  | storing event | returned (some event) => Hit attempt numThreads thread count event
  | returned none | panicked => True

theorem Worker.step_after (stepped : worker.step attempt numThreads found cancel = some (next, found'))
    (before : worker.After attempt numThreads thread count) :
    next.After attempt numThreads thread (count + worker.nonce.toList.length) := by
  cases worker with
  | top nonce =>
      obtain ⟨here, missed⟩ := before
      have there : nonce + numThreads = stride numThreads thread count := by
        rw [here, stride, Nat.mul_add_one, Nat.add_assoc]
      simp only [step] at stepped
      split at stepped
      next =>
        cases stepped
        trivial
      next following sum =>
        cases (atMost_eq_some.mp sum).2
        cases stepped
        split
        · exact ⟨there, missed⟩
        · exact ⟨there, missed⟩
  | loadFound nonce =>
      simp only [step, Option.some.injEq, Prod.mk.injEq] at stepped
      obtain ⟨rfl, _⟩ := stepped
      cases found with
      | false => exact before
      | true => trivial
  | loadCancel nonce =>
      simp only [step, Option.some.injEq, Prod.mk.injEq] at stepped
      obtain ⟨rfl, _⟩ := stepped
      cases cancel with
      | false => exact before
      | true => trivial
  | trying nonce =>
      obtain ⟨rfl, missed⟩ := before
      simp only [step] at stepped
      split at stepped
      next =>
        cases stepped
        trivial
      next nothing =>
        cases stepped
        refine ⟨rfl, fun earlier below => ?_⟩
        cases Nat.lt_succ_iff_lt_or_eq.mp below with
        | inl old => exact missed earlier old
        | inr last => exact last ▸ nothing
      next event hit =>
        cases stepped
        exact ⟨count, rfl, missed, hit⟩
  | storing event =>
      simp only [step, Option.some.injEq, Prod.mk.injEq] at stepped
      obtain ⟨rfl, _⟩ := stepped
      exact before
  | returned result => cases stepped
  | panicked => cases stepped

/-- Only a thread that has an event to return stores that it has found one. -/
theorem Worker.step_found (stepped : worker.step attempt numThreads found cancel = some (next, found')) :
    found' = found ∨ found' = true ∧ ∃ event, next = .returned (some event) := by
  cases worker with
  | storing event =>
      cases stepped
      exact .inr ⟨rfl, event, rfl⟩
  | top nonce =>
      simp only [step] at stepped
      split at stepped <;> cases stepped <;> exact .inl rfl
  | trying nonce =>
      simp only [step] at stepped
      split at stepped <;> cases stepped <;> exact .inl rfl
  | loadFound nonce =>
      cases stepped
      exact .inl rfl
  | loadCancel nonce =>
      cases stepped
      exact .inl rfl
  | returned result => cases stepped
  | panicked => cases stepped

theorem stepWorker_eq_some : mining.stepWorker attempt numThreads thread = some after ↔
    ∃ worker next found, mining.workers[thread]? = some worker ∧
      worker.step attempt numThreads mining.found mining.cancel = some (next, found) ∧
      after = { mining with workers := mining.workers.set thread next, found := found } := by
  simp only [Mining.stepWorker, Option.bind_eq_bind, Option.bind_eq_some_iff, Option.pure_def,
    Option.some.injEq, Prod.exists, @eq_comm _ after]
  constructor
  · rintro ⟨worker, here, next, found, moved, result⟩
    exact ⟨worker, next, found, here, moved, result⟩
  · rintro ⟨worker, next, found, here, moved, result⟩
    exact ⟨worker, here, next, found, moved, result⟩

/-- What `mine` itself does to the threads: it spawns one, or leaves them alone. -/
theorem stepMain_workers (stepped : mining.stepMain attempt numThreads = some after) :
    after.found = mining.found ∧ after.cancel = mining.cancel ∧
      (after.workers = mining.workers ∨
        mining.workers.length < numThreads ∧
          after.workers = mining.workers ++ [.top mining.workers.length]) := by
  unfold Mining.stepMain at stepped
  split at stepped
  next =>
    split at stepped
    next more =>
      cases stepped
      exact ⟨rfl, rfl, .inr ⟨more, rfl⟩⟩
    next =>
      cases stepped
      exact ⟨rfl, rfl, .inl rfl⟩
  next => cases stepped; exact ⟨rfl, rfl, .inl rfl⟩
  next => cases stepped; exact ⟨rfl, rfl, .inl rfl⟩
  next => cases stepped; exact ⟨rfl, rfl, .inl rfl⟩
  next => split at stepped <;> cases stepped <;> exact ⟨rfl, rfl, .inl rfl⟩
  next => split at stepped <;> cases stepped <;> exact ⟨rfl, rfl, .inl rfl⟩
  next => cases stepped
  next => cases stepped

theorem noncesOf_snoc (trace : List (Mining × Act)) (label : Mining × Act) (thread : Nat) :
    noncesOf (trace ++ [label]) thread = noncesOf trace thread ++ noncesOf [label] thread := by
  simp [noncesOf, attempts]

@[simp] theorem noncesOf_main : noncesOf [(mining, .main)] thread = [] := rfl

@[simp] theorem noncesOf_cancel : noncesOf [(mining, .cancel)] thread = [] := rfl

theorem noncesOf_worker {other : Nat} (here : mining.workers[other]? = some worker) :
    noncesOf [(mining, .worker other)] thread = if other = thread then worker.nonce.toList else [] := by
  cases tried : worker.nonce with
  | none => simp [noncesOf, attempts, attemptOf, here, tried]
  | some nonce =>
      by_cases same : other = thread
      · subst same
        simp [noncesOf, attempts, attemptOf, here, tried]
      · simp [noncesOf, attempts, attemptOf, here, tried, same]

/-- Each thread of a run has tried the first nonces of its stride, in their order. -/
structure Threads (attempt : Nat → Option (Option UnsignedEvent)) (numThreads : Nat)
    (trace : List (Mining × Act)) (mining : Mining) : Prop where
  few : mining.workers.length ≤ numThreads
  tried : ∀ thread, noncesOf trace thread =
    (List.range (noncesOf trace thread).length).map (stride numThreads thread)
  spawned : ∀ thread, mining.workers.length ≤ thread → noncesOf trace thread = []
  after : ∀ (thread : Nat) (worker : Worker), mining.workers[thread]? = some worker →
    Worker.After attempt numThreads thread (noncesOf trace thread).length worker

/-- A nonce that is tried is the next of the stride. -/
theorem Worker.After.nonce_eq (here : Worker.After attempt numThreads thread count worker) :
    worker.nonce.toList = (List.range worker.nonce.toList.length).map
      fun more => stride numThreads thread (count + more) := by
  cases worker with
  | trying nonce =>
      obtain ⟨rfl, _⟩ := here
      rfl
  | _ => rfl

variable {trace : List (Mining × Act)}

theorem Threads.stepWorker (threads : Threads attempt numThreads trace mining)
    (stepped : mining.stepWorker attempt numThreads thread = some after) :
    Threads attempt numThreads (trace ++ [(mining, .worker thread)]) after := by
  obtain ⟨worker, next, found, here, moved, rfl⟩ := stepWorker_eq_some.mp stepped
  have inside : thread < mining.workers.length := (List.getElem?_eq_some_iff.mp here).1
  have before := threads.after thread worker here
  have nonces : ∀ other, noncesOf (trace ++ [(mining, .worker thread)]) other =
      noncesOf trace other ++ if thread = other then worker.nonce.toList else [] := by
    intro other
    rw [noncesOf_snoc, noncesOf_worker here]
  refine ⟨by simpa using threads.few, fun other => ?_, fun other beyond => ?_, fun other next' found' => ?_⟩
  · rw [nonces other]
    by_cases same : thread = other
    · subst same
      simp only [if_pos, List.length_append, List.range_add, List.map_append, List.map_map]
      congr 1
      · exact threads.tried thread
      · exact before.nonce_eq
    · simpa only [if_neg same, List.append_nil] using threads.tried other
  · have beyond : mining.workers.length ≤ other := by simpa using beyond
    have differ : thread ≠ other := fun same => absurd inside (by omega)
    rw [nonces other, threads.spawned other beyond, if_neg differ, List.nil_append]
  · rw [nonces other]
    by_cases same : thread = other
    · subst same
      have same : next = next' := by simpa [List.getElem?_set_self inside] using found'
      subst same
      simpa using Worker.step_after moved before
    · rw [List.getElem?_set_ne same] at found'
      simpa only [if_neg same, List.append_nil] using threads.after other next' found'

theorem Threads.stepMain (threads : Threads attempt numThreads trace mining)
    (stepped : mining.stepMain attempt numThreads = some after) :
    Threads attempt numThreads (trace ++ [(mining, .main)]) after := by
  have nonces : ∀ other, noncesOf (trace ++ [(mining, .main)]) other = noncesOf trace other := by
    intro other
    simp [noncesOf_snoc]
  obtain ⟨_, _, same | ⟨more, spawned⟩⟩ := stepMain_workers stepped
  · refine ⟨same ▸ threads.few, fun other => ?_, fun other => ?_, fun other => ?_⟩
    · simpa only [nonces] using threads.tried other
    · simpa only [nonces, same] using threads.spawned other
    · simpa only [nonces, same] using threads.after other
  · refine ⟨?_, fun other => ?_, fun other beyond => ?_, fun other worker here => ?_⟩
    · rw [spawned]
      simpa using more
    · simpa only [nonces] using threads.tried other
    · rw [nonces]
      refine threads.spawned other ?_
      rw [spawned, List.length_append] at beyond
      omega
    · rw [nonces]
      rw [spawned] at here
      by_cases last : other < mining.workers.length
      · rw [List.getElem?_append_left last] at here
        exact threads.after other worker here
      · obtain ⟨rfl, rfl⟩ : other = mining.workers.length ∧ worker = .top mining.workers.length := by
          rw [List.getElem?_append_right (by omega), List.getElem?_singleton] at here
          split at here
          next first =>
            cases here
            exact ⟨by omega, rfl⟩
          next => cases here
        rw [threads.spawned _ (Nat.le_refl _)]
        exact ⟨rfl, fun _ below => absurd below (Nat.not_lt_zero _)⟩

theorem threads_of_run {finish : Mining} (run : Mines attempt numThreads .start trace finish) :
    Threads attempt numThreads trace finish := by
  have start : Threads attempt numThreads [] .start :=
    ⟨Nat.zero_le _, fun _ => rfl, fun _ _ => rfl, by simp [Mining.start]⟩
  refine run.invariant start ?_
  rintro trace _ ⟨mining, act⟩ after threads ⟨rfl, stepped⟩
  cases act with
  | main => exact threads.stepMain stepped
  | worker thread => exact threads.stepWorker stepped
  | cancel =>
      simp only [Mining.step] at stepped
      split at stepped
      next => cases stepped
      next =>
        cases stepped
        have nonces : ∀ other, noncesOf (trace ++ [(mining, .cancel)]) other = noncesOf trace other := by
          intro other
          simp [noncesOf_snoc]
        refine ⟨threads.few, fun other => ?_, fun other => ?_, fun other => ?_⟩
        · simpa only [nonces] using threads.tried other
        · simpa only [nonces] using threads.spawned other
        · simpa only [nonces] using threads.after other

end Threads

end Nip13

end RustNostr
