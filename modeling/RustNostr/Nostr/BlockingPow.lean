import Mathlib
import RustNostr.Library.Traces
import RustNostr.Nostr.MiningResults

/-!
# Mining in the background

`BlockingPowFuture` (`nostr/src/nips/nip13/blocking_wrapper.rs`), which mines in a thread of
its own. The future is polled by an executor, with any waker and at any time; the thread
stores what it has mined and wakes the waker of the last poll. Whatever either of them does
under one lock is one step.
-/

set_option autoImplicit false

namespace RustNostr.Nip13

open Library

/-- Where the spawned thread is. It holds the lock of the waker while it wakes. -/
inductive PowThread (Waker : Type) where
  | unspawned
  | working
  | storing (event : Option UnsignedEvent)
  | takingWaker
  | waking (waker : Waker)
  | ended
  | panicked

/-- Where the future is: between two polls, in one, or dropped. -/
inductive PowPoll where
  | idle
  | spawning
  | takingResult
  | dropped
  deriving DecidableEq

/-- `BlockingPowFuture` with the state it shares with its thread. -/
structure PowFuture (Waker : Type) where
  result : Option (Option UnsignedEvent)
  waker : Option Waker
  cancel : Bool
  thread : PowThread Waker
  poll : PowPoll

def PowFuture.new {Waker : Type} : PowFuture Waker := ⟨none, none, false, .unspawned, .idle⟩

inductive PowStep (Waker : Type) where
  /-- `poll` stores the waker of its context. -/
  | poll (waker : Waker)
  | spawn
  /-- What `poll` returns: the result, or `none` for `Pending`. -/
  | answer (result : Option (Option UnsignedEvent))
  /-- What the work returns. -/
  | work (event : Option UnsignedEvent)
  | panic
  | store
  | takeWaker
  | wake (waker : Waker)
  | drop

variable {Waker : Type}

/-- The thread does not hold the lock of the waker. -/
def PowThread.Unlocked : PowThread Waker → Prop
  | waking _ => False
  | _ => True

/-- The thread is spawned by the first poll. -/
def PowThread.spawn : PowThread Waker → PowThread Waker
  | unspawned => working
  | spawned => spawned

/-- The steps of the future and its thread. -/
inductive PowFuture.Step : PowFuture Waker → PowStep Waker → PowFuture Waker → Prop where
  | poll {future : PowFuture Waker} (waker : Waker) (idle : future.poll = .idle)
      (unlocked : future.thread.Unlocked) :
      Step future (.poll waker) { future with waker := some waker, poll := .spawning }
  | spawn {future : PowFuture Waker} (polled : future.poll = .spawning) :
      Step future .spawn { future with
        poll := .takingResult
        thread := future.thread.spawn }
  | answer {future : PowFuture Waker} (polled : future.poll = .takingResult) :
      Step future (.answer future.result) { future with result := none, poll := .idle }
  | work {future : PowFuture Waker} (event : Option UnsignedEvent) (working : future.thread = .working) :
      Step future (.work event) { future with thread := .storing event }
  | panic {future : PowFuture Waker} (working : future.thread = .working) :
      Step future .panic { future with thread := .panicked }
  | store {future : PowFuture Waker} (event : Option UnsignedEvent) (storing : future.thread = .storing event) :
      Step future .store { future with result := some event, thread := .takingWaker }
  | takeWaker {future : PowFuture Waker} (taking : future.thread = .takingWaker) :
      Step future .takeWaker { future with
        waker := none
        thread := future.waker.elim .ended .waking }
  | wake {future : PowFuture Waker} (waker : Waker) (waking : future.thread = .waking waker) :
      Step future (.wake waker) { future with thread := .ended }
  | drop {future : PowFuture Waker} (idle : future.poll = .idle) :
      Step future .drop { future with cancel := true, poll := .dropped }

/-! ## What a run shows -/

/-- The result that a poll has returned. -/
def PowStep.answered : PowStep Waker → List (Option UnsignedEvent)
  | answer result => result.toList
  | _ => []

/-- What the work has returned. -/
def PowStep.worked : PowStep Waker → List (Option UnsignedEvent)
  | work event => [event]
  | _ => []

def answers (steps : List (PowStep Waker)) : List (Option UnsignedEvent) := steps.flatMap PowStep.answered

def works (steps : List (PowStep Waker)) : List (Option UnsignedEvent) := steps.flatMap PowStep.worked

/-- The steps behind the last poll, with its waker. -/
def LastPoll (steps : List (PowStep Waker)) (waker : Waker) (since : List (PowStep Waker)) : Prop :=
  (∃ before, steps = before ++ .poll waker :: since) ∧ ∀ other, .poll other ∉ since

@[simp] theorem answers_snoc (steps : List (PowStep Waker)) (step : PowStep Waker) :
    answers (steps ++ [step]) = answers steps ++ step.answered := by
  simp [answers]

@[simp] theorem works_snoc (steps : List (PowStep Waker)) (step : PowStep Waker) :
    works (steps ++ [step]) = works steps ++ step.worked := by
  simp [works]

variable {steps since : List (PowStep Waker)} {step : PowStep Waker} {waker : Waker}

theorem lastPoll_poll (other : Waker) : LastPoll (steps ++ [.poll other]) waker since ↔
    waker = other ∧ since = [] := by
  constructor
  · rintro ⟨⟨before, split⟩, none⟩
    rcases snoc_eq_append_cons.mp split with ⟨_, same, empty⟩ | ⟨earlier, _, rfl⟩
    · cases same
      exact ⟨rfl, empty⟩
    · exact absurd (List.mem_append_right earlier (List.mem_singleton_self _)) (none other)
  · rintro ⟨rfl, rfl⟩
    exact ⟨⟨steps, rfl⟩, by simp⟩

theorem lastPoll_other (other : ∀ waker, step ≠ .poll waker) : LastPoll (steps ++ [step]) waker since ↔
    ∃ earlier, LastPoll steps waker earlier ∧ since = earlier ++ [step] := by
  constructor
  · rintro ⟨⟨before, split⟩, none⟩
    rcases snoc_eq_append_cons.mp split with ⟨_, same, _⟩ | ⟨earlier, rfl, rfl⟩
    · exact absurd same (other waker)
    · exact ⟨earlier, ⟨⟨before, rfl⟩, fun polled member => none polled (List.mem_append_left _ member)⟩, rfl⟩
  · rintro ⟨earlier, ⟨⟨before, rfl⟩, none⟩, rfl⟩
    refine ⟨⟨before, by simp⟩, fun polled member => ?_⟩
    rcases List.mem_append.mp member with old | last
    · exact none polled old
    · exact other polled (List.mem_singleton.mp last).symm

/-! ## The result -/

/-- What the work has returned is stored once and handed out once. -/
inductive Delivery : PowThread Waker → Option (Option UnsignedEvent) → List (Option UnsignedEvent) →
    List (Option UnsignedEvent) → Prop where
  | unspawned : Delivery .unspawned none [] []
  | working : Delivery .working none [] []
  | panicked : Delivery .panicked none [] []
  | storing (event : Option UnsignedEvent) : Delivery (.storing event) none [event] []
  | stored {thread : PowThread Waker} (event : Option UnsignedEvent)
      (past : thread = .takingWaker ∨ (∃ waker, thread = .waking waker) ∨ thread = .ended) :
      Delivery thread (some event) [event] []
  | answered {thread : PowThread Waker} (event : Option UnsignedEvent)
      (past : thread = .takingWaker ∨ (∃ waker, thread = .waking waker) ∨ thread = .ended) :
      Delivery thread none [event] [event]

theorem Delivery.answer {thread : PowThread Waker} {result : Option (Option UnsignedEvent)}
    {works answers : List (Option UnsignedEvent)} (delivery : Delivery thread result works answers) :
    Delivery thread none works (answers ++ result.toList) := by
  cases delivery with
  | unspawned => exact .unspawned
  | working => exact .working
  | panicked => exact .panicked
  | storing event => exact .storing event
  | stored event past => exact .answered event past
  | answered event past => exact .answered event past

theorem Delivery.of_working {result : Option (Option UnsignedEvent)} {works answers : List (Option UnsignedEvent)}
    (delivery : Delivery (.working : PowThread Waker) result works answers) :
    result = none ∧ works = [] ∧ answers = [] := by
  cases delivery with
  | working => exact ⟨rfl, rfl, rfl⟩
  | stored event past => simp at past
  | answered event past => simp at past

theorem Delivery.of_storing {event : Option UnsignedEvent} {result : Option (Option UnsignedEvent)}
    {works answers : List (Option UnsignedEvent)}
    (delivery : Delivery (.storing event : PowThread Waker) result works answers) :
    result = none ∧ works = [event] ∧ answers = [] := by
  cases delivery with
  | storing => exact ⟨rfl, rfl, rfl⟩
  | stored event past => simp at past
  | answered event past => simp at past

theorem Delivery.spawn {thread : PowThread Waker} {result : Option (Option UnsignedEvent)}
    {works answers : List (Option UnsignedEvent)} (delivery : Delivery thread result works answers) :
    Delivery thread.spawn result works answers := by
  cases delivery with
  | unspawned => exact .working
  | working => exact .working
  | panicked => exact .panicked
  | storing event => exact .storing event
  | stored event past =>
      rcases past with rfl | ⟨waker, rfl⟩ | rfl
      · exact .stored event (.inl rfl)
      · exact .stored event (.inr (.inl ⟨waker, rfl⟩))
      · exact .stored event (.inr (.inr rfl))
  | answered event past =>
      rcases past with rfl | ⟨waker, rfl⟩ | rfl
      · exact .answered event (.inl rfl)
      · exact .answered event (.inr (.inl ⟨waker, rfl⟩))
      · exact .answered event (.inr (.inr rfl))

/-- The thread goes on to wake after it has stored its result. -/
theorem Delivery.past {thread next : PowThread Waker} {result : Option (Option UnsignedEvent)}
    {works answers : List (Option UnsignedEvent)} (delivery : Delivery thread result works answers)
    (taking : thread = .takingWaker ∨ ∃ waker, thread = .waking waker)
    (past : (∃ waker, next = .waking waker) ∨ next = .ended) : Delivery next result works answers := by
  cases delivery with
  | stored event _ => exact .stored event (.inr past)
  | answered event _ => exact .answered event (.inr past)
  | _ => simp at taking

/-! ## The waker -/

/-- Whose waker the thread is going to wake, or has woken since the last poll. -/
def Registered (slot : Option Waker) (poll : PowPoll) (waker : Waker) (since : List (PowStep Waker)) :
    PowThread Waker → Prop
  | .unspawned | .working | .storing _ | .takingWaker => slot = some waker
  | .waking woken => poll = .idle → woken = waker
  | .ended => poll = .idle → .wake waker ∈ since
  | .panicked => True

structure Polled (steps : List (PowStep Waker)) (future : PowFuture Waker) : Prop where
  delivery : Delivery future.thread future.result (works steps) (answers steps)
  registered : ∀ waker since, answers steps = [] → LastPoll steps waker since →
    Registered future.waker future.poll waker since future.thread

variable {future after : PowFuture Waker} {slot : Option Waker} {poll : PowPoll} {thread : PowThread Waker}

theorem Registered.snoc (registered : Registered slot poll waker since thread) (step : PowStep Waker) :
    Registered slot poll waker (since ++ [step]) thread := by
  cases thread with
  | ended => exact fun idle => List.mem_append_left _ (registered idle)
  | _ => exact registered

/-- While a poll goes on, what the thread has done or does about a waker is not looked at. -/
theorem Registered.busy (registered : Registered slot poll waker since thread) {busy : PowPoll}
    (notIdle : busy ≠ .idle) : Registered slot busy waker since thread := by
  cases thread with
  | waking woken => exact fun idle => absurd idle notIdle
  | ended => exact fun idle => absurd idle notIdle
  | _ => exact registered

/-- What a step that is no poll keeps. -/
theorem Polled.other (polled : Polled steps future) (other : ∀ waker, step ≠ .poll waker)
    (delivery : Delivery after.thread after.result (works (steps ++ [step])) (answers (steps ++ [step])))
    (registers : ∀ waker earlier, answers (steps ++ [step]) = [] →
      Registered future.waker future.poll waker earlier future.thread →
      Registered after.waker after.poll waker (earlier ++ [step]) after.thread) : Polled (steps ++ [step]) after := by
  refine ⟨delivery, fun waker since unanswered last => ?_⟩
  obtain ⟨earlier, before, rfl⟩ := (lastPoll_other other).mp last
  have none := unanswered
  rw [answers_snoc, List.append_eq_nil_iff] at none
  exact registers waker earlier unanswered (polled.registered waker earlier none.1 before)

theorem Polled.after_step (polled : Polled steps future) (stepped : future.Step step after) :
    Polled (steps ++ [step]) after := by
  have delivery := polled.delivery
  cases stepped with
  | poll waker idle unlocked =>
      refine ⟨by simpa [PowStep.answered, PowStep.worked] using delivery, fun other since _ last => ?_⟩
      obtain ⟨rfl, rfl⟩ := (lastPoll_poll waker).mp last
      cases thread : future.thread with
      | waking woken =>
          rw [thread] at unlocked
          exact False.elim unlocked
      | _ => simp [Registered]
  | spawn spawning =>
      refine polled.other nofun (by simpa [PowStep.answered, PowStep.worked] using delivery.spawn) ?_
      intro waker earlier _ before
      have busy : Registered future.waker .takingResult waker (earlier ++ [.spawn]) future.thread :=
        (before.snoc .spawn).busy nofun
      cases thread : future.thread with
      | unspawned =>
          rw [thread] at busy
          exact busy
      | _ =>
          rw [thread] at busy
          exact busy
  | answer polling =>
      refine polled.other nofun (by simpa [PowStep.answered, PowStep.worked] using delivery.answer) ?_
      intro waker earlier unanswered before
      have pending : answers steps = [] ∧ future.result = none := by
        simpa [PowStep.answered] using unanswered
      rw [pending.1, pending.2] at delivery
      generalize future.thread = thread at delivery before
      generalize works steps = worked at delivery
      cases delivery with
      | unspawned => exact before
      | working => exact before
      | panicked => trivial
      | storing event => exact before
  | work event working =>
      rw [working] at delivery
      obtain ⟨result, worked, answered⟩ := delivery.of_working
      refine polled.other nofun ?_ fun waker earlier _ before => ?_
      · simp only [works_snoc, answers_snoc, PowStep.worked, PowStep.answered, result, worked, answered]
        exact .storing event
      · rw [working] at before
        exact before
  | panic working =>
      rw [working] at delivery
      obtain ⟨result, worked, answered⟩ := delivery.of_working
      refine polled.other nofun ?_ fun _ _ _ _ => trivial
      simp only [works_snoc, answers_snoc, PowStep.worked, PowStep.answered, result, worked, answered]
      exact .panicked
  | store event storing =>
      rw [storing] at delivery
      obtain ⟨_, worked, answered⟩ := delivery.of_storing
      refine polled.other nofun ?_ fun waker earlier _ before => ?_
      · simp only [works_snoc, answers_snoc, PowStep.worked, PowStep.answered, worked, answered]
        exact .stored event (.inl rfl)
      · rw [storing] at before
        exact before
  | takeWaker taking =>
      refine polled.other nofun ?_ fun waker earlier _ before => ?_
      · have past : (∃ waker, future.waker.elim PowThread.ended .waking = .waking waker) ∨
            future.waker.elim PowThread.ended .waking = .ended := by
          cases future.waker with
          | none => exact .inr rfl
          | some waker => exact .inl ⟨waker, rfl⟩
        simpa [PowStep.answered, PowStep.worked] using delivery.past (.inl taking) past
      · rw [taking] at before
        have slot : future.waker = some waker := before
        simp only [slot]
        exact fun _ => rfl
  | wake waker waking =>
      refine polled.other nofun ?_ fun other earlier _ before => ?_
      · simpa [PowStep.answered, PowStep.worked] using delivery.past (.inr ⟨waker, waking⟩) (.inr rfl)
      · intro idle
        rw [waking] at before
        rw [before idle]
        simp
  | drop idle =>
      refine polled.other nofun (by simpa [PowStep.answered, PowStep.worked] using delivery) ?_
      intro waker earlier _ before
      exact (before.snoc .drop).busy nofun

theorem polled_new : Polled [] (.new : PowFuture Waker) :=
  ⟨.unspawned, fun waker since _ last => by
    obtain ⟨⟨before, none⟩, _⟩ := last
    simp at none⟩

theorem polled_of_run (run : Run PowFuture.Step .new steps future) : Polled steps future :=
  run.invariant polled_new fun _ _ _ _ polled stepped => polled.after_step stepped

/-- Where what the work has returned is. -/
theorem Delivery.places {thread : PowThread Waker} {result : Option (Option UnsignedEvent)}
    {works answers : List (Option UnsignedEvent)} (delivery : Delivery thread result works answers) :
    works.length ≤ 1 ∧ answers <+: works ∧
      ((∀ event, thread ≠ .storing event) → works = answers ++ result.toList) := by
  cases delivery with
  | unspawned => simp
  | working => simp
  | panicked => simp
  | storing event => exact ⟨Nat.le_refl 1, List.nil_prefix, fun other => absurd rfl (other event)⟩
  | stored event past => simp
  | answered event past => simp

/-- Whatever wakers the future is polled with, and whenever: the work runs once, and what it
returns is handed out once, by the first poll that looks after it is stored. When the thread
has ended and no poll has handed it out, the waker of the last poll has been woken. -/
theorem blockingPowFuture_delivers {steps : List (PowStep Waker)} {future : PowFuture Waker}
    (run : Run PowFuture.Step .new steps future) :
    (works steps).length ≤ 1 ∧ answers steps <+: works steps ∧
    ((∀ event, future.thread ≠ .storing event) → works steps = answers steps ++ future.result.toList) ∧
    (future.thread = .ended → future.poll = .idle → answers steps = [] → ∀ waker since,
      LastPoll steps waker since → .wake waker ∈ since) := by
  have polled := polled_of_run run
  obtain ⟨once, handed, stored⟩ := polled.delivery.places
  refine ⟨once, handed, stored, fun ended idle unanswered waker since last => ?_⟩
  have registered := polled.registered waker since unanswered last
  rw [ended] at registered
  exact registered idle

/-- The work returns nothing while the first poll waits, and then the thread stores and wakes. -/
def sampleSteps : List (PowStep Nat) :=
  [.poll 7, .spawn, .answer none, .work none, .store, .takeWaker, .wake 7]

theorem run_sampleSteps :
    Run PowFuture.Step .new sampleSteps ⟨some none, none, false, .ended, .idle⟩ := by
  exact .cons (.poll 7 rfl trivial) (.cons (.spawn rfl) (.cons (.answer rfl) (.cons (.work none rfl)
    (.cons (.store none rfl) (.cons (.takeWaker rfl) (.cons (.wake 7 rfl) .nil))))))

theorem blockingPowFuture_delivers_sample :
    (works sampleSteps).length ≤ 1 ∧ .wake 7 ∈ sampleSteps.tail := by
  have delivers := blockingPowFuture_delivers run_sampleSteps
  exact ⟨delivers.1, delivers.2.2.2 rfl rfl rfl 7 _ ⟨⟨[], rfl⟩, by simp [sampleSteps]⟩⟩

/-! ## The miner behind the future -/

/-- A future with the miner that its thread runs. -/
structure Background (Waker : Type) where
  future : PowFuture Waker
  mining : Mining

inductive BackgroundStep (Waker : Type) where
  | future (step : PowStep Waker)
  | mine (act : Act)

variable (attempt : Nat → Option (Option UnsignedEvent)) (numThreads : Nat)

/-- The work of the future is `mine`, with the flag that dropping the future sets. -/
inductive Background.Step : Background Waker → BackgroundStep Waker → Background Waker → Prop where
  | poll {state : Background Waker} {step : PowStep Waker} {future : PowFuture Waker}
      (ordinary : step ≠ .drop ∧ step ≠ .panic ∧ ∀ event, step ≠ .work event)
      (stepped : state.future.Step step future) : Step state (.future step) { state with future := future }
  | mine {state : Background Waker} {act : Act} {mining : Mining} (given : act ≠ .cancel)
      (working : act = .main → state.future.thread = .working)
      (stepped : state.mining.step attempt numThreads act = some mining) :
      Step state (.mine act) { state with mining := mining }
  | works {state : Background Waker} {event : Option UnsignedEvent} {future : PowFuture Waker}
      (returned : state.mining.main = .returned event) (stepped : state.future.Step (.work event) future) :
      Step state (.future (.work event)) { state with future := future }
  | panics {state : Background Waker} {future : PowFuture Waker} (panicked : state.mining.main = .panicked)
      (stepped : state.future.Step .panic future) :
      Step state (.future .panic) { state with future := future }
  | drop {state : Background Waker} {future : PowFuture Waker} (stepped : state.future.Step .drop future) :
      Step state (.future .drop) { future := future, mining := { state.mining with cancel := true } }

/-- The steps of the future among all. -/
def futureSteps (steps : List (BackgroundStep Waker)) : List (PowStep Waker) :=
  steps.flatMap fun
    | .future step => [step]
    | .mine _ => []

variable {attempt numThreads}

structure Background.Kept (attempt : Nat → Option (Option UnsignedEvent)) (numThreads : Nat)
    (steps : List (BackgroundStep Waker)) (state : Background Waker) : Prop where
  polled : Polled (futureSteps steps) state.future
  mines : ∃ trace, Mines attempt numThreads .start trace state.mining
  cancelled : state.mining.cancel = true → state.future.poll = .dropped
  worked : ∀ event ∈ works (futureSteps steps), state.mining.main = .returned event
  answered : ∀ event ∈ answers (futureSteps steps), ∃ mined, event = some mined

theorem returned_stays {mining after : Mining} {act : Act} {event : Option UnsignedEvent}
    (returned : mining.main = .returned event) (stepped : mining.step attempt numThreads act = some after) :
    after.main = .returned event := by
  cases act with
  | main =>
      simp only [Mining.step, Mining.stepMain, returned] at stepped
      cases stepped
  | worker thread =>
      obtain ⟨_, _, _, _, _, rfl⟩ := stepWorker_eq_some.mp stepped
      exact returned
  | cancel =>
      simp only [Mining.step] at stepped
      split at stepped
      next => cases stepped
      next =>
        cases stepped
        exact returned

theorem dropped_stays {future after : PowFuture Waker} {step : PowStep Waker} (dropped : future.poll = .dropped)
    (stepped : future.Step step after) : after.poll = .dropped := by
  cases stepped with
  | poll waker idle _ => simp [dropped] at idle
  | spawn polled => simp [dropped] at polled
  | answer polled => simp [dropped] at polled
  | drop idle => rfl
  | _ => exact dropped

/-- A result that is there was returned by the work. -/
theorem Delivery.mem_works {thread : PowThread Waker} {event : Option UnsignedEvent}
    {works answers : List (Option UnsignedEvent)} (delivery : Delivery thread (some event) works answers) :
    event ∈ works := by
  cases delivery with
  | stored => exact List.mem_singleton_self event

@[simp] theorem futureSteps_future (steps : List (BackgroundStep Waker)) (step : PowStep Waker) :
    futureSteps (steps ++ [.future step]) = futureSteps steps ++ [step] := by
  simp [futureSteps]

@[simp] theorem futureSteps_mine (steps : List (BackgroundStep Waker)) (act : Act) :
    futureSteps (steps ++ [.mine act]) = futureSteps steps := by
  simp [futureSteps]

theorem Background.Kept.after_step {steps : List (BackgroundStep Waker)} {state after : Background Waker}
    {label : BackgroundStep Waker} (kept : state.Kept attempt numThreads steps)
    (stepped : state.Step attempt numThreads label after) : after.Kept attempt numThreads (steps ++ [label]) := by
  obtain ⟨trace, run⟩ := kept.mines
  have sound := sound_of_run run
  cases stepped with
  | @poll step future ordinary moved =>
      obtain ⟨_, _, noWork⟩ := ordinary
      have worked : step.worked = [] := by
        cases step with
        | work event => exact absurd rfl (noWork event)
        | _ => rfl
      refine ⟨?_, kept.mines, fun cancelled => dropped_stays (kept.cancelled cancelled) moved, ?_, ?_⟩
      · rw [futureSteps_future]
        exact kept.polled.after_step moved
      · simpa [worked] using kept.worked
      · intro event member
        rw [futureSteps_future, answers_snoc] at member
        rcases List.mem_append.mp member with old | new
        · exact kept.answered event old
        · cases moved with
          | answer polling =>
              have delivery := kept.polled.delivery
              rw [Option.mem_toList.mp new] at delivery
              have returned := kept.worked event delivery.mem_works
              cases event with
              | some mined => exact ⟨mined, rfl⟩
              | none =>
                  have cancelled := sound.main
                  rw [returned] at cancelled
                  have dropped := kept.cancelled cancelled
                  rw [polling] at dropped
                  cases dropped
          | _ => cases new
  | @mine act mining given working moved =>
      have cancelled : mining.cancel = state.mining.cancel := by
        cases act with
        | main => exact (stepMain_workers moved).2.1
        | worker thread =>
            obtain ⟨_, _, _, _, _, rfl⟩ := stepWorker_eq_some.mp moved
            rfl
        | cancel => exact absurd rfl given
      refine ⟨?_, ⟨_, run.trace moved⟩, fun isCancelled => kept.cancelled (cancelled ▸ isCancelled), ?_, ?_⟩
      · rw [futureSteps_mine]
        exact kept.polled
      · intro event member
        rw [futureSteps_mine] at member
        exact returned_stays (kept.worked event member) moved
      · rw [futureSteps_mine]
        exact kept.answered
  | @works event future returned moved =>
      refine ⟨?_, kept.mines, fun cancelled => dropped_stays (kept.cancelled cancelled) moved, ?_, ?_⟩
      · rw [futureSteps_future]
        exact kept.polled.after_step moved
      · intro other member
        rw [futureSteps_future, works_snoc] at member
        rcases List.mem_append.mp member with old | new
        · exact kept.worked other old
        · cases List.mem_singleton.mp new
          exact returned
      · simpa [PowStep.answered] using kept.answered
  | @panics future panicked moved =>
      have here := sound.main
      rw [panicked] at here
      exact False.elim here
  | @drop future moved =>
      have dropped : future.poll = .dropped := by
        cases moved
        rfl
      refine ⟨?_, ?_, fun _ => dropped, ?_, ?_⟩
      · rw [futureSteps_future]
        exact kept.polled.after_step moved
      · cases running : state.mining.cancel with
        | false =>
            have cancels : state.mining.step attempt numThreads .cancel =
                some { state.mining with cancel := true } := by simp [Mining.step, running]
            exact ⟨_, run.trace cancels⟩
        | true =>
            have same : { state.mining with cancel := true } = state.mining := by rw [← running]
            exact ⟨trace, by simpa only [same] using run⟩
      · simpa [PowStep.worked] using kept.worked
      · simpa [PowStep.answered] using kept.answered

def Background.start : Background Waker := ⟨.new, .start⟩

theorem Background.kept_start :
    (Background.start : Background Waker).Kept attempt numThreads [] :=
  ⟨polled_new, ⟨[], .nil⟩, by simp [start, Mining.start], by simp [futureSteps, works],
    by simp [futureSteps, answers]⟩

theorem Background.kept_of_run {steps : List (BackgroundStep Waker)} {state : Background Waker}
    (run : Run (Background.Step attempt numThreads) .start steps state) : state.Kept attempt numThreads steps :=
  @Run.invariant _ _ _ _ _ _ (fun steps state => state.Kept attempt numThreads steps) kept_start
    (fun _ _ _ _ kept stepped => kept.after_step stepped) run

/-- While the thread works, the miner takes its steps. -/
theorem background_of_follow {state : Background Waker} {acts : List Act} {trace : List (Mining × Act)}
    {finish : Mining} (noCancel : .cancel ∉ acts) (working : state.future.thread = .working)
    (followed : state.mining.follow attempt numThreads acts = some (trace, finish)) :
    Run (Background.Step attempt numThreads) state (acts.map .mine) { state with mining := finish } := by
  induction acts generalizing state trace with
  | nil =>
      cases followed
      exact .nil
  | cons act acts ih =>
      simp only [Mining.follow, Option.bind_eq_bind, Option.bind_eq_some_iff, Prod.exists, Option.pure_def,
        Option.some.injEq, Prod.mk.injEq] at followed
      obtain ⟨after, stepped, rest, _, followed, _, rfl⟩ := followed
      rw [List.mem_cons, not_or] at noCancel
      refine .cons (.mine (Ne.symm noCancel.1) (fun _ => working) stepped) ?_
      exact @ih ⟨state.future, after⟩ _ noCancel.2 working followed

/-- `compute_async` of the multi-thread miner: however the executor polls and the threads
interleave, a poll that is ready has a mined event, so that the future has something to
unwrap, and no other poll is ready. -/
theorem computeAsync_mined {SecretKey : Type} (calls : KeyCalls SecretKey) (unsigned : UnsignedEvent)
    (difficulty : UInt8) (numThreads : Nat) {steps : List (BackgroundStep Waker)} {state : Background Waker}
    (run : Run (Background.Step (tryNonce calls unsigned difficulty) numThreads) .start steps state) :
    (answers (futureSteps steps)).length ≤ 1 ∧
    ∀ event ∈ answers (futureSteps steps), ∃ mined, event = some mined ∧ ∃ thread < numThreads, ∃ count,
      Mined calls unsigned difficulty mined (stride numThreads thread count) := by
  have kept := Background.kept_of_run run
  obtain ⟨once, handed, _⟩ := kept.polled.delivery.places
  refine ⟨handed.length_le.trans once, fun event member => ?_⟩
  obtain ⟨mined, rfl⟩ := kept.answered event member
  obtain ⟨trace, mines⟩ := kept.mines
  obtain ⟨thread, inside, count, found, _⟩ :=
    mined_of_returned mines (kept.worked _ (handed.subset member))
  exact ⟨mined, rfl, thread, inside, count, found⟩

/-- A note is mined while the first poll looks for the result. -/
def backgroundSteps : List (BackgroundStep Nat) :=
  .future (.poll 7) :: .future .spawn :: (findingSchedule ++ joiningSchedule).map .mine ++
    [.future (.work (some minedNote))] ++ [.future .store] ++ [.future (.answer (some (some minedNote)))]

theorem computeAsync_mined_note :
    (answers (futureSteps backgroundSteps)).length ≤ 1 ∧ ∃ thread < 2, ∃ count,
      Mined (plainCalls sampleSeal sampleNoteWithId) sampleNote 6 minedNote (stride 2 thread count) := by
  obtain ⟨trace, finish, followed, returned⟩ := follow_sample
  let future : PowFuture Nat := ⟨none, some 7, false, .working, .takingResult⟩
  have mining : Run (Background.Step sampleAttempt 2) ⟨future, .start⟩ _ ⟨future, finish⟩ :=
    background_of_follow (by decide) rfl followed
  have worked : PowFuture.Step future (.work (some minedNote)) _ := .work (some minedNote) rfl
  have stored : PowFuture.Step { future with thread := .storing (some minedNote) } .store _ :=
    .store (some minedNote) rfl
  have answered : PowFuture.Step { future with result := some (some minedNote), thread := .takingWaker }
    (.answer (some (some minedNote))) _ := .answer rfl
  have spawned : PowFuture.Step { future with thread := .unspawned, poll := .spawning } .spawn future := .spawn rfl
  have polled : PowFuture.Step .new (.poll 7) { future with thread := .unspawned, poll := .spawning } :=
    .poll 7 rfl trivial
  have later := ((mining.snoc (.works returned worked)).snoc (.poll (by simp) stored)).snoc (.poll (by simp) answered)
  have whole : Run (Background.Step sampleAttempt 2) .start backgroundSteps _ :=
    .cons (.poll (by simp) polled) (.cons (.poll (by simp) spawned) later)
  have mined := computeAsync_mined (plainCalls sampleSeal sampleNoteWithId) sampleNote 6 2 whole
  obtain ⟨event, same, found⟩ := mined.2 (some minedNote) (by decide)
  cases same
  exact ⟨mined.1, found⟩

end RustNostr.Nip13
