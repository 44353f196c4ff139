import Mathlib
import RustNostr.Library.Run
import RustNostr.NostrSdk.Relay.ConnectionTask

/-!
# What becomes of a background request

`connect` returns at once and leaves the rest to the connection task. Whether
the task goes on after a failed dial it asks of the kind of the attempt, and an
attempt is of the kind of the request it was made for, whoever joined it later.
-/

set_option autoImplicit false

namespace RustNostr.NostrSdk

open Library

namespace InnerRelay

/-- There is an attempt, or the relay sleeps until there is something to do. -/
def Pursues (relay : InnerRelay) : Prop :=
  relay.state.attempt.isSome = true ∨ relay.state.status = .sleeping

variable {opts : RelayOptions} {relay relay' : InnerRelay} {id : AttemptId}

theorem pursues_of_current (current : relay.IsCurrent id) : relay.Pursues := by
  refine .inl ?_
  rw [current]
  rfl

theorem requestConnection_pursues (pursues : relay.Pursues) (kind : RequestConnectionKind) :
    (relay.requestConnection kind).2.Pursues := by
  unfold requestConnection
  split
  · exact pursues
  · split
    · exact pursues
    · split
      · exact pursues
      · split
        · exact pursues
        · simp [Pursues]

/-- A request that is not refused has its attempt. -/
theorem requestConnection_ok_pursues (valid : relay.Valid) {kind : RequestConnectionKind}
    {attempt : Option AttemptId} (answers : (relay.requestConnection kind).1 = .ok attempt) :
    (relay.requestConnection kind).2.Pursues := by
  unfold requestConnection at answers ⊢
  split at answers
  · cases answers
  next operational =>
    split at answers
    · cases answers
    next running =>
      rw [if_neg operational, if_neg running]
      split
      next connected =>
        have pending : relay.state.status.isPending = true := by
          cases status : relay.state.status <;> simp_all [RelayStatus.isConnected,
            RelayStatus.isPending]
        exact .inl (valid.pending.trans pending)
      next =>
        split
        next id current => exact pursues_of_current current
        next => simp [Pursues]

/-- Whether the attempt was made for a caller of `try_connect`. -/
def IsForeground (relay : InnerRelay) (id : AttemptId) : Prop :=
  ((relay.attempts[id]?.map ConnectionAttempt.kind).any RequestConnectionKind.isBackground) = false

theorem stops_iff (reconnects : opts.reconnect = true) {error : Error} :
    relay.stops opts id error = true ↔ relay.IsForeground id ∨ error.kind = .rejected := by
  simp [stops, IsForeground, reconnects]

theorem connectionFailed_stopped {error : Error} (current : relay.IsCurrent id)
    (stops : relay.stops opts id error = true) :
    (relay.connectionFailed opts id error).state = ⟨.idle, none⟩ := by
  unfold connectionFailed
  rw [if_pos current, if_pos stops]
  have status := (relay.finish id (.error error)).dropAttempt.setStatus_status .idle
  have attempt := (relay.finish id (.error error)).dropAttempt.setStatus_attempt .idle
  generalize ((relay.finish id (.error error)).dropAttempt.setStatus .idle).state = state at *
  cases state
  simp_all

theorem connectionFailed_pursues (reconnects : opts.reconnect = true) {error : Error}
    (pursues : relay.Pursues) (retries : relay.IsCurrent id →
      ¬ relay.IsForeground id ∧ error.kind ≠ .rejected) :
    (relay.connectionFailed opts id error).Pursues := by
  unfold connectionFailed
  split
  next current =>
    have goes : ¬ relay.stops opts id error = true := by
      rw [stops_iff reconnects, not_or]
      exact retries current
    rw [if_neg goes]
    simp [Pursues]
  next => exact pursues

theorem taskStep_pursues (reconnects : opts.reconnect = true) {task task' : TaskPhase}
    (pursues : relay.Pursues)
    (retries : ∀ id error, task = .failed id error → relay.IsCurrent id →
      ¬ relay.IsForeground id ∧ error.kind ≠ .rejected)
    (step : TaskStep opts relay task relay' task') : relay'.Pursues := by
  cases step with
  | stop | choose | waited | superseded | timedOut | policyFailed | rejected | transportFailed
  | dialed | leave => exact pursues
  | begin =>
      unfold beginConnection
      split
      next current =>
        apply pursues_of_current
        rw [IsCurrent, setStatus_attempt]
        exact current
      next => exact pursues
  | allowed =>
      unfold beginDial
      split
      · exact pursues
      · exact pursues
  | accept =>
      unfold acceptConnection
      split
      next current =>
        apply pursues_of_current
        rw [IsCurrent, finish_state, setStatus_attempt]
        exact current
      next => exact pursues
  | fail => exact connectionFailed_pursues reconnects pursues (retries _ _ rfl)
  | fallAsleep =>
      unfold InnerRelay.fallAsleep
      split
      · simp [Pursues]
      · exact pursues
  | close =>
      unfold scheduleReconnect
      split
      · simp [Pursues]
      · exact pursues

end InnerRelay

/-- A step, with the state it is taken in. -/
abbrev Moment := ConnectionSystem × ConnectionAction

namespace Moment

/-- `request_connection(Background)` that returns `Ok`. -/
def RequestsBackground (moment : Moment) : Prop :=
  moment.2 = .request .background ∧
    ∃ attempt, (moment.1.relay.requestConnection .background).1 = .ok attempt

/-- `connection_failed` for the current attempt. -/
def Fails (moment : Moment) (id : AttemptId) (error : Error) : Prop :=
  moment.2 = .task ∧ moment.1.task = .failed id error ∧ moment.1.relay.IsCurrent id

def Excuses (moment : Moment) : Prop :=
  moment.2 ∈ [.disconnect, .ban, .shutdown] ∨
    ∃ id error, moment.Fails id error ∧ error.kind = .rejected

/-- The dial of an attempt made by `try_connect` fails, and no policy rejected it. -/
def GivesUp (moment : Moment) : Prop :=
  ∃ id error, moment.Fails id error ∧ error.kind ≠ .rejected ∧ moment.1.relay.IsForeground id

theorem GivesUp.not_excuses {moment : Moment} (gives_up : moment.GivesUp) : ¬ moment.Excuses := by
  obtain ⟨id, error, ⟨task, failed, _⟩, other, _⟩ := gives_up
  intro excuses
  cases excuses with
  | inl stopped => simp [task] at stopped
  | inr rejected =>
      obtain ⟨id', error', ⟨_, failed', _⟩, rejected⟩ := rejected
      cases failed.symm.trans failed'
      exact other rejected

theorem not_excuses_of_works {system : ConnectionSystem}
    (works : ∀ id error, system.task ≠ .failed id error) : ¬ Excuses (system, .task) := by
  intro excuses
  cases excuses with
  | inl stopped => simp at stopped
  | inr rejected =>
      obtain ⟨id, error, ⟨_, failed, _⟩, _⟩ := rejected
      exact works id error failed

end Moment

namespace ConnectionSystem

open InnerRelay (Pursues)

/-- A background request has returned `Ok`, and nothing has happened since that
excuses the relay from it. -/
def Outstanding (trace : List Moment) : Prop :=
  ∃ before request after, trace = before ++ request :: after ∧ request.RequestsBackground ∧
    ∀ moment ∈ after, ¬ moment.Excuses

def LeftIdle (system : ConnectionSystem) : Prop :=
  system.relay.state.status = .idle ∧ system.relay.state.attempt = none

/-- No background request is lost on the way. -/
def KeepsRequests (opts : RelayOptions) (trace : List Moment) : Prop :=
  ∀ seen rest system, trace = seen ++ rest →
    Run (Traced (ConnectionStep opts)) {} seen system → Outstanding seen → ¬ LeftIdle system

variable {opts : RelayOptions} {system system' : ConnectionSystem} {action : ConnectionAction}
  {trace seen rest : List Moment} {moment : Moment}

theorem Outstanding.of_request (trace : List Moment) (requests : moment.RequestsBackground) :
    Outstanding (trace ++ [moment]) :=
  ⟨trace, moment, [], rfl, requests, by simp⟩

theorem Outstanding.snoc (outstanding : Outstanding trace) (holds : ¬ moment.Excuses) :
    Outstanding (trace ++ [moment]) := by
  obtain ⟨before, request, after, rfl, requests, free⟩ := outstanding
  refine ⟨before, request, after ++ [moment], by simp, requests, ?_⟩
  intro other member
  cases List.mem_append.mp member with
  | inl earlier => exact free other earlier
  | inr here =>
      cases List.mem_singleton.mp here
      exact holds

theorem Outstanding.of_snoc (outstanding : Outstanding (trace ++ [moment])) :
    moment.RequestsBackground ∨ Outstanding trace ∧ ¬ moment.Excuses := by
  obtain ⟨before, request, after, split, requests, free⟩ := outstanding
  rcases List.eq_nil_or_concat after with rfl | ⟨earlier, last, rfl⟩
  · obtain ⟨_, same⟩ := List.append_inj' split rfl
    cases List.singleton_inj.mp same
    exact .inl requests
  · have split' : trace ++ [moment] = (before ++ request :: earlier) ++ [last] := by
      simpa using split
    obtain ⟨rfl, same⟩ := List.append_inj' split' rfl
    cases List.singleton_inj.mp same
    refine .inr ⟨⟨before, request, earlier, rfl, requests, ?_⟩, free _ (by simp)⟩
    intro other member
    exact free other (by simp [member])

theorem step_pursues (reconnects : opts.reconnect = true) (pursues : system.relay.Pursues)
    (holds : ¬ Moment.Excuses (system, action)) (retries : ¬ Moment.GivesUp (system, action))
    (step : ConnectionStep opts system action system') : system'.relay.Pursues := by
  cases step with
  | request kind => exact InnerRelay.requestConnection_pursues pursues kind
  | publishHandle | caller | abort => exact pursues
  | disconnect | ban | shutdown => exact absurd (.inl (by simp)) holds
  | task step =>
      apply InnerRelay.taskStep_pursues reconnects pursues _ step
      intro id error failed current
      have other : error.kind ≠ .rejected :=
        fun rejected => holds (.inr ⟨id, error, ⟨rfl, failed, current⟩, rejected⟩)
      exact ⟨fun foreground =>
        retries ⟨id, error, ⟨rfl, failed, current⟩, other, foreground⟩, other⟩

theorem request_pursues (valid : system.Valid)
    (requests : Moment.RequestsBackground (system, action))
    (step : ConnectionStep opts system action system') : system'.relay.Pursues := by
  obtain ⟨rfl, attempt, answers⟩ := requests
  cases step with
  | request => exact InnerRelay.requestConnection_ok_pursues valid.relay answers

/-- The step at which a request is lost, where one is outstanding. -/
theorem givesUp_leavesIdle (reconnects : opts.reconnect = true)
    (gives_up : Moment.GivesUp (system, action))
    (step : ConnectionStep opts system action system') : LeftIdle system' := by
  obtain ⟨id, error, ⟨rfl, failed, current⟩, _, foreground⟩ := gives_up
  cases step with
  | task step =>
      simp only at failed current foreground
      rw [failed] at step
      cases step with
      | fail =>
          have stopped :
              (system.relay.connectionFailed opts id error).state = ⟨.idle, none⟩ :=
            InnerRelay.connectionFailed_stopped current
              ((InnerRelay.stops_iff reconnects).mpr (.inl foreground))
          simp [LeftIdle, stopped]
      | superseded within => simp at within
      | timedOut within => simp at within

theorem run_pursues (reconnects : opts.reconnect = true)
    (run : Run (Traced (ConnectionStep opts)) {} trace system)
    (retries : ∀ seen moment rest, trace = seen ++ moment :: rest → Outstanding seen →
      ¬ moment.GivesUp) : Outstanding trace → system.relay.Pursues := by
  induction run with
  | nil =>
      intro outstanding
      obtain ⟨before, request, after, split, _⟩ := outstanding
      simp at split
  | @snoc earlier middle finish last before step ih =>
      intro outstanding
      obtain ⟨from_middle, step⟩ := step
      obtain ⟨state, action⟩ := last
      cases from_middle
      cases outstanding.of_snoc with
      | inl requests =>
          obtain ⟨actions, run⟩ := before.of_traced
          exact request_pursues (run_valid valid_new run).1 requests step
      | inr kept =>
          have earlier_retries : ∀ seen moment rest, earlier = seen ++ moment :: rest →
              Outstanding seen → ¬ moment.GivesUp := by
            intro seen moment rest split
            exact retries seen moment (rest ++ [(state, action)]) (by simp [split])
          exact step_pursues reconnects (ih earlier_retries kept.1) kept.2
            (retries _ _ [] rfl kept.1) step

theorem not_keepsRequests (reconnects : opts.reconnect = true)
    (run : Run (Traced (ConnectionStep opts)) {} (seen ++ moment :: rest) system)
    (outstanding : Outstanding seen) (gives_up : moment.GivesUp) :
    ¬ KeepsRequests opts (seen ++ moment :: rest) := by
  intro keeps
  have cut : seen ++ moment :: rest = (seen ++ [moment]) ++ rest := by simp
  rw [cut] at run
  obtain ⟨lost, run⟩ := run.split
  obtain ⟨middle, _, from_middle, step⟩ := run.last
  obtain ⟨state, action⟩ := moment
  cases from_middle
  exact keeps _ rest lost cut run (outstanding.snoc gives_up.not_excuses)
    (givesUp_leavesIdle reconnects gives_up step)

theorem run_keepsRequests_iff (reconnects : opts.reconnect = true)
    (run : Run (Traced (ConnectionStep opts)) {} trace system) :
    KeepsRequests opts trace ↔
      ∀ seen moment rest, trace = seen ++ moment :: rest → Outstanding seen →
        ¬ moment.GivesUp := by
  constructor
  · intro keeps seen moment rest split outstanding gives_up
    subst split
    exact not_keepsRequests reconnects run outstanding gives_up keeps
  · intro retries seen rest reached split run' outstanding left
    have earlier_retries : ∀ earlier moment later, seen = earlier ++ moment :: later →
        Outstanding earlier → ¬ moment.GivesUp := by
      intro earlier moment later split'
      exact retries earlier moment (later ++ rest) (by simp [split, split'])
    cases run_pursues reconnects run' earlier_retries outstanding with
    | inl present => simp [left.2] at present
    | inr sleeping => simp [left.1] at sleeping

/-- A request, and nothing more yet. -/
theorem run_keepsRequests_iff_request :
    let trace : List Moment := [({}, .request .background)]
    KeepsRequests {} trace ↔
      ∀ seen moment rest, trace = seen ++ moment :: rest → Outstanding seen → ¬ moment.GivesUp :=
  run_keepsRequests_iff rfl (Run.nil.snoc ⟨rfl, .request .background⟩)

/-! ### A request that joins an attempt of `try_connect` -/

/-- The first attempt, made for a caller of `try_connect`. -/
def firstAttempt (task : TaskPhase) (callers : List Caller) : ConnectionSystem :=
  { relay := (InnerRelay.requestConnection {} (.waitForResult 5)).2, task, callers }

/-- `connect` is called while the policy is asked, which then takes too long. -/
def joinedTrace : List Moment :=
  let waiting : Caller := ⟨.waitForResult 5, 0, .looking⟩
  [({}, .request (.waitForResult 5)),
    (firstAttempt .unspawned [⟨.waitForResult 5, 0, .spawning⟩], .caller),
    (firstAttempt .next [waiting], .task),
    (firstAttempt (.beginning 0) [waiting], .task),
    (firstAttempt (.checkingPolicy 0) [waiting], .request .background),
    (firstAttempt (.checkingPolicy 0) [waiting, ⟨.background, 0, .spawning⟩], .task),
    (firstAttempt (.failed 0 .timeout) [waiting, ⟨.background, 0, .spawning⟩], .task)]

theorem run_joinedTrace :
    ∃ system, Run (Traced (ConnectionStep {})) {} joinedTrace system := by
  have requested : ConnectionStep {} {} (.request (.waitForResult 5))
      (firstAttempt .unspawned [⟨.waitForResult 5, 0, .spawning⟩]) := .request _
  have spawned : ConnectionStep {} (firstAttempt .unspawned [⟨.waitForResult 5, 0, .spawning⟩])
      .caller (firstAttempt .next [⟨.waitForResult 5, 0, .looking⟩]) :=
    @ConnectionStep.publishHandle _ (firstAttempt _ _) [] [] ⟨.waitForResult 5, 0, .spawning⟩ rfl rfl
  have chosen : ∀ callers, ConnectionStep {} (firstAttempt .next callers) .task
      (firstAttempt (.beginning 0) callers) :=
    fun _ => .task (@TaskStep.choose _ _ 0 .connecting rfl)
  have begun : ∀ callers, ConnectionStep {} (firstAttempt (.beginning 0) callers) .task
      (firstAttempt (.checkingPolicy 0) callers) :=
    fun _ => .task (@TaskStep.begin _ _ 0 0)
  have joined : ∀ callers, ConnectionStep {} (firstAttempt (.checkingPolicy 0) callers)
      (.request .background)
      (firstAttempt (.checkingPolicy 0) (callers ++ [⟨.background, 0, .spawning⟩])) :=
    fun _ => .request _
  have timedOut : ∀ callers, ConnectionStep {} (firstAttempt (.checkingPolicy 0) callers) .task
      (firstAttempt (.failed 0 .timeout) callers) :=
    fun _ => .task (.timedOut (by simp [firstAttempt]))
  exact ⟨_, ((((((Run.nil.trace requested).trace spawned).trace (chosen _)).trace (begun _)).trace
    (joined _)).trace (timedOut _)).trace (.task .fail)⟩

/-- The request is lost with the attempt it has joined. -/
theorem joinedTrace_not_keepsRequests :
    ({} : RelayOptions).reconnect = true ∧ ¬ KeepsRequests {} joinedTrace := by
  obtain ⟨system, run⟩ := run_joinedTrace
  have outstanding : Outstanding (joinedTrace.take 6) := by
    have requests : Moment.RequestsBackground
        (firstAttempt (.checkingPolicy 0) [⟨.waitForResult 5, 0, .looking⟩],
          .request .background) := ⟨rfl, _, rfl⟩
    exact (Outstanding.of_request (joinedTrace.take 4) requests).snoc
      (Moment.not_excuses_of_works (by simp [firstAttempt]))
  have gives_up : Moment.GivesUp (firstAttempt (.failed 0 .timeout)
      [⟨.waitForResult 5, 0, .looking⟩, ⟨.background, 0, .spawning⟩], .task) :=
    ⟨0, .timeout, ⟨rfl, rfl, rfl⟩, by decide, rfl⟩
  exact ⟨rfl, not_keepsRequests rfl run outstanding gives_up⟩

end ConnectionSystem

end RustNostr.NostrSdk
