import Mathlib
import RustNostr.Library.Run
import RustNostr.NostrSdk.Relay.Connection

/-!
# The connection task, its callers, and their runs

`connection_task`, `request_connection`, `try_connect` and `stop_connection` as
steps that each take the lock of the connection once at most. A notification
only wakes a task, which then looks at the state again: the steps after a wait
are there whenever what is waited for holds.
-/

set_option autoImplicit false

namespace RustNostr.NostrSdk

open Library

/-- Where the connection task is, with the attempt it works on. -/
inductive TaskPhase where
  | unspawned
  | next
  /-- Waits before it reconnects. -/
  | retrying (id : AttemptId)
  | beginning (id : AttemptId)
  | checkingPolicy (id : AttemptId)
  | dialing (id : AttemptId)
  | failed (id : AttemptId) (error : Error)
  | dialed (id : AttemptId)
  /-- In `post_connection`. -/
  | running (id : AttemptId)
  /-- The session is over and `schedule_reconnect` is still to come. -/
  | closing (id : AttemptId)
  | ended

namespace TaskPhase

def attempt : TaskPhase → Option AttemptId
  | retrying id | beginning id | checkingPolicy id | dialing id | failed id _ | dialed id
  | running id | closing id => some id
  | unspawned | next | ended => none

/-- The attempt whose session the task runs or closes. -/
def session : TaskPhase → Option AttemptId
  | running id | closing id => some id
  | _ => none

theorem attempt_of_session {task : TaskPhase} {id : AttemptId} (works : task.session = some id) :
    task.attempt = some id := by
  cases task <;> first | exact works | cases works

/-- `get_or_init` of the task's handle. -/
def spawned : TaskPhase → TaskPhase
  | unspawned => next
  | phase => phase

end TaskPhase

/-- What the task goes on with after `begin_connection`. -/
def afterBegin (opts : RelayOptions) (now : Nat) (relay : InnerRelay) (id : AttemptId) :
    TaskPhase :=
  if (relay.beginConnection id).1 then
    if (relay.attempts[id]?.map fun attempt => attempt.kind.timeout opts now) = some 0 then
      .failed id .timeout
    else .checkingPolicy id
  else .next

/-- The steps of the connection task. -/
inductive TaskStep (opts : RelayOptions) :
    InnerRelay → TaskPhase → InnerRelay → TaskPhase → Prop where
  | stop {relay : InnerRelay} :
      relay.nextConnection = .stop → TaskStep opts relay .next relay .ended
  | choose {relay : InnerRelay} {id : AttemptId} {status : RelayStatus} :
      relay.nextConnection = .attempt id status →
      TaskStep opts relay .next relay
        (if status.isDisconnected then .retrying id else .beginning id)
  | waited {relay : InnerRelay} {id : AttemptId} :
      TaskStep opts relay (.retrying id) relay (.beginning id)
  /-- `connection_changed` -/
  | superseded {relay : InnerRelay} {id : AttemptId} {phase : TaskPhase} :
      phase ∈ [.retrying id, .checkingPolicy id, .dialing id] → ¬ relay.IsCurrent id →
      TaskStep opts relay phase relay .next
  | begin {relay : InnerRelay} {id : AttemptId} (now : Nat) :
      TaskStep opts relay (.beginning id) (relay.beginConnection id).2
        (afterBegin opts now relay id)
  | timedOut {relay : InnerRelay} {id : AttemptId} {phase : TaskPhase} :
      phase ∈ [.checkingPolicy id, .dialing id] →
      TaskStep opts relay phase relay (.failed id .timeout)
  | policyFailed {relay : InnerRelay} {id : AttemptId} (error : Error) :
      TaskStep opts relay (.checkingPolicy id) relay (.failed id error)
  | rejected {relay : InnerRelay} {id : AttemptId} (reason : Option String) :
      TaskStep opts relay (.checkingPolicy id) relay (.failed id (.connectionRejected reason))
  | allowed {relay : InnerRelay} {id : AttemptId} :
      TaskStep opts relay (.checkingPolicy id) (relay.beginDial id).2
        (if (relay.beginDial id).1 then .dialing id
          else .failed id (.stateMsg "connection attempt superseded"))
  | transportFailed {relay : InnerRelay} {id : AttemptId} (message : String) :
      TaskStep opts relay (.dialing id) relay (.failed id ⟨.transport, message⟩)
  | dialed {relay : InnerRelay} {id : AttemptId} :
      TaskStep opts relay (.dialing id) relay (.dialed id)
  | accept {relay : InnerRelay} {id : AttemptId} :
      TaskStep opts relay (.dialed id) (relay.acceptConnection id).2
        (if (relay.acceptConnection id).1 then .running id else .next)
  | fail {relay : InnerRelay} {id : AttemptId} {error : Error} :
      TaskStep opts relay (.failed id error) (relay.connectionFailed opts id error) .next
  | fallAsleep {relay : InnerRelay} {id : AttemptId} :
      TaskStep opts relay (.running id) (relay.fallAsleep id) (.closing id)
  | leave {relay : InnerRelay} {id : AttemptId} :
      TaskStep opts relay (.running id) relay (.closing id)
  | close {relay : InnerRelay} {id : AttemptId} :
      TaskStep opts relay (.closing id) (relay.scheduleReconnect opts id) .next

/-- Where a caller is that `request_connection` gave an attempt. -/
inductive CallerPhase where
  /-- The task's handle is still to be published. -/
  | spawning
  /-- At the head of the loop of `wait_for_result`. -/
  | looking
  /-- Holds a `Notified` of the time `result_ready` had notified this often. -/
  | registered (ready : Nat)
  | asleep (ready : Nat)
  | returned (result : Option ConnectionResult)

structure Caller where
  kind : RequestConnectionKind
  attempt : AttemptId
  phase : CallerPhase

namespace Caller

/-- Whom an answer of `request_connection` leaves with an attempt. -/
def ofAnswer (kind : RequestConnectionKind) : Except Error (Option AttemptId) → List Caller
  | .ok (some attempt) => [⟨kind, attempt, .spawning⟩]
  | _ => []

def enter (caller : Caller) (phase : CallerPhase) : Caller := { caller with phase }

/-- How a caller leaves `request_connection`. -/
def published (caller : Caller) : Caller :=
  caller.enter (if caller.kind.isBackground then .returned none else .looking)

end Caller

/-- The steps of `wait_for_result` and of the timeout around it. -/
inductive CallerStep (relay : InnerRelay) (caller : Caller) : Caller → Prop where
  | register {attempt : ConnectionAttempt} :
      caller.phase = .looking → relay.attempts[caller.attempt]? = some attempt →
      CallerStep relay caller (caller.enter (.registered attempt.resultReady))
  | done {ready : Nat} {attempt : ConnectionAttempt} {result : ConnectionResult} :
      caller.phase = .registered ready → relay.attempts[caller.attempt]? = some attempt →
      attempt.result = some result →
      CallerStep relay caller (caller.enter (.returned (some result)))
  | wait {ready : Nat} {attempt : ConnectionAttempt} :
      caller.phase = .registered ready → relay.attempts[caller.attempt]? = some attempt →
      attempt.result = none → CallerStep relay caller (caller.enter (.asleep ready))
  | wake {ready : Nat} {attempt : ConnectionAttempt} :
      caller.phase = .asleep ready → relay.attempts[caller.attempt]? = some attempt →
      attempt.resultReady ≠ ready → CallerStep relay caller (caller.enter .looking)
  | giveUp :
      caller.phase ≠ .spawning → CallerStep relay caller (caller.enter (.returned none))

structure ConnectionSystem where
  relay : InnerRelay := {}
  task : TaskPhase := .unspawned
  callers : List Caller := []

/-- Whose step it is. -/
inductive ConnectionAction where
  | request (kind : RequestConnectionKind)
  | disconnect
  | ban
  | shutdown
  | abort
  | caller
  | task
  deriving DecidableEq

inductive ConnectionStep (opts : RelayOptions) :
    ConnectionSystem → ConnectionAction → ConnectionSystem → Prop where
  | request {system : ConnectionSystem} (kind : RequestConnectionKind) :
      ConnectionStep opts system (.request kind)
        { system with
          relay := (system.relay.requestConnection kind).2
          callers :=
            system.callers ++ Caller.ofAnswer kind (system.relay.requestConnection kind).1 }
  | publishHandle {system : ConnectionSystem} {before after : List Caller} {caller : Caller} :
      system.callers = before ++ caller :: after → caller.phase = .spawning →
      ConnectionStep opts system .caller
        { system with
          task := system.task.spawned
          callers := before ++ caller.published :: after }
  | caller {system : ConnectionSystem} {before after : List Caller} {caller caller' : Caller} :
      system.callers = before ++ caller :: after → CallerStep system.relay caller caller' →
      ConnectionStep opts system .caller { system with callers := before ++ caller' :: after }
  | disconnect {system : ConnectionSystem} :
      ConnectionStep opts system .disconnect { system with relay := system.relay.disconnect }
  | ban {system : ConnectionSystem} :
      ConnectionStep opts system .ban { system with relay := system.relay.ban }
  | shutdown {system : ConnectionSystem} :
      ConnectionStep opts system .shutdown { system with relay := system.relay.shutdown }
  /-- Both `stop_connection` and `request_connection` abort the task once they
  have seen a terminal status. -/
  | abort {system : ConnectionSystem} :
      system.relay.state.status.isTerminal = true → system.task ≠ .unspawned →
      ConnectionStep opts system .abort { system with task := .ended }
  | task {system : ConnectionSystem} {relay : InnerRelay} {task : TaskPhase} :
      TaskStep opts system.relay system.task relay task →
      ConnectionStep opts system .task { system with relay, task }

namespace InnerRelay

theorem stale_unchanged {opts : RelayOptions} {relay relay' : InnerRelay}
    {phase phase' : TaskPhase} {id : AttemptId} (works : phase.attempt = some id)
    (stale : ¬ relay.IsCurrent id) (step : TaskStep opts relay phase relay' phase') :
    relay' = relay := by
  cases step with
  | stop | choose | waited | superseded | timedOut | policyFailed | rejected | transportFailed
  | dialed | leave => rfl
  | begin =>
      cases works
      simp [beginConnection, stale]
  | allowed =>
      cases works
      simp [beginDial, stale]
  | accept =>
      cases works
      simp [acceptConnection, stale]
  | fail =>
      cases works
      simp [connectionFailed, stale]
  | fallAsleep =>
      cases works
      simp [InnerRelay.fallAsleep, stale]
  | close =>
      cases works
      simp [scheduleReconnect, stale]

/-- What the task knows of the attempt it works on. -/
structure KnownTo (relay : InnerRelay) (task : TaskPhase) : Prop where
  allocated : ∀ id, task.attempt = some id → id < relay.attempts.length
  session : ∀ id, task.session = some id → relay.Settled id

theorem KnownTo.of_none {relay : InnerRelay} {task : TaskPhase} (idle : task.attempt = none) :
    relay.KnownTo task where
  allocated := by simp [idle]
  session := by
    intro id works
    have impossible := TaskPhase.attempt_of_session works
    rw [idle] at impossible
    cases impossible

theorem KnownTo.advance {before after : InnerRelay} {task : TaskPhase}
    (known : before.KnownTo task) (advances : Advances before after) : after.KnownTo task where
  allocated := fun id works => (known.allocated id works).trans_le advances.grown
  session := fun id works => advances.settled (known.session id works)

/-- Without a session an attempt needs to exist, no more. -/
theorem KnownTo.of_allocated {relay : InnerRelay} {task : TaskPhase} {id : AttemptId}
    (works : task.attempt = some id) (no_session : task.session = none)
    (allocated : id < relay.attempts.length) : relay.KnownTo task where
  allocated := by
    intro other same
    cases Option.some.inj (works.symm.trans same)
    exact allocated
  session := by simp [no_session]

theorem KnownTo.of_settled {relay : InnerRelay} {task : TaskPhase} {id : AttemptId}
    (works : task.attempt = some id) (session : task.session = some id)
    (settled : relay.Settled id) : relay.KnownTo task where
  allocated := by
    intro other same
    cases Option.some.inj (works.symm.trans same)
    exact settled.allocated
  session := by
    intro other same
    cases Option.some.inj (session.symm.trans same)
    exact settled

theorem KnownTo.spawned {relay : InnerRelay} {task : TaskPhase} (known : relay.KnownTo task) :
    relay.KnownTo task.spawned := by
  cases task <;> first | exact known | exact .of_none rfl

theorem taskStep_keeps {opts : RelayOptions} {relay relay' : InnerRelay} {task task' : TaskPhase}
    (valid : relay.Valid) (known : relay.KnownTo task)
    (step : TaskStep opts relay task relay' task') :
    Keeps relay relay' ∧ relay'.KnownTo task' := by
  cases step with
  | stop => exact ⟨.refl valid, .of_none rfl⟩
  | choose found =>
      refine ⟨.refl valid, ?_⟩
      have current : relay.IsCurrent _ := nextConnection_attempt found
      split
      · exact .of_allocated rfl rfl (valid.allocated _ current)
      · exact .of_allocated rfl rfl (valid.allocated _ current)
  | waited => exact ⟨.refl valid, .of_allocated rfl rfl (known.allocated _ rfl)⟩
  | superseded => exact ⟨.refl valid, .of_none rfl⟩
  | @begin id now =>
      have kept := beginConnection_keeps valid id
      refine ⟨kept, ?_⟩
      have allocated := (known.advance kept.advances).allocated _ rfl
      unfold afterBegin
      split
      · split
        · exact .of_allocated rfl rfl allocated
        · exact .of_allocated rfl rfl allocated
      · exact .of_none rfl
  | timedOut within =>
      refine ⟨.refl valid, .of_allocated rfl rfl (known.allocated _ ?_)⟩
      simp only [List.mem_cons, List.not_mem_nil, or_false] at within
      rcases within with rfl | rfl <;> rfl
  | policyFailed => exact ⟨.refl valid, .of_allocated rfl rfl (known.allocated _ rfl)⟩
  | rejected => exact ⟨.refl valid, .of_allocated rfl rfl (known.allocated _ rfl)⟩
  | @allowed id =>
      have kept := beginDial_keeps valid id
      refine ⟨kept, ?_⟩
      have allocated := (known.advance kept.advances).allocated _ rfl
      split
      · exact .of_allocated rfl rfl allocated
      · exact .of_allocated rfl rfl allocated
  | transportFailed => exact ⟨.refl valid, .of_allocated rfl rfl (known.allocated _ rfl)⟩
  | dialed => exact ⟨.refl valid, .of_allocated rfl rfl (known.allocated _ rfl)⟩
  | accept =>
      refine ⟨acceptConnection_keeps valid _, ?_⟩
      split
      next accepted =>
        exact .of_settled rfl rfl
          (acceptConnection_settled valid (acceptConnection_accepted accepted))
      next => exact .of_none rfl
  | fail => exact ⟨connectionFailed_keeps opts valid _ _, .of_none rfl⟩
  | fallAsleep =>
      have kept := fallAsleep_keeps valid (known.session _ rfl)
      exact ⟨kept, .of_settled rfl rfl (kept.advances.settled (known.session _ rfl))⟩
  | leave => exact ⟨.refl valid, .of_settled rfl rfl (known.session _ rfl)⟩
  | close => exact ⟨scheduleReconnect_keeps opts valid (known.session _ rfl), .of_none rfl⟩

end InnerRelay

namespace Caller

/-- A caller that sleeps, or is about to, fell asleep before the attempt had a result. -/
structure Sound (relay : InnerRelay) (caller : Caller) : Prop where
  allocated : caller.attempt < relay.attempts.length
  registered : ∀ ready, caller.phase = .registered ready →
    ready = 0 ∨ relay.Settled caller.attempt
  asleep : ∀ ready, caller.phase = .asleep ready → ready = 0

variable {relay : InnerRelay} {caller caller' : Caller}

theorem Sound.advance {after : InnerRelay} (sound : caller.Sound relay)
    (advances : InnerRelay.Advances relay after) : caller.Sound after where
  allocated := sound.allocated.trans_le advances.grown
  registered := fun ready phase => (sound.registered ready phase).imp_right advances.settled
  asleep := sound.asleep

theorem Sound.enter {phase : CallerPhase} (sound : caller.Sound relay)
    (listens : ∀ ready, phase ≠ .registered ready) (awake : ∀ ready, phase ≠ .asleep ready) :
    (caller.enter phase).Sound relay where
  allocated := sound.allocated
  registered := fun ready same => absurd same (listens ready)
  asleep := fun ready same => absurd same (awake ready)

theorem Sound.step (sound : caller.Sound relay) (step : CallerStep relay caller caller') :
    caller'.Sound relay := by
  cases step with
  | @register attempt _ found =>
      refine { allocated := sound.allocated, registered := ?_, asleep := fun _ => nofun }
      intro ready same
      cases same
      cases result : attempt.result with
      | none => exact .inl (by simp [attempt.once, result])
      | some _ => exact .inr ⟨attempt, found, by simp [result]⟩
  | done => exact sound.enter (by simp) (by simp)
  | @wait ready attempt registered found unset =>
      refine { allocated := sound.allocated, registered := fun _ => nofun, asleep := ?_ }
      intro same_ready same
      cases same
      cases sound.registered ready registered with
      | inl zero => exact zero
      | inr settled =>
          obtain ⟨other, found', set⟩ := settled
          cases Option.some.inj (found.symm.trans found')
          simp [unset] at set
  | wake => exact sound.enter (by simp) (by simp)
  | giveUp => exact sound.enter (by simp) (by simp)

theorem ofAnswer_sound {kind : RequestConnectionKind} (valid : relay.Valid)
    (member : caller ∈ ofAnswer kind (relay.requestConnection kind).1) :
    caller.Sound (relay.requestConnection kind).2 := by
  unfold InnerRelay.requestConnection at member ⊢
  split at member
  · simp [ofAnswer] at member
  next operational =>
    split at member
    · simp [ofAnswer] at member
    next running =>
      split at member
      · simp [ofAnswer] at member
      next unconnected =>
        simp only [operational, running, unconnected]
        cases attempt : relay.state.attempt with
        | some id =>
            simp only [attempt, ofAnswer, List.mem_singleton] at member
            subst member
            exact ⟨valid.allocated id attempt, by simp, by simp⟩
        | none =>
            simp only [attempt, ofAnswer, List.mem_singleton] at member
            subst member
            exact ⟨by simp, by simp, by simp⟩

end Caller

namespace ConnectionSystem

open InnerRelay (Advances Keeps KnownTo)

/-- The invariant of the relay, its task and the callers who hold an attempt. -/
structure Valid (system : ConnectionSystem) : Prop where
  relay : system.relay.Valid
  task : system.relay.KnownTo system.task
  callers : ∀ caller ∈ system.callers, caller.Sound system.relay

variable {opts : RelayOptions} {system system' : ConnectionSystem} {action : ConnectionAction}

theorem valid_new : ({} : ConnectionSystem).Valid where
  relay := ⟨rfl, by simp [InnerRelay.IsCurrent], by simp⟩
  task := .of_none rfl
  callers := by simp

theorem Valid.callers_advance {after : InnerRelay} (valid : system.Valid)
    (advances : Advances system.relay after) : ∀ caller ∈ system.callers, caller.Sound after :=
  fun caller member => (valid.callers caller member).advance advances

/-- A step of the relay alone. -/
theorem Valid.of_keeps {after : InnerRelay} (valid : system.Valid)
    (kept : Keeps system.relay after) :
    ({ system with relay := after } : ConnectionSystem).Valid ∧ Advances system.relay after :=
  ⟨⟨kept.valid, valid.task.advance kept.advances, valid.callers_advance kept.advances⟩,
    kept.advances⟩

theorem Valid.replace_caller {before after : List Caller} {caller caller' : Caller}
    (valid : system.Valid) (found : system.callers = before ++ caller :: after)
    (sound : caller.Sound system.relay → caller'.Sound system.relay) :
    ∀ other ∈ before ++ caller' :: after, other.Sound system.relay := by
  have all : ∀ other ∈ before ++ caller :: after, other.Sound system.relay := by
    rw [← found]
    exact valid.callers
  intro other member
  cases List.mem_append.mp member with
  | inl earlier => exact all other (List.mem_append_left _ earlier)
  | inr here =>
      cases List.mem_cons.mp here with
      | inl same =>
          subst same
          exact sound (all caller (by simp))
      | inr later => exact all other (by simp [later])

theorem step_valid (valid : system.Valid) (step : ConnectionStep opts system action system') :
    system'.Valid ∧ Advances system.relay system'.relay := by
  cases step with
  | request kind =>
      have kept := InnerRelay.requestConnection_keeps valid.relay kind
      refine ⟨⟨kept.valid, valid.task.advance kept.advances, ?_⟩, kept.advances⟩
      intro caller member
      cases List.mem_append.mp member with
      | inl before => exact valid.callers_advance kept.advances caller before
      | inr new => exact Caller.ofAnswer_sound valid.relay new
  | publishHandle found spawning =>
      refine ⟨⟨valid.relay, valid.task.spawned, ?_⟩, .refl⟩
      apply valid.replace_caller found
      intro sound
      unfold Caller.published
      split
      · exact sound.enter (by simp) (by simp)
      · exact sound.enter (by simp) (by simp)
  | caller found step =>
      exact ⟨⟨valid.relay, valid.task, valid.replace_caller found fun sound => sound.step step⟩,
        .refl⟩
  | disconnect => exact valid.of_keeps (InnerRelay.stopConnection_keeps valid.relay rfl)
  | ban => exact valid.of_keeps (InnerRelay.stopConnection_keeps valid.relay rfl)
  | shutdown => exact valid.of_keeps (InnerRelay.stopConnection_keeps valid.relay rfl)
  | abort => exact ⟨⟨valid.relay, .of_none rfl, valid.callers⟩, .refl⟩
  | task step =>
      obtain ⟨kept, known⟩ := InnerRelay.taskStep_keeps valid.relay valid.task step
      exact ⟨⟨kept.valid, known, valid.callers_advance kept.advances⟩, kept.advances⟩

theorem run_valid {actions : List ConnectionAction} (valid : system.Valid)
    (run : Run (ConnectionStep opts) system actions system') :
    system'.Valid ∧ Advances system.relay system'.relay := by
  induction run with
  | nil => exact ⟨valid, .refl⟩
  | snoc _ step before =>
      obtain ⟨valid', advanced⟩ := step_valid before.1 step
      exact ⟨valid', before.2.trans advanced⟩

/-! ## The state machine of the connection -/

/-- Nothing leads out of Banned and Shutdown. -/
def StaysTerminal (opts : RelayOptions) (system : ConnectionSystem) : Prop :=
  system.relay.state.status.isTerminal = true →
    ∀ actions later, Run (ConnectionStep opts) system actions later →
      later.relay.state.status = system.relay.state.status

def AttemptWhilePending (system : ConnectionSystem) : Prop :=
  system.relay.state.attempt.isSome = true ↔
    system.relay.state.status ∈ [.connecting, .connected, .disconnected]

/-- From now on no step for an attempt that is not current changes the relay:
its status, what it has published, its counts, its attempts. -/
def StaleIsSilent (opts : RelayOptions) (system : ConnectionSystem) : Prop :=
  ∀ id, id < system.relay.attempts.length → ¬ system.relay.IsCurrent id →
    ∀ actions later, Run (ConnectionStep opts) system actions later →
      ∀ later', ConnectionStep opts later .task later' → later.task.attempt = some id →
        later'.relay = later.relay

/-- Each attempt that is not current has had its result set once, no result is
set again, and who sleeps and is not woken waits for the current attempt. -/
structure SettledOnce (opts : RelayOptions) (system : ConnectionSystem) : Prop where
  once : ∀ (id : AttemptId) (attempt : ConnectionAttempt),
    system.relay.attempts[id]? = some attempt → ¬ system.relay.IsCurrent id →
    attempt.result.isSome = true ∧ attempt.resultReady = 1
  final : ∀ (id : AttemptId) (attempt : ConnectionAttempt),
    system.relay.attempts[id]? = some attempt → attempt.result.isSome = true →
    ∀ actions later, Run (ConnectionStep opts) system actions later →
      later.relay.attempts[id]? = some attempt
  waits : ∀ caller ∈ system.callers, ∀ ready attempt, caller.phase = .asleep ready →
    system.relay.attempts[caller.attempt]? = some attempt → attempt.resultReady = ready →
    system.relay.IsCurrent caller.attempt

theorem Valid.staysTerminal (valid : system.Valid) : StaysTerminal opts system := by
  intro terminal actions later run
  exact (run_valid valid run).2.terminal terminal

theorem Valid.attemptWhilePending (valid : system.Valid) : AttemptWhilePending system := by
  unfold AttemptWhilePending
  rw [valid.relay.pending]
  cases system.relay.state.status <;> decide

theorem Valid.staleIsSilent (valid : system.Valid) : StaleIsSilent opts system := by
  intro id allocated stale actions later run later' step works
  have still := (run_valid valid run).2.stale id allocated stale
  cases step with
  | task step => exact InnerRelay.stale_unchanged works still step

theorem Valid.settledOnce (valid : system.Valid) : SettledOnce opts system where
  once := by
    intro id attempt found stale
    have allocated := (List.getElem?_eq_some_iff.mp found).1
    obtain ⟨other, found', set⟩ := valid.relay.settled id allocated stale
    cases Option.some.inj (found.symm.trans found')
    exact ⟨set, by simp [attempt.once, set]⟩
  final := by
    intro id attempt found set actions later run
    exact (run_valid valid run).2.kept id attempt found set
  waits := by
    intro caller member ready attempt asleep found unwoken
    by_contra stale
    have sound := valid.callers caller member
    obtain ⟨other, found', set⟩ := valid.relay.settled _ sound.allocated stale
    cases Option.some.inj (found.symm.trans found')
    have woken := attempt.once
    rw [unwoken, sound.asleep ready asleep, set] at woken
    simp at woken

theorem run_connection {actions : List ConnectionAction}
    (run : Run (ConnectionStep opts) {} actions system) :
    StaysTerminal opts system ∧ AttemptWhilePending system ∧ StaleIsSilent opts system ∧
      SettledOnce opts system := by
  have valid := (run_valid valid_new run).1
  exact ⟨valid.staysTerminal, valid.attemptWhilePending, valid.staleIsSilent, valid.settledOnce⟩

/-- A caller of `try_connect` waits, and the relay is banned. -/
theorem run_connection_banned :
    let requested := InnerRelay.requestConnection {} (.waitForResult 5)
    let system : ConnectionSystem :=
      { relay := requested.2.ban, callers := Caller.ofAnswer (.waitForResult 5) requested.1 }
    StaysTerminal {} system ∧ AttemptWhilePending system ∧ StaleIsSilent {} system ∧
      SettledOnce {} system :=
  run_connection ((Run.nil.snoc (.request (.waitForResult 5))).snoc .ban)

end ConnectionSystem

end RustNostr.NostrSdk
