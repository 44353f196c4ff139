import Mathlib
import RustNostr.Library.Run
import RustNostr.NostrSdk.Relay.Subscription

/-!
# The connection of one relay

`ConnectionState` and the functions of `nostr-sdk/src/relay/inner.rs` that
change it under its lock. The connection task, the callers of `connect` and
`try_connect` and those who stop the relay interleave between these: whatever
the task awaits (the policy, the dial, the session, the closing WebSocket) may
take any time and end in any way.
-/

set_option autoImplicit false

namespace RustNostr.NostrSdk

open Library

inductive RelayStatus where
  | initialized
  | connecting
  | connected
  | disconnected
  | idle
  | banned
  | sleeping
  | shutdown
  deriving DecidableEq

namespace RelayStatus

def isConnected : RelayStatus → Bool
  | connected => true
  | _ => false

def isDisconnected : RelayStatus → Bool
  | disconnected => true
  | _ => false

def isBanned : RelayStatus → Bool
  | banned => true
  | _ => false

def isShutdown : RelayStatus → Bool
  | shutdown => true
  | _ => false

def isTerminal : RelayStatus → Bool
  | banned | shutdown => true
  | _ => false

/-- The statuses of a relay that has a connection or is after one. -/
def isPending : RelayStatus → Bool
  | connecting | connected | disconnected => true
  | _ => false

end RelayStatus

inductive RequestConnectionKind where
  | background
  | waitForResult (deadline : Nat)
  deriving DecidableEq

namespace RequestConnectionKind

def isBackground : RequestConnectionKind → Bool
  | background => true
  | waitForResult _ => false

/-- How long a dial may take that begins `now`. -/
def timeout (opts : RelayOptions) (now : Nat) : RequestConnectionKind → Nat
  | background => opts.connectTimeout
  | waitForResult deadline => deadline - now

end RequestConnectionKind

abbrev ConnectionResult := Except Error Unit

structure ConnectionAttempt where
  kind : RequestConnectionKind
  result : Option ConnectionResult
  /-- How often `result_ready` has notified its waiters. -/
  resultReady : Nat
  once : resultReady = if result.isSome then 1 else 0

namespace ConnectionAttempt

def new (kind : RequestConnectionKind) : ConnectionAttempt := ⟨kind, none, 0, rfl⟩

/-- The first result stays. -/
def finish (attempt : ConnectionAttempt) (result : ConnectionResult) : ConnectionAttempt :=
  if unset : attempt.result = none then
    { attempt with
      result := some result
      resultReady := attempt.resultReady + 1
      once := by simp [attempt.once, unset] }
  else attempt

end ConnectionAttempt

/-- What an `Arc<ConnectionAttempt>` points to: a place among all attempts made. -/
abbrev AttemptId := Nat

structure ConnectionState where
  status : RelayStatus := .initialized
  attempt : Option AttemptId := none
  deriving DecidableEq

/-- `RelayConnectionStats` -/
structure ConnectionStats where
  attempts : Nat := 0
  success : Nat := 0
  deriving DecidableEq

/-- The part of a relay that its connection is about, with the attempts made so
far and the statuses published so far. -/
structure InnerRelay where
  state : ConnectionState := {}
  stats : ConnectionStats := {}
  attempts : List ConnectionAttempt := []
  statuses : List RelayStatus := []

namespace Error

def banned : Error := stateMsg "relay banned"

def rejectedMsg (message : String) : Error := ⟨.rejected, message⟩

def connectionRejected : Option String → Error
  | some reason => ⟨.rejected, "connection rejected: reason=" ++ reason⟩
  | none => rejectedMsg "connection rejected"

end Error

namespace InnerRelay

variable (opts : RelayOptions) (relay : InnerRelay) (id : AttemptId)

/-- `ConnectionAttempt::is_current` -/
def IsCurrent : Prop := relay.state.attempt = some id

instance : Decidable (relay.IsCurrent id) :=
  inferInstanceAs (Decidable (relay.state.attempt = some id))

def setStatus (status : RelayStatus) : InnerRelay :=
  if relay.state.status = status then relay
  else
    { relay with
      state := { relay.state with status }
      statuses := relay.statuses ++ [status] }

def finish (result : ConnectionResult) : InnerRelay :=
  { relay with attempts := relay.attempts.modify id fun attempt => attempt.finish result }

/-- A new attempt takes the place of the current one. -/
def replaceAttempt (kind : RequestConnectionKind) : InnerRelay :=
  { relay with
    state := { relay.state with attempt := some relay.attempts.length }
    attempts := relay.attempts ++ [.new kind] }

def dropAttempt : InnerRelay :=
  { relay with state := { relay.state with attempt := none } }

/-- `RelayConnectionStats::new_attempt` -/
def newAttempt : InnerRelay :=
  { relay with stats := { relay.stats with attempts := relay.stats.attempts + 1 } }

/-- `RelayConnectionStats::new_success` -/
def newSuccess : InnerRelay :=
  { relay with stats := { relay.stats with success := relay.stats.success + 1 } }

def requestConnection (kind : RequestConnectionKind) :
    Except Error (Option AttemptId) × InnerRelay :=
  if relay.state.status.isBanned then (.error .banned, relay)
  else if relay.state.status.isShutdown then (.error .shutdown, relay)
  else if relay.state.status.isConnected then (.ok none, relay)
  else
    match relay.state.attempt with
    | some id => (.ok (some id), relay)
    | none =>
        (.ok (some relay.attempts.length), (relay.replaceAttempt kind).setStatus .connecting)

/-- What `next_connection` finds: nothing more to do, nothing yet, or an attempt. -/
inductive NextConnection where
  | stop
  | wait
  | attempt (id : AttemptId) (status : RelayStatus)

def nextConnection : NextConnection :=
  if relay.state.status.isTerminal then .stop
  else
    match relay.state.attempt with
    | some id => .attempt id relay.state.status
    | none => .wait

def beginConnection : Bool × InnerRelay :=
  if relay.IsCurrent id then (true, relay.setStatus .connecting) else (false, relay)

def beginDial : Bool × InnerRelay :=
  if relay.IsCurrent id then (true, relay.newAttempt) else (false, relay)

def acceptConnection : Bool × InnerRelay :=
  if relay.IsCurrent id then
    (true, (relay.newSuccess.setStatus .connected).finish id (.ok ()))
  else (false, relay)

/-- Whether a failed attempt ends the connecting. -/
def stops (error : Error) : Bool :=
  !((relay.attempts[id]?.map ConnectionAttempt.kind).any RequestConnectionKind.isBackground) ||
    decide (error.kind = .rejected) || !opts.reconnect

def connectionFailed (error : Error) : InnerRelay :=
  if relay.IsCurrent id then
    if relay.stops opts id error then
      ((relay.finish id (.error error)).dropAttempt).setStatus .idle
    else ((relay.finish id (.error error)).replaceAttempt .background).setStatus .disconnected
  else relay

def scheduleReconnect : InnerRelay :=
  if relay.IsCurrent id then
    if opts.reconnect then (relay.replaceAttempt .background).setStatus .disconnected
    else relay.dropAttempt.setStatus .idle
  else relay

/-- The end of `sleep_when_idle_monitor`, when the relay should sleep. -/
def fallAsleep : InnerRelay :=
  if relay.IsCurrent id then relay.dropAttempt.setStatus .sleeping else relay

def terminationError : RelayStatus → Error
  | .banned => .banned
  | .shutdown => .shutdown
  | _ => .rejectedMsg "received termination request"

def stopConnection (status : RelayStatus) : InnerRelay :=
  if relay.state.status.isTerminal ∨ relay.state.status = status then relay
  else
    (match relay.state.attempt with
      | some id => relay.dropAttempt.finish id (.error (terminationError status))
      | none => relay).setStatus status

def disconnect : InnerRelay := relay.stopConnection .idle

def ban : InnerRelay := relay.stopConnection .banned

def shutdown : InnerRelay := relay.stopConnection .shutdown

/-! ### What each function leaves alone -/

variable {relay} {id}

@[simp] theorem setStatus_status (status : RelayStatus) :
    (relay.setStatus status).state.status = status := by
  unfold setStatus
  split
  · assumption
  · rfl

@[simp] theorem setStatus_attempt (status : RelayStatus) :
    (relay.setStatus status).state.attempt = relay.state.attempt := by
  unfold setStatus
  split <;> rfl

@[simp] theorem setStatus_attempts (status : RelayStatus) :
    (relay.setStatus status).attempts = relay.attempts := by
  unfold setStatus
  split <;> rfl

@[simp] theorem finish_state (result : ConnectionResult) :
    (relay.finish id result).state = relay.state := rfl

@[simp] theorem dropAttempt_attempt : relay.dropAttempt.state.attempt = none := rfl

@[simp] theorem dropAttempt_attempts : relay.dropAttempt.attempts = relay.attempts := rfl

@[simp] theorem replaceAttempt_attempt (kind : RequestConnectionKind) :
    (relay.replaceAttempt kind).state.attempt = some relay.attempts.length := rfl

@[simp] theorem replaceAttempt_attempts (kind : RequestConnectionKind) :
    (relay.replaceAttempt kind).attempts = relay.attempts ++ [.new kind] := rfl

/-- Whether the attempt has its result. -/
def Settled (relay : InnerRelay) (id : AttemptId) : Prop :=
  ∃ attempt, relay.attempts[id]? = some attempt ∧ attempt.result.isSome = true

theorem Settled.allocated (settled : relay.Settled id) : id < relay.attempts.length := by
  obtain ⟨attempt, found, _⟩ := settled
  exact (List.getElem?_eq_some_iff.mp found).1

theorem finish_attempts_self {attempt : ConnectionAttempt} (result : ConnectionResult)
    (found : relay.attempts[id]? = some attempt) :
    (relay.finish id result).attempts[id]? = some (attempt.finish result) := by
  simp [finish, found]

theorem finish_attempts_ne {other : AttemptId} (result : ConnectionResult) (differs : id ≠ other) :
    (relay.finish id result).attempts[other]? = relay.attempts[other]? := by
  simp [finish, differs]

theorem finish_settled (result : ConnectionResult) (allocated : id < relay.attempts.length) :
    (relay.finish id result).Settled id := by
  refine ⟨_, finish_attempts_self result (List.getElem?_eq_getElem allocated), ?_⟩
  unfold ConnectionAttempt.finish
  split
  · rfl
  · next set => exact Option.isSome_iff_ne_none.mpr set

/-! ### The invariant and what every change keeps -/

/-- Status and attempt go together, and who waits for an attempt that is no
longer current finds its result. -/
structure Valid (relay : InnerRelay) : Prop where
  pending : relay.state.attempt.isSome = relay.state.status.isPending
  allocated : ∀ id, relay.IsCurrent id → id < relay.attempts.length
  settled : ∀ id, id < relay.attempts.length → ¬ relay.IsCurrent id → relay.Settled id

theorem Valid.status_pending (valid : relay.Valid) (current : relay.IsCurrent id) :
    relay.state.status.isPending = true := by
  rw [← valid.pending, current]
  rfl

theorem RelayStatus.not_terminal_of_pending {status : RelayStatus}
    (pending : status.isPending = true) : status.isTerminal = false := by
  cases status <;> first | rfl | cases pending

/-- What a change under the lock may do: a terminal status stays, a result
stays, and an attempt that is not current does not become so. -/
structure Advances (before after : InnerRelay) : Prop where
  terminal : before.state.status.isTerminal = true → after.state.status = before.state.status
  kept : ∀ (id : AttemptId) (attempt : ConnectionAttempt), before.attempts[id]? = some attempt →
    attempt.result.isSome = true → after.attempts[id]? = some attempt
  grown : before.attempts.length ≤ after.attempts.length
  stale : ∀ id, id < before.attempts.length → ¬ before.IsCurrent id → ¬ after.IsCurrent id

namespace Advances

variable {before middle after : InnerRelay}

theorem refl : Advances relay relay :=
  ⟨fun _ => rfl, fun _ _ found _ => found, Nat.le_refl _, fun _ _ stale => stale⟩

theorem trans (first : Advances before middle) (second : Advances middle after) :
    Advances before after where
  terminal := by
    intro terminal
    have same := first.terminal terminal
    rw [second.terminal (by rw [same]; exact terminal), same]
  kept := fun id attempt found set =>
    second.kept id attempt (first.kept id attempt found set) set
  grown := first.grown.trans second.grown
  stale := fun id allocated stale =>
    second.stale id (allocated.trans_le first.grown) (first.stale id allocated stale)

theorem settled (advances : Advances before after) (settled : before.Settled id) :
    after.Settled id := by
  obtain ⟨attempt, found, set⟩ := settled
  exact ⟨attempt, advances.kept id attempt found set, set⟩

end Advances

theorem finish_advances (result : ConnectionResult) : Advances relay (relay.finish id result) where
  terminal := fun _ => rfl
  kept := by
    intro other attempt found set
    by_cases same : id = other
    · subst same
      rw [finish_attempts_self result found]
      have left : attempt.finish result = attempt := by
        unfold ConnectionAttempt.finish
        rw [dif_neg (Option.isSome_iff_ne_none.mp set)]
      rw [left]
    · rw [finish_attempts_ne result same, found]
  grown := by simp [finish]
  stale := fun _ _ stale => stale

theorem finish_valid (valid : relay.Valid) (result : ConnectionResult) :
    (relay.finish id result).Valid where
  pending := valid.pending
  allocated := by
    intro other current
    simpa [finish] using valid.allocated other current
  settled := by
    intro other allocated stale
    have before : other < relay.attempts.length := by simpa [finish] using allocated
    exact (finish_advances result).settled (valid.settled other before stale)

/-- The status changes, and with it whether there is an attempt does not. -/
theorem setStatus_valid {status : RelayStatus} (valid : relay.Valid)
    (same : status.isPending = relay.state.attempt.isSome) : (relay.setStatus status).Valid where
  pending := by simp [same]
  allocated := by
    intro other current
    rw [IsCurrent, setStatus_attempt] at current
    simpa using valid.allocated other current
  settled := by
    intro other allocated stale
    rw [setStatus_attempts] at allocated
    rw [IsCurrent, setStatus_attempt] at stale
    unfold Settled
    rw [setStatus_attempts]
    exact valid.settled other allocated stale

theorem setStatus_advances (status : RelayStatus)
    (leaves : relay.state.status.isTerminal = false) :
    Advances relay (relay.setStatus status) where
  terminal := by simp [leaves]
  kept := fun _ _ found _ => by simpa using found
  grown := by simp
  stale := by simp [IsCurrent]

/-- The current attempt, where there is one, has its result. -/
def Resolved (relay : InnerRelay) : Prop := ∀ id, relay.IsCurrent id → relay.Settled id

theorem Valid.all_settled (valid : relay.Valid) (resolved : relay.Resolved)
    (allocated : id < relay.attempts.length) : relay.Settled id := by
  by_cases current : relay.IsCurrent id
  · exact resolved id current
  · exact valid.settled id allocated current

theorem drop_valid {status : RelayStatus} (valid : relay.Valid) (resolved : relay.Resolved)
    (leaves : status.isPending = false) : (relay.dropAttempt.setStatus status).Valid where
  pending := by simp [leaves]
  allocated := by simp [IsCurrent]
  settled := by
    intro other allocated _
    unfold Settled
    simp only [setStatus_attempts, dropAttempt_attempts] at allocated ⊢
    exact valid.all_settled resolved allocated

theorem drop_advances (status : RelayStatus) (leaves : relay.state.status.isTerminal = false) :
    Advances relay (relay.dropAttempt.setStatus status) where
  terminal := by simp [leaves]
  kept := fun _ _ found _ => by simpa using found
  grown := by simp
  stale := by simp [IsCurrent]

theorem replace_valid {status : RelayStatus} (kind : RequestConnectionKind) (valid : relay.Valid)
    (resolved : relay.Resolved) (pending : status.isPending = true) :
    ((relay.replaceAttempt kind).setStatus status).Valid where
  pending := by simp [pending]
  allocated := by simp [IsCurrent]
  settled := by
    intro other allocated stale
    have before : other < relay.attempts.length := by
      simp only [setStatus_attempts, replaceAttempt_attempts, List.length_append,
        List.length_singleton] at allocated
      simp only [IsCurrent, setStatus_attempt, replaceAttempt_attempt, Option.some.injEq] at stale
      omega
    obtain ⟨attempt, found, set⟩ := valid.all_settled resolved before
    refine ⟨attempt, ?_, set⟩
    simp [List.getElem?_append_left before, found]

theorem replace_advances (kind : RequestConnectionKind) (status : RelayStatus)
    (leaves : relay.state.status.isTerminal = false) :
    Advances relay ((relay.replaceAttempt kind).setStatus status) where
  terminal := by simp [leaves]
  kept := by
    intro other attempt found _
    have before := (List.getElem?_eq_some_iff.mp found).1
    simp [List.getElem?_append_left before, found]
  grown := by simp
  stale := by
    intro other before _
    simp only [IsCurrent, setStatus_attempt, replaceAttempt_attempt, Option.some.injEq]
    omega

/-! ### One lemma for each function -/

/-- A change under the lock that keeps the invariant. -/
structure Keeps (before after : InnerRelay) : Prop where
  valid : after.Valid
  advances : Advances before after

theorem Keeps.refl (valid : relay.Valid) : Keeps relay relay := ⟨valid, .refl⟩

theorem not_terminal_of_current (valid : relay.Valid) (current : relay.IsCurrent id) :
    relay.state.status.isTerminal = false :=
  RelayStatus.not_terminal_of_pending (valid.status_pending current)

theorem resolved_of_no_attempt (absent : relay.state.attempt = none) : relay.Resolved := by
  intro id current
  rw [IsCurrent, absent] at current
  cases current

theorem resolved_of_settled (current : relay.IsCurrent id) (settled : relay.Settled id) :
    relay.Resolved := by
  intro other other_current
  cases Option.some.inj (current.symm.trans other_current)
  exact settled

theorem nextConnection_attempt {status : RelayStatus}
    (found : relay.nextConnection = .attempt id status) : relay.IsCurrent id := by
  unfold nextConnection at found
  split at found
  · cases found
  · split at found
    next current =>
      cases found
      exact current
    next => cases found

theorem requestConnection_keeps (valid : relay.Valid) (kind : RequestConnectionKind) :
    Keeps relay (relay.requestConnection kind).2 := by
  unfold requestConnection
  split
  · exact .refl valid
  next operational =>
    split
    · exact .refl valid
    next running =>
      split
      · exact .refl valid
      · split
        · exact .refl valid
        next absent =>
          have leaves : relay.state.status.isTerminal = false := by
            cases status : relay.state.status <;>
              simp_all [RelayStatus.isBanned, RelayStatus.isShutdown, RelayStatus.isTerminal]
          exact ⟨replace_valid kind valid (resolved_of_no_attempt absent) rfl,
            replace_advances kind .connecting leaves⟩

theorem beginConnection_keeps (valid : relay.Valid) (id : AttemptId) :
    Keeps relay (relay.beginConnection id).2 := by
  unfold beginConnection
  split
  next current =>
    have present : relay.state.attempt.isSome = true := by
      rw [current]
      rfl
    exact ⟨setStatus_valid valid present.symm,
      setStatus_advances _ (not_terminal_of_current valid current)⟩
  next => exact .refl valid

theorem newAttempt_keeps (valid : relay.Valid) : Keeps relay relay.newAttempt :=
  ⟨⟨valid.pending, valid.allocated, valid.settled⟩,
    ⟨fun _ => rfl, fun _ _ found _ => found, Nat.le_refl _, fun _ _ stale => stale⟩⟩

theorem newSuccess_keeps (valid : relay.Valid) : Keeps relay relay.newSuccess :=
  ⟨⟨valid.pending, valid.allocated, valid.settled⟩,
    ⟨fun _ => rfl, fun _ _ found _ => found, Nat.le_refl _, fun _ _ stale => stale⟩⟩

theorem beginDial_keeps (valid : relay.Valid) (id : AttemptId) :
    Keeps relay (relay.beginDial id).2 := by
  unfold beginDial
  split
  · exact newAttempt_keeps valid
  · exact .refl valid

theorem acceptConnection_keeps (valid : relay.Valid) (id : AttemptId) :
    Keeps relay (relay.acceptConnection id).2 := by
  unfold acceptConnection
  split
  next current =>
    have present : relay.state.attempt.isSome = true := by
      rw [current]
      rfl
    have counted := newSuccess_keeps valid
    have published : Keeps relay.newSuccess (relay.newSuccess.setStatus .connected) :=
      ⟨setStatus_valid counted.valid present.symm,
        setStatus_advances _ (not_terminal_of_current counted.valid current)⟩
    exact ⟨finish_valid published.valid _,
      (counted.advances.trans published.advances).trans (finish_advances _)⟩
  next => exact .refl valid

theorem acceptConnection_accepted (accepted : (relay.acceptConnection id).1 = true) :
    relay.IsCurrent id := by
  unfold acceptConnection at accepted
  split at accepted
  · assumption
  · cases accepted

theorem acceptConnection_settled (valid : relay.Valid) (current : relay.IsCurrent id) :
    (relay.acceptConnection id).2.Settled id := by
  unfold acceptConnection
  rw [if_pos current]
  apply finish_settled
  rw [setStatus_attempts]
  exact valid.allocated id current

theorem connectionFailed_keeps (opts : RelayOptions) (valid : relay.Valid) (id : AttemptId)
    (error : Error) : Keeps relay (relay.connectionFailed opts id error) := by
  unfold connectionFailed
  split
  next current =>
    have finished : (relay.finish id (.error error)).Valid := finish_valid valid _
    have settled : (relay.finish id (.error error)).Settled id :=
      finish_settled _ (valid.allocated id current)
    have resolved : (relay.finish id (.error error)).Resolved := resolved_of_settled current settled
    have leaves : (relay.finish id (.error error)).state.status.isTerminal = false :=
      not_terminal_of_current finished current
    split
    · exact ⟨drop_valid finished resolved rfl,
        (finish_advances _).trans (drop_advances _ leaves)⟩
    · exact ⟨replace_valid _ finished resolved rfl,
        (finish_advances _).trans (replace_advances _ _ leaves)⟩
  next => exact .refl valid

theorem scheduleReconnect_keeps (opts : RelayOptions) (valid : relay.Valid)
    (settled : relay.Settled id) : Keeps relay (relay.scheduleReconnect opts id) := by
  unfold scheduleReconnect
  split
  next current =>
    have resolved := resolved_of_settled current settled
    have leaves := not_terminal_of_current valid current
    split
    · exact ⟨replace_valid _ valid resolved rfl, replace_advances _ _ leaves⟩
    · exact ⟨drop_valid valid resolved rfl, drop_advances _ leaves⟩
  next => exact .refl valid

theorem fallAsleep_keeps (valid : relay.Valid) (settled : relay.Settled id) :
    Keeps relay (relay.fallAsleep id) := by
  unfold fallAsleep
  split
  next current =>
    exact ⟨drop_valid valid (resolved_of_settled current settled) rfl,
      drop_advances _ (not_terminal_of_current valid current)⟩
  next => exact .refl valid

theorem stopConnection_keeps {status : RelayStatus} (valid : relay.Valid)
    (leaves : status.isPending = false) : Keeps relay (relay.stopConnection status) := by
  unfold stopConnection
  split
  next => exact .refl valid
  next goes =>
    have open_ : relay.state.status.isTerminal = false := by simp_all
    split
    next id current =>
      have finished : (relay.finish id (.error (terminationError status))).Valid :=
        finish_valid valid _
      have resolved : (relay.finish id (.error (terminationError status))).Resolved :=
        resolved_of_settled current (finish_settled _ (valid.allocated id current))
      exact ⟨drop_valid finished resolved leaves, (finish_advances _).trans (drop_advances _ open_)⟩
    next absent =>
      exact ⟨setStatus_valid valid (by simp [leaves, absent]), setStatus_advances _ open_⟩

end InnerRelay

end RustNostr.NostrSdk
