import Mathlib
import RustNostr.NostrSdk.Pool.StreamEvents

/-!
# Sending events and authenticating

`SendEvent` (`nostr-sdk/src/relay/api/send_event.rs`) and the authentication of one session
(`nostr-sdk/src/relay/inner.rs`): the frame handler, which queues the challenges of the relay
and tells the tasks of its messages, and the ingester, which answers the challenges. The tasks
hear of each other through the notifications of the relay, each from where it subscribed.

What sending a message, the policy and the authenticator answer is arbitrary, and any task may
be late: a receiver that has lost notifications, a closed channel and a timeout end the wait.
-/

set_option autoImplicit false

namespace RustNostr.NostrSdk

open Library

inductive EventSendStatus where
  | sent
  | ack (message : Option String)
  deriving DecidableEq

/-- `EventSendStatus::ack` -/
def EventSendStatus.ofMessage (message : String) : EventSendStatus :=
  .ack (if message = "" then none else some message)

/-- What `wait_for_ok` makes of a notification; `none` goes on waiting. -/
def okOf (id : EventId) : RelayNotification → Option (Except Error (Bool × String))
  | .message (.ok eventId status message) => if id = eventId then some (.ok (status, message)) else none
  | .relayStatus status => if status.isConnectionClosed then some (.error .notConnected) else none
  | _ => none

/-- What `wait_for_authentication` makes of a notification. -/
def authenticationOf : RelayNotification → Option (Except Error Unit)
  | .authenticated => some (.ok ())
  | .authenticationFailed => some (.error (.authenticationMsg "authentication failed"))
  | .relayStatus status => if status.isConnectionClosed then some (.error .notConnected) else none
  | _ => none

/-- A wait that gets no answer. -/
inductive Unheard : Error → Prop where
  | timeout : Unheard .timeout
  | lagged (skipped : Nat) : Unheard (.lagged skipped)
  | closed : Unheard .receiverClosed

/-! ## Sending an event -/

inductive SendPhase where
  | sending (again : Bool)
  | waitingOk (again : Bool)
  | waitingAuthentication
  | finished (result : Except Error EventSendStatus)

/-- A call of `send_event`, with how many notifications its receiver has passed. -/
structure SendEvent where
  event : Event
  waitForOk : Bool
  position : Nat
  phase : SendPhase

namespace SendEvent

/-- The message is queued. Without waiting, what `send` returns is an acknowledgement of no
message. -/
def queued (again : Bool) (task : SendEvent) : SendEvent :=
  { task with phase :=
      if task.waitForOk then .waitingOk again
      else .finished (.ok (if again then .ofMessage "" else .sent)) }

/-- The relay refused for want of an authentication, and there is an authenticator. -/
def authenticates (authenticator : Bool) (message : String) : Bool :=
  MachineReadablePrefix.parse message = some .authRequired && authenticator

def heard (authenticator : Bool) (notification : RelayNotification) (task : SendEvent) : SendEvent :=
  let task := { task with position := task.position + 1 }
  match task.phase with
  | .waitingOk again =>
      match okOf task.event.id notification with
      | none => task
      | some (.error error) => { task with phase := .finished (.error error) }
      | some (.ok (true, message)) => { task with phase := .finished (.ok (.ofMessage message)) }
      | some (.ok (false, message)) =>
          if !again && authenticates authenticator message then { task with phase := .waitingAuthentication }
          else { task with phase := .finished (.error (.relayMsg message)) }
  | .waitingAuthentication =>
      match authenticationOf notification with
      | none => task
      | some (.error error) => { task with phase := .finished (.error error) }
      | some (.ok ()) => { task with phase := .sending true }
  | _ => task

/-- The task waits for a notification. -/
def Waits (task : SendEvent) : Prop :=
  (∃ again, task.phase = .waitingOk again) ∨ task.phase = .waitingAuthentication

def fail (error : Error) (task : SendEvent) : SendEvent := { task with phase := .finished (.error error) }

end SendEvent

/-! ## Authenticating -/

/-- Where the ingester is with a challenge. -/
inductive Ingester where
  | waiting
  | admitting (challenge : String)
  | making (challenge : String)
  | sendingAuth (challenge : String) (event : Event) (position : Nat)
  | waitingOk (challenge : String) (event : Event) (position : Nat)
  | announcing (authenticated : Bool)

/-- What the code of one session refers to. -/
structure SessionCalls where
  externals : Externals
  url : RelayUrl
  /-- `is_authenticator_available` -/
  authenticator : Bool

structure Session where
  /-- What has been sent to the receivers of the notifications. -/
  log : List RelayNotification
  /-- The message that the frame handler has yet to tell of. -/
  handling : Option RelayMessage
  /-- The value of the watch channel, and whether the ingester has yet to see it. -/
  challenge : Option String
  changed : Bool
  ingester : Ingester
  sends : List SendEvent

def Session.start : Session := ⟨[], none, none, false, .waiting, []⟩

inductive SessionAct where
  | frame (message : RelayMessage)
  | notify (message : RelayMessage)
  | receive (subscriptionId : SubscriptionId) (event : Event)
  | status (status : RelayStatus)
  | take (challenge : String)
  | admitAuth
  | refuse
  | make (event : Event)
  | queueAuth (event : Event)
  | hearAuth (notification : RelayNotification)
  | giveUpAuth
  | announce (authenticated : Bool)
  | start (task : Nat) (event : Event) (waitForOk : Bool)
  | queue (task : Nat) (event : Event)
  | notQueued (task : Nat) (error : Error)
  | hear (task : Nat) (notification : RelayNotification)
  | giveUp (task : Nat) (error : Error)

namespace Session

/-- `queue_auth_challenge` for an AUTH message: the last challenge is the one that counts. -/
def receive (calls : SessionCalls) (session : Session) : RelayMessage → Session
  | .auth challenge =>
      if calls.authenticator then
        { session with handling := some (.auth challenge), challenge := some challenge, changed := true }
      else { session with handling := some (.auth challenge) }
  | message => { session with handling := some message }

/-- The notification of the outcome of an authentication. -/
def outcome : Bool → RelayNotification
  | true => .authenticated
  | false => .authenticationFailed

inductive Step (calls : SessionCalls) (session : Session) : SessionAct → Session → Prop where
  | frame (message : RelayMessage) (ready : session.handling = none) :
      Step calls session (.frame message) (session.receive calls message)
  | notify (message : RelayMessage) (handled : session.handling = some message) :
      Step calls session (.notify message)
        { session with handling := none, log := session.log ++ [.message message] }
  | receive (subscriptionId : SubscriptionId) (event : Event) :
      Step calls session (.receive subscriptionId event)
        { session with log := session.log ++ [.event subscriptionId event] }
  | status (status : RelayStatus) :
      Step calls session (.status status) { session with log := session.log ++ [.relayStatus status] }
  | take (challenge : String) (waiting : session.ingester = .waiting) (changed : session.changed = true)
      (newest : session.challenge = some challenge) :
      Step calls session (.take challenge) { session with changed := false, ingester := .admitting challenge }
  | admitAuth (challenge : String) (admitting : session.ingester = .admitting challenge) :
      Step calls session .admitAuth { session with ingester := .making challenge }
  /-- The policy, the authenticator, an invalid event or the channel to the relay is why. -/
  | refuse (refused : ∃ challenge, session.ingester = .admitting challenge ∨ session.ingester = .making challenge ∨
        ∃ event position, session.ingester = .sendingAuth challenge event position) :
      Step calls session .refuse { session with ingester := .announcing false }
  | make (challenge : String) (event : Event) (making : session.ingester = .making challenge)
      (authenticator : calls.authenticator = true)
      (valid : Nip42.isValidAuthEvent calls.externals event calls.url challenge = true) :
      Step calls session (.make event)
        { session with ingester := .sendingAuth challenge event session.log.length }
  | queueAuth (challenge : String) (event : Event) (position : Nat)
      (sending : session.ingester = .sendingAuth challenge event position) :
      Step calls session (.queueAuth event) { session with ingester := .waitingOk challenge event position }
  | hearAuth (challenge : String) (event : Event) (position : Nat) (notification : RelayNotification)
      (waiting : session.ingester = .waitingOk challenge event position)
      (next : session.log[position]? = some notification) :
      Step calls session (.hearAuth notification) { session with
        ingester := match okOf event.id notification with
          | none => .waitingOk challenge event (position + 1)
          | some (.ok (true, _)) => .announcing true
          | some (.ok (false, _)) | some (.error _) => .announcing false }
  | giveUpAuth (challenge : String) (event : Event) (position : Nat)
      (waiting : session.ingester = .waitingOk challenge event position) :
      Step calls session .giveUpAuth { session with ingester := .announcing false }
  | announce (authenticated : Bool) (announcing : session.ingester = .announcing authenticated) :
      Step calls session (.announce authenticated)
        { session with ingester := .waiting, log := session.log ++ [outcome authenticated] }
  | start (event : Event) (waitForOk : Bool) :
      Step calls session (.start session.sends.length event waitForOk)
        { session with sends := session.sends ++ [⟨event, waitForOk, session.log.length, .sending false⟩] }
  | queue (index : Nat) (task : SendEvent) (again : Bool) (here : session.sends[index]? = some task)
      (sending : task.phase = .sending again) :
      Step calls session (.queue index task.event)
        { session with sends := session.sends.set index (task.queued again) }
  | notQueued (index : Nat) (task : SendEvent) (again : Bool) (error : Error)
      (here : session.sends[index]? = some task) (sending : task.phase = .sending again) :
      Step calls session (.notQueued index error)
        { session with sends := session.sends.set index (task.fail error) }
  | hear (index : Nat) (task : SendEvent) (notification : RelayNotification)
      (here : session.sends[index]? = some task) (waits : task.Waits)
      (next : session.log[task.position]? = some notification) :
      Step calls session (.hear index notification)
        { session with sends := session.sends.set index (task.heard calls.authenticator notification) }
  | giveUp (index : Nat) (task : SendEvent) (error : Error) (here : session.sends[index]? = some task)
      (waits : task.Waits) (unheard : Unheard error) :
      Step calls session (.giveUp index error)
        { session with sends := session.sends.set index (task.fail error) }

end Session

/-! ## What a run shows -/

namespace SessionAct

/-- The notification that a step sends. -/
def notified : SessionAct → List RelayNotification
  | notify message => [.message message]
  | receive subscriptionId event => [.event subscriptionId event]
  | status given => [.relayStatus given]
  | announce authenticated => [Session.outcome authenticated]
  | _ => []

/-- The notification that a task hears in a step. -/
def heardBy (index : Nat) : SessionAct → List RelayNotification
  | hear task notification => if task = index then [notification] else []
  | _ => []

/-- The task queues its EVENT message. -/
def queues (index : Nat) : SessionAct → Bool
  | queue task _ => task = index
  | _ => false

end SessionAct

def notifiedIn (acts : List SessionAct) : List RelayNotification := acts.flatMap SessionAct.notified

def heardIn (index : Nat) (acts : List SessionAct) : List RelayNotification :=
  acts.flatMap (SessionAct.heardBy index)

/-- How often a task has queued its event. -/
def timesQueued (index : Nat) (acts : List SessionAct) : Nat := acts.countP (SessionAct.queues index)

section Snoc

variable {acts : List SessionAct} {act : SessionAct} {index : Nat}

@[simp] theorem notifiedIn_snoc : notifiedIn (acts ++ [act]) = notifiedIn acts ++ act.notified := by
  simp [notifiedIn]

@[simp] theorem heardIn_snoc : heardIn index (acts ++ [act]) = heardIn index acts ++ act.heardBy index := by
  simp [heardIn]

@[simp] theorem timesQueued_snoc :
    timesQueued index (acts ++ [act]) = timesQueued index acts + if act.queues index then 1 else 0 := by
  cases queues : act.queues index <;> simp [timesQueued, queues]

end Snoc

end RustNostr.NostrSdk
