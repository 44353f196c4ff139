import Mathlib
import RustNostr.NostrSdk.LocalRelay.Handle

/-!
# Several sessions at a time

The connections of one relay take steps in any order. Handling a text message
begins, consults the database, sends to the channel of new events and finishes
in steps of its own; a connection that handles a message receives nothing.
-/

set_option autoImplicit false

namespace RustNostr.NostrSdk.LocalRelay

open Library

inductive Progress where
  | started
  /-- The first question to the database has been asked. -/
  | consulted (surroundings : Surroundings)
  /-- The broadcasts have been sent. -/
  | announced (surroundings : Surroundings)

structure Handling where
  message : ClientMessage
  messageSize : Nat
  progress : Progress := .started

/-- A connection, the position of its receiver in the channel, and the message
that it handles. -/
structure Member (ν : Type) where
  connection : Connection ν := {}
  next : Nat
  handling : Option Handling := none

def Member.handles {ν : Type} (member : Member ν) (handling : Handling) : Member ν :=
  { member with handling := some handling }

/-- The events sent to the channel `new_event`, in order, and the connections. -/
structure Sessions (κ ν : Type) where
  newEvent : List Event := []
  members : κ → Option (Member ν) := fun _ => none

inductive Act where
  | begin (message : ClientMessage) (messageSize : Nat)
  | consult (surroundings : Surroundings)
  | announce
  | finish
  | receive
  | lag (skipped : Nat)
  /-- Frames that are answered at once, and the end of the connection. -/
  | frame (input : Input)

/-- What a step of the relay was, with what it sent to the client. -/
inductive SessionsLabel (κ : Type) where
  | connect (client : κ)
  | act (client : κ) (act : Act) (outputs : List Output)
  /-- `notify_event` of the relay's owner. -/
  | notifyEvent (event : Event)

/-- What the step sent to the client. -/
def SessionsLabel.outputs {κ : Type} [DecidableEq κ] (label : SessionsLabel κ) (client : κ) :
    List Output :=
  match label with
  | act other _ outputs => if other = client then outputs else []
  | _ => []

namespace Input

def IsFrame : Input → Prop
  | malformed | binary | control | tooManyMessages | shutdown => True
  | _ => False

end Input

namespace InnerLocalRelay

variable {κ ν : Type} (relay : InnerLocalRelay ν)

/-- One step of a connection, with what it sends to its client and to the
channel. The channel delivers in order or reports lag, and the receiver then
starts anew at its end. -/
inductive MemberStep (newEvent : List Event) (member : Member ν) :
    Act → List Output → List Event → Member ν → Prop where
  | begin {message : ClientMessage} {messageSize : Nat} :
      member.connection.isOpen = true → member.handling = none →
      MemberStep newEvent member (.begin message messageSize) [] []
        (member.handles { message, messageSize })
  | consult {message : ClientMessage} {messageSize : Nat} {surroundings : Surroundings} :
      member.handling = some { message, messageSize } →
      MemberStep newEvent member (.consult surroundings) [] []
        (member.handles { message, messageSize, progress := .consulted surroundings })
  | announce {message : ClientMessage} {messageSize : Nat} {surroundings : Surroundings} :
      member.handling = some { message, messageSize, progress := .consulted surroundings } →
      MemberStep newEvent member .announce []
        (relay.handleWebsocket member.connection (.text message messageSize surroundings)).broadcasts
        (member.handles { message, messageSize, progress := .announced surroundings })
  | finish {message : ClientMessage} {messageSize : Nat} {surroundings : Surroundings} :
      member.handling = some { message, messageSize, progress := .announced surroundings } →
      MemberStep newEvent member .finish
        (relay.handleWebsocket member.connection (.text message messageSize surroundings)).outputs []
        { member with
          connection := (relay.handleWebsocket member.connection
            (.text message messageSize surroundings)).connection
          handling := none }
  | receive {event : Event} : member.connection.isOpen = true → member.handling = none →
      newEvent[member.next]? = some event →
      MemberStep newEvent member .receive
        (relay.handleWebsocket member.connection (.live event)).outputs []
        { member with
          connection := (relay.handleWebsocket member.connection (.live event)).connection
          next := member.next + 1 }
  | lag {skipped : Nat} : member.connection.isOpen = true → member.handling = none →
      member.next < newEvent.length →
      MemberStep newEvent member (.lag skipped)
        (relay.handleWebsocket member.connection (.lagged skipped)).outputs []
        { member with
          connection := (relay.handleWebsocket member.connection (.lagged skipped)).connection
          next := newEvent.length }
  | frame {input : Input} : member.connection.isOpen = true → member.handling = none →
      input.IsFrame →
      MemberStep newEvent member (.frame input)
        (relay.handleWebsocket member.connection input).outputs []
        { member with connection := (relay.handleWebsocket member.connection input).connection }

variable [DecidableEq κ]

inductive SessionsStep (sessions : Sessions κ ν) : SessionsLabel κ → Sessions κ ν → Prop where
  | connect {client : κ} : sessions.members client = none →
      SessionsStep sessions (.connect client) { sessions with
        members := Function.update sessions.members client
          (some { next := sessions.newEvent.length }) }
  | act {client : κ} {member member' : Member ν} {act : Act} {outputs : List Output}
      {broadcasts : List Event} : sessions.members client = some member →
      relay.MemberStep sessions.newEvent member act outputs broadcasts member' →
      SessionsStep sessions (.act client act outputs)
        { newEvent := sessions.newEvent ++ broadcasts
          members := Function.update sessions.members client (some member') }
  | notifyEvent {event : Event} :
      SessionsStep sessions (.notifyEvent event)
        { sessions with newEvent := sessions.newEvent ++ [event] }

end InnerLocalRelay

section Runs

variable {κ ν : Type} [DecidableEq κ] {relay : InnerLocalRelay ν}
  {sessions sessions' : Sessions κ ν} {label : SessionsLabel κ} {labels : List (SessionsLabel κ)}

theorem newEvent_prefix_of_step (step : relay.SessionsStep sessions label sessions') :
    sessions.newEvent <+: sessions'.newEvent := by
  cases step with
  | connect => exact List.prefix_rfl
  | act => exact List.prefix_append _ _
  | notifyEvent => exact List.prefix_append _ _

theorem newEvent_prefix (run : Run relay.SessionsStep sessions labels sessions') :
    sessions.newEvent <+: sessions'.newEvent := by
  induction run with
  | nil => exact List.prefix_rfl
  | snoc _ step before => exact before.trans (newEvent_prefix_of_step step)

theorem of_update {members : κ → Option (Member ν)} {client other : κ}
    {member' member : Member ν}
    (found : Function.update members client (some member') other = some member) :
    other = client ∧ member' = member ∨ other ≠ client ∧ members other = some member := by
  by_cases same : other = client
  · subst same
    rw [Function.update_self] at found
    exact .inl ⟨rfl, Option.some.inj found⟩
  · rw [Function.update_of_ne same] at found
    exact .inr ⟨same, found⟩

/-- A step leaves a member alone or is its own. -/
theorem member_of_step {client : κ} {member : Member ν}
    (step : relay.SessionsStep sessions label sessions')
    (present : sessions.members client = some member) :
    sessions'.members client = some member ∨
      ∃ act outputs broadcasts member', label = .act client act outputs ∧
        relay.MemberStep sessions.newEvent member act outputs broadcasts member' ∧
        sessions'.members client = some member' := by
  cases step with
  | @connect connecting absent =>
      by_cases same : client = connecting
      · cases same
        cases present.symm.trans absent
      · exact .inl ((Function.update_of_ne same _ _).trans present)
  | @act acting member' _ act outputs broadcasts present' step =>
      by_cases same : client = acting
      · cases same
        cases Option.some.inj (present.symm.trans present')
        exact .inr ⟨act, outputs, broadcasts, _, rfl, step, Function.update_self _ _ _⟩
      · exact .inl ((Function.update_of_ne same _ _).trans present)
  | notifyEvent => exact .inl present

/-- A receiver is not ahead of its channel, and only open connections handle
messages. -/
structure Member.Valid (newEvent : List Event) (member : Member ν) : Prop where
  next_le : member.next ≤ newEvent.length
  isOpen : member.handling.isSome → member.connection.isOpen = true

theorem Member.Valid.grow {newEvent newEvent' : List Event} {member : Member ν}
    (valid : member.Valid newEvent) (grows : newEvent <+: newEvent') : member.Valid newEvent' :=
  ⟨valid.next_le.trans grows.length_le, valid.isOpen⟩

theorem Member.Valid.step {newEvent : List Event} {member member' : Member ν} {act : Act}
    {outputs : List Output} {broadcasts : List Event} (valid : member.Valid newEvent)
    (step : relay.MemberStep newEvent member act outputs broadcasts member') :
    member'.Valid (newEvent ++ broadcasts) := by
  refine @Member.Valid.grow _ newEvent _ _ ?_ (List.prefix_append _ _)
  cases step with
  | begin isOpen _ => exact ⟨valid.next_le, fun _ => isOpen⟩
  | consult handling => exact ⟨valid.next_le, fun _ => valid.isOpen (by rw [handling]; rfl)⟩
  | announce handling => exact ⟨valid.next_le, fun _ => valid.isOpen (by rw [handling]; rfl)⟩
  | finish => exact ⟨valid.next_le, nofun⟩
  | receive _ idle found =>
      have bound := (List.getElem?_eq_some_iff.mp found).1
      exact ⟨bound, fun handling => by simp [idle] at handling⟩
  | lag _ idle => exact ⟨Nat.le_refl _, fun handling => by simp [idle] at handling⟩
  | frame _ idle => exact ⟨valid.next_le, fun handling => by simp [idle] at handling⟩

/-- What holds of the members there are, of a member that connects and of any
member when the channel grows, and is kept by its own steps, holds of every
member. -/
theorem run_member (holds : List Event → Member ν → Prop)
    (initial : ∀ client member, sessions.members client = some member →
      holds sessions.newEvent member)
    (connects : ∀ newEvent, holds newEvent { next := newEvent.length })
    (grows : ∀ newEvent newEvent' member, newEvent <+: newEvent' → holds newEvent member →
      holds newEvent' member)
    (steps : ∀ newEvent member act outputs broadcasts member', holds newEvent member →
      relay.MemberStep newEvent member act outputs broadcasts member' →
      holds (newEvent ++ broadcasts) member')
    (run : Run relay.SessionsStep sessions labels sessions') :
    ∀ client member, sessions'.members client = some member → holds sessions'.newEvent member := by
  induction run with
  | nil => exact initial
  | snoc _ step before =>
      intro client member found
      cases step with
      | connect _ =>
          rcases of_update found with ⟨_, same⟩ | ⟨_, found⟩
          · exact same ▸ connects _
          · exact before client member found
      | act present step =>
          rcases of_update found with ⟨_, same⟩ | ⟨_, found⟩
          · exact same ▸ steps _ _ _ _ _ _ (before _ _ present) step
          · exact grows _ _ _ (List.prefix_append _ _) (before client member found)
      | notifyEvent => exact grows _ _ _ (List.prefix_append _ _) (before client member found)

def Sessions.Valid (sessions : Sessions κ ν) : Prop :=
  ∀ client member, sessions.members client = some member → member.Valid sessions.newEvent

theorem Sessions.Valid.run (valid : sessions.Valid)
    (run : Run relay.SessionsStep sessions labels sessions') : sessions'.Valid :=
  run_member (fun newEvent member => member.Valid newEvent) valid (fun _ => ⟨Nat.le_refl _, nofun⟩)
    (fun _ _ _ grows valid => valid.grow grows) (fun _ _ _ _ _ _ valid step => valid.step step) run

theorem turn_handleWebsocket {connection : Connection ν} (isOpen : connection.isOpen = true)
    (input : Input) :
    relay.Turn connection (input, (relay.handleWebsocket connection input).outputs)
      (relay.handleWebsocket connection input).connection :=
  ⟨isOpen, rfl, rfl⟩

/-- What one connection does among the others, it may do by itself. -/
theorem run_alone (run : Run relay.SessionsStep ({} : Sessions κ ν) labels sessions)
    {client : κ} {member : Member ν} (present : sessions.members client = some member) :
    ∃ history, Run relay.Turn {} history member.connection := by
  have whole := run_member (fun newEvent (member : Member ν) => member.Valid newEvent ∧
      ∃ history, Run relay.Turn {} history member.connection)
    (fun _ _ absurd => by cases absurd)
    (fun _ => ⟨⟨Nat.le_refl _, nofun⟩, [], .nil⟩)
    (fun _ _ _ grows holds => ⟨holds.1.grow grows, holds.2⟩) ?_ run client member present
  · exact whole.2
  · intro newEvent member act outputs broadcasts member' holds step
    obtain ⟨valid, history, run⟩ := holds
    refine ⟨valid.step step, ?_⟩
    cases step with
    | begin | consult | announce => exact ⟨history, run⟩
    | finish handling =>
        exact ⟨_, run.snoc (turn_handleWebsocket (valid.isOpen (by rw [handling]; rfl)) _)⟩
    | receive isOpen => exact ⟨_, run.snoc (turn_handleWebsocket isOpen _)⟩
    | lag isOpen => exact ⟨_, run.snoc (turn_handleWebsocket isOpen _)⟩
    | frame isOpen => exact ⟨_, run.snoc (turn_handleWebsocket isOpen _)⟩

end Runs

end RustNostr.NostrSdk.LocalRelay
