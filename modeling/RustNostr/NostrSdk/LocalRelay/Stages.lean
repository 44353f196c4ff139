import Mathlib
import RustNostr.NostrSdk.LocalRelay.Handle

/-!
# Stages that only answer

Most stages of the handlers put out replies, broadcasts and challenges, and
leave the rest of the session alone. What such steps keep, these stages keep.
-/

set_option autoImplicit false

namespace RustNostr.NostrSdk.LocalRelay

open Library Transaction Handler

variable {ν α : Type}

namespace Conversation

/-- After a message that is not made from events. -/
def tell (conversation : Conversation ν) (message : RelayMessage) : Conversation ν :=
  { conversation with outputs := conversation.outputs ++ [{ message }] }

/-- After a fresh challenge. -/
def challenge (conversation : Conversation ν) (challenge : String) : Conversation ν :=
  { session := { conversation.session with
      nip42 := conversation.session.nip42.generateChallenge challenge }
    outputs := conversation.outputs ++ [{ message := .auth challenge }]
    broadcasts := conversation.broadcasts }

def broadcast (conversation : Conversation ν) (event : Event) : Conversation ν :=
  { conversation with broadcasts := conversation.broadcasts ++ [event] }

end Conversation

section Auth

variable {relay : InnerLocalRelay ν} {surroundings : Surroundings} {session : Session ν}

theorem handleAuth_limited (event : Event)
    (limited : surroundings.limited = true) :
    ((relay.handleAuth surroundings event).run { session }).2 =
      { session, outputs :=
        [{ message := InnerLocalRelay.okFalse event .rateLimited "too many authentication attempts" }] } := by
  unfold InnerLocalRelay.handleAuth
  rw [limited]
  rfl

theorem handleAuth_allowed (event : Event)
    (allowed : surroundings.limited = false) :
    ((relay.handleAuth surroundings event).run { session }).2 =
      { session := (relay.answerAuth surroundings session event).1
        outputs := [{ message := (relay.answerAuth surroundings session event).2 }] } := by
  unfold InnerLocalRelay.handleAuth
  rw [allowed]
  rfl

end Auth

/-- An invariant that no challenge and none of these messages breaks. -/
structure Replying (told : RelayMessage → Prop) (invariant : Conversation ν → Prop) : Prop where
  tell : ∀ conversation message, told message → invariant conversation →
    invariant (conversation.tell message)
  challenge : ∀ conversation challenge, invariant conversation →
    invariant (conversation.challenge challenge)

/-- One that no broadcast breaks either. -/
structure Quiet (told : RelayMessage → Prop) (invariant : Conversation ν → Prop) : Prop
    extends Replying told invariant where
  broadcast : ∀ conversation event, invariant conversation →
    invariant (conversation.broadcast event)

variable {told : RelayMessage → Prop} {invariant : Conversation ν → Prop}

/-- What comes after is judged from the state whose session it was given. -/
theorem getSession_bind_from {before : Conversation ν → Prop}
    {after : Except Exit α → Conversation ν → Prop} {next : Session ν → Handler ν α}
    (rest : ∀ conversation, before conversation →
      Triple (fun current => current = conversation) (next conversation.session) after) :
    Triple before (getSession >>= next) after :=
  fun conversation holds => rest conversation holds conversation rfl

theorem getSession_bind {next : Session ν → Handler ν α}
    (rest : ∀ session, Preserves invariant (next session)) :
    Preserves invariant (getSession >>= next) :=
  fun conversation holds => rest conversation.session conversation holds

theorem mapM_preserves {β : Type} {items : List β} {body : β → Handler ν α}
    (each : ∀ item ∈ items, Preserves invariant (body item)) :
    Preserves invariant (items.mapM body) := by
  have established : ∀ item ∈ items, Establishes invariant (body item) fun _ => True :=
    fun item member => Establishes.of_preserves (each item member) fun _ => trivial
  exact (Establishes.mapM established).preserves

theorem text_ne (machineReadablePrefix : MachineReadablePrefix) (message : String) :
    machineReadablePrefix.text message ≠ "" := by
  intro none
  have length := congrArg String.length none
  simp [MachineReadablePrefix.text] at length

theorem propagate_preserves (answer : Except Error α) :
    Preserves invariant (propagate answer : Handler ν α) := by
  cases answer with
  | ok value => exact Preserves.pure value
  | error error => exact Preserves.throw _

namespace Replying

variable (replying : Replying told invariant)

include replying

theorem send {message : RelayMessage} (tells : told message) :
    Preserves invariant (send message : Handler ν Unit) :=
  fun conversation holds => replying.tell conversation message tells holds

theorem reply {message : RelayMessage} (tells : told message) :
    Preserves invariant (reply message : Handler ν α) :=
  Preserves.bind (replying.send tells) fun _ => Preserves.throw _

theorem replyIf {condition : Bool} {message : RelayMessage} (tells : told message) :
    Preserves invariant (replyIf condition message : Handler ν Unit) :=
  Preserves.ite (replying.reply tells) (Preserves.pure ())

/-- What comes after a refusal may count on its condition. -/
theorem replyIf_establishes {condition : Bool} {message : RelayMessage} (tells : told message) :
    Establishes invariant (Handler.replyIf condition message : Handler ν Unit)
      fun _ => condition = false := by
  intro conversation holds
  cases condition with
  | false => exact ⟨holds, fun _ _ => rfl⟩
  | true => exact ⟨replying.reply tells conversation holds, fun _ returned => by cases returned⟩

theorem replyAfterIf {condition : Bool} {before : Handler ν Unit} {message : RelayMessage}
    (kept : Preserves invariant before) (tells : told message) :
    Preserves invariant (replyAfterIf condition before message) :=
  Preserves.ite (Preserves.bind kept fun _ => replying.reply tells) (Preserves.pure ())

theorem sendChallenge (surroundings : Surroundings) :
    Preserves invariant (sendChallenge surroundings : Handler ν Unit) :=
  fun conversation holds => replying.challenge conversation surroundings.challenge holds

variable (relay : InnerLocalRelay ν) (surroundings : Surroundings)

theorem checkReadAuth {refusal : String → RelayMessage} (tells : ∀ text, told (refusal text)) :
    Preserves invariant (relay.checkReadAuth surroundings refusal) := by
  apply getSession_bind
  intro session
  exact replying.replyAfterIf (replying.sendChallenge surroundings) (tells _)

/-! ## EVENT -/

section Event

variable {event : Event}

section Checks

variable (tells : ∀ status text, text ≠ "" → told (.ok event.id status text))

include tells

theorem checkMinPow : Preserves invariant (relay.checkMinPow event) := by
  unfold InnerLocalRelay.checkMinPow
  cases relay.minPow with
  | none => exact Preserves.pure ()
  | some difficulty => exact replying.replyIf (tells _ _ (text_ne _ _))

theorem checkEvent (messageSize : Nat) :
    Preserves invariant (relay.checkEvent surroundings event messageSize) := by
  unfold InnerLocalRelay.checkEvent
  apply Preserves.bind (replying.replyIf (tells _ _ (text_ne _ _)))
  intro _
  apply Preserves.bind (replying.replyIf (tells _ _ (text_ne _ _)))
  intro _
  apply Preserves.bind (replying.replyIf (tells _ _ (text_ne _ _)))
  intro _
  apply Preserves.bind (replying.replyIf (tells _ _ (text_ne _ _)))
  intro _
  apply Preserves.bind (replying.checkMinPow relay tells)
  intro _
  apply Preserves.bind (replying.replyIf (tells _ _ (text_ne _ _)))
  intro _
  apply Preserves.bind (replying.replyIf (tells _ _ (text_ne _ _)))
  intro _
  apply Preserves.bind (replying.replyIf (tells _ _ (text_ne _ _)))
  intro _
  exact replying.replyIf (tells _ _ (text_ne _ _))

theorem checkMode : Preserves invariant (relay.checkMode event) := by
  unfold InnerLocalRelay.checkMode
  cases relay.mode with
  | generic => exact Preserves.pure ()
  | publicKey owner => exact replying.replyIf (tells _ _ (text_ne _ _))

theorem checkWritePolicy : Preserves invariant (relay.checkWritePolicy event) := by
  unfold InnerLocalRelay.checkWritePolicy
  split
  · exact Preserves.pure ()
  · split
    · exact Preserves.pure ()
    · exact replying.reply (tells _ _ (text_ne _ _))

theorem authorizeEvent : Preserves invariant (relay.authorizeEvent surroundings event) := by
  unfold InnerLocalRelay.authorizeEvent
  apply getSession_bind
  intro session
  apply Preserves.bind (replying.replyAfterIf (replying.sendChallenge surroundings) (tells _ _ (text_ne _ _)))
  intro _
  apply Preserves.bind (replying.replyIf (tells _ _ (text_ne _ _)))
  intro _
  exact Preserves.bind (replying.checkMode relay tells) fun _ => replying.checkWritePolicy relay tells

theorem checkStatus (status : DatabaseEventStatus) :
    Preserves invariant (InnerLocalRelay.checkStatus event status : Handler ν Unit) := by
  cases status with
  | saved => exact replying.reply (tells _ _ (text_ne _ _))
  | deleted => exact replying.reply (tells _ _ (text_ne _ _))
  | notExistent => exact Preserves.pure ()

end Checks

end Event

/-! ## Filters -/

section Filters

variable {refusal : String → RelayMessage} (tells : ∀ text, told (refusal text))

include tells

theorem answerAccess_establishes (access : GiftWrapQueryAccess) :
    Establishes invariant
      (InnerLocalRelay.answerAccess surroundings refusal access : Handler ν Unit)
      fun _ => access = .allowed := by
  intro conversation holds
  cases access with
  | allowed => exact ⟨holds, fun _ _ => rfl⟩
  | authRequired =>
      have kept : Preserves invariant
          (InnerLocalRelay.answerAccess surroundings refusal .authRequired : Handler ν Unit) :=
        Preserves.bind (replying.sendChallenge surroundings) fun _ => replying.reply (tells _)
      exact ⟨kept conversation holds, fun _ returned => by cases returned⟩
  | forbidden => exact ⟨replying.reply (tells _) conversation holds, fun _ returned => by cases returned⟩

theorem authorizeFilters (filters : List Filter) :
    Preserves invariant (relay.authorizeFilters surroundings filters refusal) := by
  apply getSession_bind
  intro session
  exact (replying.answerAccess_establishes surroundings tells _).preserves

theorem admitQuery (filter : Filter) : Preserves invariant (relay.admitQuery filter refusal) := by
  unfold InnerLocalRelay.admitQuery
  split
  · exact Preserves.pure _
  · split
    · exact Preserves.pure _
    · exact replying.reply (tells _)

end Filters

theorem limitFilters {id : SubscriptionId} (tells : ∀ text, told (.closed id text))
    (filters : List Filter) : Preserves invariant (relay.limitFilters id filters) := by
  apply mapM_preserves
  intro filter _
  split
  · exact Preserves.pure _
  · exact replying.reply (tells _)

theorem admitReq {id : SubscriptionId} (tells : ∀ text, told (.closed id text))
    (filters : List Filter) (requestSize : Nat) :
    Preserves invariant (relay.admitReq surroundings id filters requestSize) := by
  unfold InnerLocalRelay.admitReq
  apply getSession_bind
  intro session
  apply Preserves.bind (replying.replyIf (tells _))
  intro _
  apply Preserves.bind (replying.replyIf (tells _))
  intro _
  apply Preserves.bind (replying.replyIf (tells _))
  intro _
  apply Preserves.bind (replying.replyIf (tells _))
  intro _
  apply Preserves.bind (replying.replyIf (tells _))
  intro _
  exact replying.checkReadAuth relay surroundings tells

theorem admitNegOpen {id : SubscriptionId} (tells : ∀ text, told (.negErr id text)) :
    Preserves invariant (relay.admitNegOpen surroundings id) := by
  unfold InnerLocalRelay.admitNegOpen
  apply getSession_bind
  intro session
  apply Preserves.bind (replying.replyIf (tells _))
  intro _
  apply Preserves.bind (replying.replyIf (tells _))
  intro _
  apply Preserves.bind (replying.replyIf (tells _))
  intro _
  exact replying.checkReadAuth relay surroundings tells

end Replying

namespace Quiet

variable (quiet : Quiet told invariant) (relay : InnerLocalRelay ν) (surroundings : Surroundings)
  {event : Event} (tells : ∀ status text, told (.ok event.id status text))

include quiet

theorem broadcasts (event : Event) :
    Preserves invariant (Handler.broadcast event : Handler ν Unit) :=
  fun conversation holds => quiet.broadcast conversation event holds

include tells

theorem storeEvent :
    Preserves invariant (InnerLocalRelay.storeEvent surroundings event : Handler ν Unit) := by
  unfold InnerLocalRelay.storeEvent
  apply Preserves.bind (propagate_preserves _)
  intro status
  apply Preserves.bind (quiet.checkStatus (fun _ _ _ => tells _ _) status)
  intro _
  apply Preserves.bind (quiet.replyAfterIf (quiet.broadcasts event) (tells _ _))
  intro _
  split
  · exact Preserves.bind (quiet.broadcasts event) fun _ => quiet.send (tells _ _)
  · exact quiet.send (tells _ _)
  · exact quiet.send (tells _ _)

theorem handleEvent (messageSize : Nat) :
    Preserves invariant (relay.handleEvent surroundings event messageSize) :=
  Preserves.bind (quiet.checkEvent relay surroundings (fun _ _ _ => tells _ _) messageSize) fun _ =>
    Preserves.bind (quiet.authorizeEvent relay surroundings fun _ _ _ => tells _ _) fun _ =>
      quiet.storeEvent surroundings tells

end Quiet

/-- A quiet invariant that looks at neither the reconciliations of the session
nor what a message was made from. -/
structure Reconciles (told : RelayMessage → Prop) (invariant : Conversation ν → Prop) : Prop
    extends Quiet told invariant where
  disclose : ∀ conversation message discloses, told message → invariant conversation →
    invariant { conversation with outputs := conversation.outputs ++ [{ message, discloses }] }
  reconciliations : ∀ conversation negentropySubscription, invariant conversation →
    invariant { conversation with
      session := { conversation.session with negentropySubscription } }

namespace Reconciles

variable (reconciles : Reconciles told invariant) (relay : InnerLocalRelay ν)
  (surroundings : Surroundings) {id : SubscriptionId}

include reconciles

theorem sendDisclosing {message : RelayMessage} {events : List Event} (tells : told message) :
    Preserves invariant (Handler.sendDisclosing message events : Handler ν Unit) :=
  fun conversation holds => reconciles.disclose conversation message events tells holds

theorem handleCount (closes : ∀ text, told (.closed id text)) (counts : ∀ n, told (.count id n))
    (filter : Filter) : Preserves invariant (relay.handleCount surroundings id filter) := by
  apply Preserves.bind (reconciles.replyIf (closes _))
  intro _
  apply Preserves.bind (reconciles.checkReadAuth relay surroundings closes)
  intro _
  apply Preserves.bind (reconciles.admitQuery relay closes filter)
  intro filter
  apply Preserves.bind (reconciles.authorizeFilters relay surroundings closes [filter])
  intro _
  apply Preserves.bind (propagate_preserves _)
  intro counted
  exact reconciles.sendDisclosing (counts counted.length)

variable (refuses : ∀ text, told (.negErr id text)) (answers : ∀ answer, told (.negMsg id answer))
  {abandon : Session ν → Session ν}
  (abandons : ∀ session, ∃ negentropySubscription,
    abandon session = { session with negentropySubscription })

include refuses

section Rounds

include abandons

theorem abandoned {conversation : Conversation ν} {text : String} (holds : invariant conversation) :
    invariant { conversation with
      session := abandon conversation.session
      outputs := conversation.outputs ++ [{ message := .negErr id text }] } := by
  obtain ⟨negentropySubscription, same⟩ := abandons conversation.session
  rw [same]
  exact reconciles.tell _ _ (refuses _)
    (reconciles.reconciliations _ negentropySubscription holds)

theorem decodeMessage {message : String} :
    Preserves invariant (relay.decodeMessage id message abandon) := by
  unfold InnerLocalRelay.decodeMessage
  split
  · exact Preserves.pure _
  · exact fun conversation holds => reconciles.abandoned refuses abandons holds

include answers

theorem reconcile {storage : List Event} {state : ν} {message : Bytes} :
    Preserves invariant (relay.reconcile id storage state message abandon) := by
  apply getSession_bind_from
  intro conversation holds
  split
  · rintro _ rfl
    exact reconciles.abandoned refuses abandons holds
  · rintro _ rfl
    exact reconciles.reconciliations _ _ (reconciles.disclose _ _ _ (answers _) holds)

end Rounds

include answers

theorem handleNegOpen (filter : Filter) (initialMessage : String) :
    Preserves invariant (relay.handleNegOpen surroundings id filter initialMessage) := by
  have keepsAll : ∀ session : Session ν, ∃ negentropySubscription,
      session = { session with negentropySubscription } := fun session => ⟨_, rfl⟩
  apply Preserves.bind (reconciles.admitNegOpen relay surroundings refuses)
  intro _
  apply Preserves.bind (reconciles.admitQuery relay refuses filter)
  intro filter
  apply Preserves.bind (reconciles.authorizeFilters relay surroundings refuses [filter])
  intro _
  apply Preserves.bind (reconciles.decodeMessage relay refuses keepsAll)
  intro bytes
  apply getSession_bind
  intro session
  apply Preserves.bind (propagate_preserves _)
  intro items
  apply Preserves.bind (reconciles.replyIf (refuses _))
  intro _
  apply Preserves.bind (propagate_preserves _)
  intro state
  exact reconciles.reconcile relay refuses answers keepsAll

theorem handleNegMsg (message : String) :
    Preserves invariant (relay.handleNegMsg surroundings id message) := by
  have removes : ∀ session : Session ν, ∃ negentropySubscription,
      InnerLocalRelay.removeNegentropy id session = { session with negentropySubscription } :=
    fun session => ⟨_, rfl⟩
  apply Preserves.bind (reconciles.replyIf (refuses _))
  intro _
  apply Preserves.bind (reconciles.decodeMessage relay refuses removes)
  intro bytes
  apply getSession_bind
  intro session
  split
  · exact reconciles.send (refuses _)
  · exact reconciles.reconcile relay refuses answers removes

end Reconciles

/-- A quiet invariant that looks at no more of the session than who has
authenticated, and at no more of the outputs than their messages. -/
structure Calm (told : RelayMessage → Prop) (invariant : Conversation ν → Prop) : Prop
    extends Quiet told invariant where
  disclose : ∀ conversation message discloses, told message → invariant conversation →
    invariant { conversation with outputs := conversation.outputs ++ [{ message, discloses }] }
  books : ∀ conversation session, session.nip42 = conversation.session.nip42 →
    invariant conversation → invariant { conversation with session }

namespace Calm

variable (calm : Calm told invariant)
  (tells : ∀ message, (∀ challenge, message ≠ .auth challenge) → told message)
  (relay : InnerLocalRelay ν) (surroundings : Surroundings) {id : SubscriptionId}

include calm

theorem reconciles : Reconciles told invariant where
  toQuiet := calm.toQuiet
  disclose := calm.disclose
  reconciliations conversation _ holds := calm.books conversation _ rfl holds

theorem changeSession (change : Session ν → Session ν)
    (same : ∀ session, (change session).nip42 = session.nip42) :
    Preserves invariant (do
      let session ← getSession
      setSession (change session) : Handler ν Unit) :=
  fun conversation holds => calm.books conversation _ (same conversation.session) holds

include tells

theorem handleReq (filters : List Filter) (requestSize : Nat) :
    Preserves invariant (relay.handleReq surroundings id filters requestSize) := by
  have closes : ∀ text, told (.closed id text) := fun text => tells _ nofun
  apply Preserves.bind (calm.admitReq relay surroundings closes filters requestSize)
  intro _
  apply Preserves.bind (mapM_preserves fun filter _ => calm.admitQuery relay closes filter)
  intro filters
  apply Preserves.bind (calm.authorizeFilters relay surroundings closes filters)
  intro _
  apply Preserves.bind (calm.limitFilters relay closes filters)
  intro filters
  apply Preserves.bind (propagate_preserves _)
  intro events
  apply Preserves.bind
    (Preserves.forM fun event _ => calm.reconciles.sendDisclosing (tells (.event id event) nofun))
  intro _
  apply Preserves.bind (calm.send (tells (.endOfStoredEvents id) nofun))
  intro _
  apply Preserves.ite (calm.send (tells (.closed id "") nofun))
  exact calm.changeSession (fun session => session.insertSubscription id filters requestSize)
    fun _ => rfl

/-- Every message but AUTH keeps a calm invariant. -/
theorem handleClientMsg {message : ClientMessage} {messageSize : Nat}
    (notAuth : ∀ event, message ≠ .auth event) :
    Preserves invariant (relay.handleClientMsg surroundings message messageSize) := by
  cases message with
  | event event =>
      exact calm.handleEvent relay surroundings (fun _ _ => tells _ nofun) messageSize
  | req id filters => exact calm.handleReq tells relay surroundings filters messageSize
  | count id filter =>
      exact calm.reconciles.handleCount relay surroundings (fun _ => tells _ nofun)
        (fun _ => tells _ nofun) filter
  | close id =>
      refine calm.changeSession (fun session => session.removeSubscription id) fun session => ?_
      unfold Session.removeSubscription
      split <;> rfl
  | auth event => exact absurd rfl (notAuth event)
  | negOpen id filter initialMessage =>
      exact calm.reconciles.handleNegOpen relay surroundings (fun _ => tells _ nofun)
        (fun _ => tells _ nofun) filter initialMessage
  | negMsg id message =>
      exact calm.reconciles.handleNegMsg relay surroundings (fun _ => tells _ nofun)
        (fun _ => tells _ nofun) message
  | negClose id => exact calm.changeSession (InnerLocalRelay.removeNegentropy id) fun _ => rfl

end Calm

end RustNostr.NostrSdk.LocalRelay
