import Mathlib
import RustNostr.Library.OnceDelivery
import RustNostr.NostrSdk.Pool.StreamEvents

/-!
# What a stream of events yields

No event twice, for a target that has ended exactly one outcome behind its events, and
every event that was not overtaken by a deadline.
-/

set_option autoImplicit false

namespace RustNostr.NostrSdk

open Library NostrGossip

def Activity.isEvent : Activity → Bool
  | receivedEvent _ => true
  | closed _ => false

/-- Events without an outcome. -/
def Unended (items : List RelayStreamEvent) : Prop := ∀ item ∈ items, item.isEvent = true

/-- Events, then one outcome. -/
def Ended (items : List RelayStreamEvent) : Prop :=
  ∃ events outcome, items = events ++ [outcome] ∧ Unended events ∧ outcome.isEvent = false

theorem AutoClosedReason.isEvent_outcome (reason : AutoClosedReason) : reason.outcome.isEvent = false := by
  cases reason <;> rfl

/-! ## The handler -/

/-- The handler works, or has a reason to report. -/
def HandlerPhase.isActive : HandlerPhase → Bool
  | listening | grace | sending .. | ended (some _) => true
  | unspawned | spawned | ended none | reporting _ | finished => false

namespace AutoCloseHandler

theorem listen_isActive (policy : ReqExitPolicy) (authenticator : Bool) (resent : Except String Unit)
    (notification : Notification) {handler : AutoCloseHandler} (active : handler.phase.isActive = true) :
    (handler.listen policy authenticator resent notification).phase.isActive = true := by
  cases notification with
  | event _ | authenticationFailed | connectionClosed => rfl
  | other => exact active
  | eose =>
      cases policy with
      | exitOnEose | waitDurationAfterEose _ => rfl
      | waitForEvents _ | waitForEventsAfterEose _ => exact active
  | closed message =>
      unfold listen
      dsimp only
      split
      next => split <;> first | exact active | rfl
      next => rfl
      next => rfl
  | authenticated =>
      unfold listen
      dsimp only
      split
      next =>
        cases resent with
        | ok _ => exact active
        | error _ => rfl
      next => exact active

theorem wait_isActive (notification : Notification) {handler : AutoCloseHandler}
    (active : handler.phase.isActive = true) : (handler.wait notification).phase.isActive = true := by
  cases notification with
  | event _ | connectionClosed => rfl
  | eose | authenticated | authenticationFailed | other => exact active
  | closed message =>
      unfold wait
      dsimp only
      split <;> rfl

/-- The exit policy goes on or has reached its limit. -/
theorem countEvent_phase (policy : ReqExitPolicy) (handler : AutoCloseHandler) :
    (handler.countEvent policy).phase ∈ [.listening, .grace, .ended (some .limitReached)] := by
  have goesOn : HandlerPhase.listening ∈
      [HandlerPhase.listening, .grace, .ended (some .limitReached)] := by decide
  have reached : HandlerPhase.ended (some .limitReached) ∈
      [HandlerPhase.listening, .grace, .ended (some .limitReached)] := by decide
  unfold countEvent
  cases policy with
  | exitOnEose | waitDurationAfterEose _ => exact goesOn
  | waitForEvents num =>
      dsimp only
      split
      next => exact reached
      next => exact goesOn
  | waitForEventsAfterEose num =>
      dsimp only
      split
      next =>
        split
        next => exact reached
        next => exact goesOn
      next => exact goesOn

theorem sent_phase (policy : ReqExitPolicy) (handler : AutoCloseHandler) (inGrace : Bool) :
    (handler.sent policy inGrace).phase ∈ [.listening, .grace, .ended (some .limitReached)] := by
  cases inGrace with
  | true =>
      have grace : HandlerPhase.grace ∈ [HandlerPhase.listening, .grace, .ended (some .limitReached)] := by
        decide
      exact grace
  | false => exact handler.countEvent_phase policy

theorem sent_isActive (policy : ReqExitPolicy) (handler : AutoCloseHandler) (inGrace : Bool) :
    (handler.sent policy inGrace).phase.isActive = true := by
  have each : ∀ phase ∈ [HandlerPhase.listening, .grace, .ended (some .limitReached)],
      phase.isActive = true := by decide
  exact each _ (handler.sent_phase policy inGrace)

end AutoCloseHandler

/-! ## One target -/

/-- The future polls the stream, or forwards an event. -/
def Forwarder.carriesEvents : Forwarder → Bool
  | polling | sending (.event _) false => true
  | _ => false

namespace Lane

/-- How far a target has come while its stream is still received; `passed` is what its
future has forwarded. -/
inductive Stage (lane : Lane) (passed : List RelayStreamEvent) : Prop where
  | connecting : lane = {} → passed = [] → Stage lane passed
  | running :
      lane.handler.phase.isActive = true → lane.done = false →
      (∀ activity ∈ lane.activity, activity.isEvent = true) →
      lane.forwarder.carriesEvents = true → Unended passed → Stage lane passed
  /-- The reason is on its way. -/
  | reported {events : List Activity} {reason : AutoClosedReason} :
      lane.handler.phase = .finished → lane.done = false → lane.activity = events ++ [.closed reason] →
      (∀ activity ∈ events, activity.isEvent = true) →
      lane.forwarder.carriesEvents = true → Unended passed → Stage lane passed
  | ending {item : RelayStreamEvent} {last : Bool} :
      lane.handler.phase ∈ [.finished, .unspawned] → lane.activity = [] →
      (last = false → lane.done = true) → lane.forwarder = .sending item last → item.isEvent = false →
      Unended passed → Stage lane passed
  | ended :
      lane.handler.phase ∈ [.finished, .unspawned] → lane.activity = [] →
      (lane.forwarder = .polling ∧ lane.done = true ∨ lane.forwarder = .finished) →
      Ended passed → Stage lane passed

variable {policy : ReqExitPolicy} {timeout : Option Nat} {lane lane' : Lane} {passed : List RelayStreamEvent}

theorem Stage.unended_or_ended (stage : lane.Stage passed) : Unended passed ∨ Ended passed := by
  cases stage with
  | connecting _ nothing =>
      refine .inl fun item member => ?_
      rw [nothing] at member
      cases member
  | running _ _ _ _ unended => exact .inl unended
  | reported _ _ _ _ _ unended => exact .inl unended
  | ending _ _ _ _ _ unended => exact .inl unended
  | ended _ _ _ ended => exact .inr ended

/-- Nothing is left to come of a target whose future has finished. -/
theorem Stage.idle_and_ended (stage : lane.Stage passed) (finished : lane.forwarder = .finished) :
    lane.handler.phase ∈ [.finished, .unspawned] ∧ Ended passed := by
  cases stage with
  | connecting initial _ =>
      rw [initial] at finished
      cases finished
  | running _ _ _ carries _ | reported _ _ _ _ carries _ =>
      rw [finished] at carries
      cases carries
  | ending _ _ _ sending _ _ =>
      rw [finished] at sending
      cases sending
  | ended idle _ _ ended => exact ⟨idle, ended⟩

/-- A handler that takes a step is spawned and has not finished. -/
theorem HandlerStep.not_idle {happening : Happening} (step : lane.HandlerStep policy timeout happening lane') :
    lane.handler.phase ∉ [.finished, .unspawned] := by
  intro idle
  have phases : lane.handler.phase = .finished ∨ lane.handler.phase = .unspawned := by simpa using idle
  cases phases with
  | inl phase => cases step <;> simp_all [HandlerPhase.isRunning]
  | inr phase => cases step <;> simp_all [HandlerPhase.isRunning]

theorem Stage.handlerStep {happening : Happening} (stage : lane.Stage passed)
    (step : lane.HandlerStep policy timeout happening lane') : lane'.Stage passed := by
  cases stage with
  | connecting initial _ => exact absurd (by rw [initial]; decide) step.not_idle
  | reported finished _ _ _ _ _ => exact absurd (by rw [finished]; decide) step.not_idle
  | ending idle _ _ _ _ _ => exact absurd idle step.not_idle
  | ended idle _ _ _ => exact absurd idle step.not_idle
  | running active going events carries unended =>
      have open_ : lane.forwarder ≠ .finished := by
        intro finished
        rw [finished] at carries
        cases carries
      cases step with
      | listen notification authenticator resent phase =>
          exact .running (AutoCloseHandler.listen_isActive _ _ _ _ active) going events carries unended
      | wait notification phase =>
          exact .running (AutoCloseHandler.wait_isActive _ active) going events carries unended
      | lagged skipped phase => exact .running rfl going events carries unended
      | receiverClosed phase => exact .running rfl going events carries unended
      | send phase alive room =>
          refine .running (AutoCloseHandler.sent_isActive _ _ _) going ?_ carries unended
          intro activity member
          cases List.mem_append.mp member with
          | inl earlier => exact events activity earlier
          | inr here =>
              cases List.mem_singleton.mp here
              rfl
      | sendFailed phase finished => exact absurd finished open_
      | timedOut given phase => exact .running rfl going events carries unended
      | graceOver phase => exact .running rfl going events carries unended
      | timedOutSending given phase full => exact .running rfl going events carries unended
      | graceOverSending phase full => exact .running rfl going events carries unended
      | cancel phase finished => exact absurd finished open_
      | report phase alive room => exact .reported rfl going rfl events carries unended
      | reportFailed phase failed =>
          cases failed with
          | inl noReason =>
              rw [phase, noReason] at active
              cases active
          | inr finished => exact absurd finished open_

theorem Stage.eq_empty (stage : lane.Stage passed) (connecting : lane.forwarder = .connecting) :
    lane = {} ∧ passed = [] := by
  cases stage with
  | connecting initial nothing => exact ⟨initial, nothing⟩
  | running _ _ _ carries _ | reported _ _ _ _ carries _ =>
      rw [connecting] at carries
      cases carries
  | ending _ _ _ sending _ _ =>
      rw [connecting] at sending
      cases sending
  | ended _ _ others _ =>
      cases others with
      | inl polling =>
          rw [connecting] at polling
          cases polling.1
      | inr finished =>
          rw [connecting] at finished
          cases finished

theorem Stage.subscribed (stage : lane.Stage passed) (connecting : lane.forwarder = .connecting)
    (result : Except Error Unit) : (lane.subscribed result).Stage passed := by
  obtain ⟨initial, nothing⟩ := stage.eq_empty connecting
  have unended : Unended passed := by
    rw [nothing]
    exact fun _ member => by cases member
  rw [initial]
  cases result with
  | ok _ => exact .running rfl rfl (fun _ member => by cases member) rfl unended
  | error error =>
      have idle : HandlerPhase.unspawned ∈ [HandlerPhase.finished, .unspawned] := by decide
      exact .ending idle rfl (fun more => by cases more) rfl rfl unended

/-- An event leaves the future polling or makes it forward the event. -/
theorem Stage.receive_event {ids : Finset EventId} {event : Event} (carries : lane.forwarder.carriesEvents = true)
    (each : ∀ forwarder : Forwarder, forwarder.carriesEvents = true → Stage { lane with forwarder } passed) :
    (lane.receive ids (some (.event event))).1.Stage passed := by
  unfold receive
  dsimp only
  split
  next => exact each lane.forwarder carries
  next => exact each (.sending (.event event) false) rfl

theorem Stage.receive_outcome {ids : Finset EventId} {reason : AutoClosedReason}
    (each : ∀ last, Stage { lane with forwarder := .sending reason.outcome last } passed) :
    (lane.receive ids (some reason.outcome)).1.Stage passed := by
  cases reason with
  | completed | limitReached => exact each true
  | _ => exact each false

theorem Stage.receive (stage : lane.Stage passed) (polling : lane.forwarder = .polling)
    {item : Option RelayStreamEvent} (polled : lane.pollNext = some (item, lane')) (ids : Finset EventId) :
    (lane'.receive ids item).1.Stage passed := by
  unfold pollNext at polled
  cases stage with
  | connecting initial _ =>
      rw [initial] at polling
      cases polling
  | ending _ _ _ sending _ _ =>
      rw [sending] at polling
      cases polling
  | running active going events carries unended =>
      rw [going, if_neg Bool.false_ne_true] at polled
      split at polled
      next event rest queued =>
        cases polled
        rw [queued] at events
        refine .receive_event carries fun forwarder carried => ?_
        exact .running active rfl (fun activity member => events activity (List.mem_cons_of_mem _ member))
          carried unended
      next reason rest queued =>
        rw [queued] at events
        cases events (.closed reason) List.mem_cons_self
      next nothing =>
        split at polled
        next finished =>
          rw [finished] at active
          cases active
        next => cases polled
  | @reported events reason finished going queued onlyEvents carries unended =>
      rw [going, if_neg Bool.false_ne_true] at polled
      cases events with
      | nil =>
          rw [queued] at polled
          cases polled
          refine .receive_outcome fun last => ?_
          exact .ending (List.mem_cons.mpr (.inl finished)) rfl (fun _ => rfl) rfl reason.isEvent_outcome unended
      | cons activity rest =>
          cases activity with
          | closed other => cases onlyEvents (.closed other) List.mem_cons_self
          | receivedEvent event =>
              rw [queued] at polled
              cases polled
              refine .receive_event carries fun forwarder carried => ?_
              exact .reported finished rfl rfl
                (fun activity member => onlyEvents activity (List.mem_cons_of_mem _ member)) carried unended
  | ended idle empty others ended =>
      have done : lane.done = true := by
        cases others with
        | inl polls => exact polls.2
        | inr finished =>
            rw [finished] at polling
            cases polling
      rw [done, if_pos rfl] at polled
      cases polled
      exact .ended idle empty (.inr rfl) ended

theorem Stage.forwarded (stage : lane.Stage passed) {item : RelayStreamEvent} {last : Bool}
    (sending : lane.forwarder = .sending item last) : (lane.forwarded last).Stage (passed ++ [item]) := by
  have carried (carries : lane.forwarder.carriesEvents = true) : item.isEvent = true ∧ last = false := by
    rw [sending] at carries
    cases item with
    | event _ =>
        cases last with
        | false => exact ⟨rfl, rfl⟩
        | true => cases carries
    | error _ | completed | limitReached => cases carries
  have more (carries : lane.forwarder.carriesEvents = true) (unended : Unended passed) :
      Unended (passed ++ [item]) := by
    intro given member
    cases List.mem_append.mp member with
    | inl earlier => exact unended given earlier
    | inr here =>
        cases List.mem_singleton.mp here
        exact (carried carries).1
  cases stage with
  | connecting initial _ =>
      rw [initial] at sending
      cases sending
  | running active going events carries unended =>
      rw [(carried carries).2]
      exact .running active going events rfl (more carries unended)
  | reported finished going queued onlyEvents carries unended =>
      rw [(carried carries).2]
      exact .reported finished going queued onlyEvents rfl (more carries unended)
  | ending idle empty done sending' outcome unended =>
      rw [sending] at sending'
      cases sending'
      refine .ended idle empty ?_ ⟨passed, item, rfl, unended, outcome⟩
      cases last with
      | false => exact .inl ⟨rfl, done rfl⟩
      | true => exact .inr rfl
  | ended _ _ others _ =>
      rw [sending] at others
      cases others with
      | inl polls => cases polls.1
      | inr finished => cases finished

/-! ## Events on their way -/

/-- The handler sends the event, or the stream is still to yield it. -/
def Holds (lane : Lane) (event : Event) : Prop :=
  .receivedEvent event ∈ lane.activity ∨ ∃ inGrace, lane.handler.phase = .sending event inGrace

theorem HandlerStep.forwarder_eq {happening : Happening} (step : lane.HandlerStep policy timeout happening lane') :
    lane'.forwarder = lane.forwarder := by
  cases step <;> rfl

theorem Stage.forwarder_ne (stage : lane.Stage passed) {happening : Happening}
    (step : lane.HandlerStep policy timeout happening lane') : lane.forwarder ≠ .finished := by
  intro finished
  exact step.not_idle (stage.idle_and_ended finished).1

theorem eq_event_of_ofNotification {notification : Notification} {event : Event}
    (delivers : Happening.ofNotification notification = .delivered event) : notification = .event event := by
  cases notification with
  | event given =>
      cases delivers
      rfl
  | eose | closed _ | authenticated | authenticationFailed | connectionClosed | other => cases delivers

theorem HandlerStep.holds_of_delivered {event : Event}
    (step : lane.HandlerStep policy timeout (.delivered event) lane') : lane'.Holds event := by
  generalize labelled : Happening.delivered event = happening at step
  cases step with
  | listen notification authenticator resent phase =>
      rw [eq_event_of_ofNotification labelled.symm]
      exact .inr ⟨false, rfl⟩
  | wait notification phase =>
      rw [eq_event_of_ofNotification labelled.symm]
      exact .inr ⟨true, rfl⟩
  | _ => cases labelled

/-- An event on its way stays on its way until a deadline overtakes it. -/
theorem HandlerStep.holds {happening : Happening} {event : Event}
    (step : lane.HandlerStep policy timeout happening lane') (alive : lane.forwarder ≠ .finished)
    (held : lane.Holds event) : lane'.Holds event ∨ happening = .overtaken event := by
  cases held with
  | inl queued =>
      refine .inl (.inl ?_)
      cases step with
      | send _ _ _ | report _ _ _ => exact List.mem_append_left _ queued
      | _ => exact queued
  | inr sends =>
      obtain ⟨inGrace, sending⟩ := sends
      cases step with
      | send phase _ _ =>
          rw [sending] at phase
          cases phase
          exact .inl (.inl (List.mem_append_right _ List.mem_cons_self))
      | sendFailed _ finished | cancel _ finished => exact absurd finished alive
      | timedOutSending _ phase _ | graceOverSending phase _ =>
          rw [sending] at phase
          cases phase
          exact .inr rfl
      | listen _ _ _ phase | wait _ phase | graceOver phase | report phase _ _ | reportFailed phase _ =>
          rw [sending] at phase
          cases phase
      | lagged _ phase | receiverClosed phase | timedOut _ phase =>
          rw [sending] at phase
          simp at phase

theorem subset_receive (lane : Lane) (ids : Finset EventId) (item : Option RelayStreamEvent) :
    ids ⊆ (lane.receive ids item).2 := by
  unfold receive
  split
  next => exact subset_rfl
  next =>
    split
    next => exact subset_rfl
    next => exact Finset.subset_insert _ _
  next => exact subset_rfl
  next => exact subset_rfl
  next => exact subset_rfl

theorem receive_fields (lane : Lane) (ids : Finset EventId) (item : Option RelayStreamEvent) :
    (lane.receive ids item).1.activity = lane.activity ∧ (lane.receive ids item).1.handler = lane.handler := by
  unfold receive
  split
  next => exact ⟨rfl, rfl⟩
  next => split <;> exact ⟨rfl, rfl⟩
  next => exact ⟨rfl, rfl⟩
  next => exact ⟨rfl, rfl⟩
  next => exact ⟨rfl, rfl⟩

theorem mem_receive_event (lane : Lane) (ids : Finset EventId) (event : Event) :
    event.id ∈ (lane.receive ids (some (.event event))).2 := by
  unfold receive
  dsimp only
  split
  next known => exact known
  next => exact Finset.mem_insert_self _ _

theorem pollNext_handler {item : Option RelayStreamEvent} (polled : lane.pollNext = some (item, lane')) :
    lane'.handler = lane.handler ∧ lane'.forwarder = lane.forwarder := by
  unfold pollNext at polled
  split at polled
  next =>
    cases polled
    exact ⟨rfl, rfl⟩
  next =>
    split at polled
    next =>
      cases polled
      exact ⟨rfl, rfl⟩
    next =>
      cases polled
      exact ⟨rfl, rfl⟩
    next =>
      split at polled
      next =>
        cases polled
        exact ⟨rfl, rfl⟩
      next => cases polled

theorem Holds.receive {event : Event} (held : lane.Holds event) {item : Option RelayStreamEvent}
    (polled : lane.pollNext = some (item, lane')) (ids : Finset EventId) :
    (lane'.receive ids item).1.Holds event ∨ event.id ∈ (lane'.receive ids item).2 := by
  obtain ⟨activity, handler⟩ := receive_fields lane' ids item
  unfold Holds
  rw [activity, handler, (pollNext_handler polled).1]
  cases held with
  | inr sends => exact .inl (.inr sends)
  | inl queued =>
      unfold pollNext at polled
      split at polled
      next =>
        cases polled
        exact .inl (.inl queued)
      next =>
        split at polled
        next first rest behind =>
          cases polled
          rw [behind] at queued
          cases List.mem_cons.mp queued with
          | inl same =>
              cases same
              exact .inr (mem_receive_event _ ids event)
          | inr later => exact .inl (.inl later)
        next reason rest behind =>
          cases polled
          rw [behind] at queued
          cases List.mem_cons.mp queued with
          | inl same => cases same
          | inr later => exact .inl (.inl later)
        next nothing =>
          rw [nothing] at queued
          cases queued

end Lane

/-! ## Items and their events -/

def RelayStreamEvent.eventId : RelayStreamEvent → Option EventId
  | event given => some given.id
  | error _ | completed | limitReached => none

/-- The event that the future is forwarding. -/
def Forwarder.carried : Forwarder → Option EventId
  | sending item _ => item.eventId
  | connecting | polling | finished => none

def eventIds (items : List (RelayUrl × RelayStreamEvent)) : List EventId :=
  items.filterMap fun item => item.2.eventId

def itemsOf (url : RelayUrl) (items : List (RelayUrl × RelayStreamEvent)) : List RelayStreamEvent :=
  (items.filter fun item => item.1 = url).map Prod.snd

theorem itemsOf_append (url : RelayUrl) (front back : List (RelayUrl × RelayStreamEvent)) :
    itemsOf url (front ++ back) = itemsOf url front ++ itemsOf url back := by
  simp [itemsOf]

theorem itemsOf_single (url : RelayUrl) (item : RelayStreamEvent) : itemsOf url [(url, item)] = [item] := by
  simp [itemsOf]

theorem itemsOf_other {url other : RelayUrl} (different : other ≠ url) (item : RelayStreamEvent) :
    itemsOf url [(other, item)] = [] := by
  simp [itemsOf, different]

theorem eventIds_append (front back : List (RelayUrl × RelayStreamEvent)) :
    eventIds (front ++ back) = eventIds front ++ eventIds back := List.filterMap_append

theorem unended_or_ended_append {front back : List RelayStreamEvent}
    (whole : Unended (front ++ back) ∨ Ended (front ++ back)) : Unended front ∨ Ended front := by
  cases whole with
  | inl unended => exact .inl fun item member => unended item (List.mem_append_left _ member)
  | inr ended =>
      obtain ⟨events, outcome, split, unended, isOutcome⟩ := ended
      cases back using List.reverseRecOn with
      | nil =>
          rw [List.append_nil] at split
          exact .inr ⟨events, outcome, split, unended, isOutcome⟩
      | append_singleton back last =>
          rw [← List.append_assoc] at split
          obtain ⟨same, _⟩ := List.append_inj' split rfl
          rw [← same] at unended
          exact .inl fun item member => unended item (List.mem_append_left _ member)

namespace EventStream

namespace Label

def yield : Label → Option (RelayUrl × RelayStreamEvent)
  | yielded url item => some (url, item)
  | lane _ _ | dropped | silent => none

/-- Neither the relays nor the receiver do anything but receive items. -/
def drains : Label → Bool
  | lane _ .silent | yielded _ _ | silent => true
  | lane _ (.delivered _) | lane _ (.overtaken _) | dropped => false

end Label

/-- The items that the stream yields, in order. -/
def yields (labels : List Label) : List (RelayUrl × RelayStreamEvent) := labels.filterMap Label.yield

theorem yields_concat (labels : List Label) (label : Label) :
    yields (labels ++ [label]) = yields labels ++ label.yield.toList := by
  unfold yields
  rw [List.filterMap_append]
  cases yields : label.yield with
  | none => simp [yields]
  | some _ => simp [yields]

@[simp] theorem lanes_setLane (stream : EventStream) (url : RelayUrl) (lane : Lane) :
    (stream.setLane url lane).lanes url = lane := Function.update_self _ _ _

theorem lanes_setLane_of_ne (stream : EventStream) {url other : RelayUrl} (different : other ≠ url) (lane : Lane) :
    (stream.setLane url lane).lanes other = stream.lanes other := Function.update_of_ne different _ _

/-! ## Each event once -/

/-- The events that the targets are forwarding. -/
def carried (stream : EventStream) (url : RelayUrl) : Option EventId := (stream.lanes url).forwarder.carried

theorem carried_setLane (stream : EventStream) (url : RelayUrl) (lane : Lane) :
    (stream.setLane url lane).carried = Function.update stream.carried url lane.forwarder.carried := by
  funext other
  unfold carried
  by_cases same : other = url
  · rw [same, lanes_setLane, Function.update_self]
  · rw [lanes_setLane_of_ne stream same, Function.update_of_ne same]

/-- The IDs that are known, against what has been sent. -/
abbrev Accounts (stream : EventStream) (sent : List (RelayUrl × RelayStreamEvent)) : Prop :=
  DeliveredOnce stream.ids stream.carried (eventIds sent)

variable {stream : EventStream} {sent : List (RelayUrl × RelayStreamEvent)} {url : RelayUrl} {lane : Lane}

theorem Accounts.setLane (accounts : stream.Accounts sent)
    (same : lane.forwarder.carried = stream.carried url) : (stream.setLane url lane).Accounts sent := by
  unfold Accounts
  rw [carried_setLane, same, Function.update_eq_self]
  exact accounts

theorem Accounts.receive (accounts : stream.Accounts sent) (free : stream.carried url = none)
    (polling : lane.forwarder = .polling) (item : Option RelayStreamEvent) :
    ({ stream.setLane url (lane.receive stream.ids item).1 with
      ids := (lane.receive stream.ids item).2 } : EventStream).Accounts sent := by
  have unchanged {lane' : Lane} (nothing : lane'.forwarder.carried = none) :
      ({ stream.setLane url lane' with ids := stream.ids } : EventStream).Accounts sent :=
    accounts.setLane (nothing.trans free.symm)
  cases item with
  | none => exact unchanged rfl
  | some item =>
      cases item with
      | error _ | completed | limitReached => exact unchanged rfl
      | event event =>
          unfold Lane.receive
          dsimp only
          split
          next =>
            refine unchanged ?_
            rw [polling]
            rfl
          next unknown =>
            have taken := accounts.take unknown free
            unfold Accounts
            change DeliveredOnce (insert event.id stream.ids) (stream.setLane url _).carried _
            rw [carried_setLane]
            exact taken

theorem Accounts.forward (accounts : stream.Accounts sent) {item : RelayStreamEvent} {last : Bool}
    {channel : List (RelayUrl × RelayStreamEvent)} (sending : (stream.lanes url).forwarder = .sending item last) :
    ({ stream.setLane url ((stream.lanes url).forwarded last) with channel } : EventStream).Accounts
      (sent ++ [(url, item)]) := by
  have carries : stream.carried url = item.eventId := by
    rw [carried, sending]
    rfl
  have free : ((stream.lanes url).forwarded last).forwarder.carried = none := by
    cases last <;> rfl
  have sends : eventIds [(url, item)] = item.eventId.toList := by
    cases given : item.eventId with
    | none => simp [eventIds, given]
    | some id => simp [eventIds, given]
  have passed := accounts.pass url
  rw [carries] at passed
  unfold Accounts
  change DeliveredOnce stream.ids (stream.setLane url _).carried _
  rw [carried_setLane, free, eventIds_append, sends]
  exact passed

/-! ## Every run -/

/-- While the stream is received: how far each target has come, what is known, and where
the events are that the relays have delivered. -/
structure Flowing (labels : List Label) (stream : EventStream) : Prop where
  received : stream.dropped = false
  stage : ∀ url, (stream.lanes url).Stage (itemsOf url (yields labels ++ stream.channel))
  accounts : stream.Accounts (yields labels ++ stream.channel)
  delivered : ∀ url event, .lane url (.delivered event) ∈ labels →
    (stream.lanes url).Holds event ∨ event.id ∈ stream.ids ∨ .lane url (.overtaken event) ∈ labels

/-- What holds of the items once the receiver is gone. -/
structure Gone (labels : List Label) (stream : EventStream) : Prop where
  dropped : stream.dropped = true
  channel : stream.channel = []
  nodup : (eventIds (yields labels)).Nodup
  items : ∀ url, Unended (itemsOf url (yields labels)) ∨ Ended (itemsOf url (yields labels))

def Consistent (labels : List Label) (stream : EventStream) : Prop :=
  Flowing labels stream ∨ Gone labels stream

theorem Flowing.start : Flowing [] {} where
  received := rfl
  stage _ := .connecting rfl rfl
  accounts := .empty
  delivered _ _ member := by cases member

theorem Flowing.nodup {labels : List Label} {stream : EventStream} (flowing : Flowing labels stream) :
    (eventIds (yields labels)).Nodup := by
  have whole := flowing.accounts.nodup
  rw [eventIds_append] at whole
  exact (List.nodup_append'.mp whole).1

theorem Flowing.items {labels : List Label} {stream : EventStream} (flowing : Flowing labels stream)
    (url : RelayUrl) : Unended (itemsOf url (yields labels)) ∨ Ended (itemsOf url (yields labels)) := by
  have whole := (flowing.stage url).unended_or_ended
  rw [itemsOf_append] at whole
  exact unended_or_ended_append whole

section Steps

variable {request : StreamRequest} {labels : List Label} {stream stream' : EventStream}

/-- A step of one target that sends nothing. -/
theorem Flowing.setLane (flowing : Flowing labels stream) {url : RelayUrl} {lane : Lane} {ids : Finset EventId}
    {label : Label} (silent : label.yield = none)
    (stage : ∀ passed, (stream.lanes url).Stage passed → lane.Stage passed) (known : stream.ids ⊆ ids)
    (accounts : ({ stream.setLane url lane with ids } : EventStream).Accounts (yields labels ++ stream.channel))
    (kept : ∀ event, (stream.lanes url).Holds event →
      lane.Holds event ∨ event.id ∈ ids ∨ label = .lane url (.overtaken event))
    (new : ∀ other event, label = .lane other (.delivered event) → other = url ∧ lane.Holds event) :
    Flowing (labels ++ [label]) { stream.setLane url lane with ids } := by
  have yielded : yields (labels ++ [label]) = yields labels := by
    rw [yields_concat, silent, Option.toList_none, List.append_nil]
  have here : ({ stream.setLane url lane with ids } : EventStream).lanes url = lane :=
    lanes_setLane stream url lane
  have others {other : RelayUrl} (different : other ≠ url) :
      ({ stream.setLane url lane with ids } : EventStream).lanes other = stream.lanes other :=
    lanes_setLane_of_ne stream different lane
  refine ⟨flowing.received, fun other => ?_, ?_, fun other event member => ?_⟩
  · rw [yielded]
    by_cases same : other = url
    · rw [same, here]
      exact stage _ (flowing.stage url)
    · rw [others same]
      exact flowing.stage other
  · rw [yielded]
    exact accounts
  · cases List.mem_append.mp member with
    | inr last =>
        obtain ⟨same, holds⟩ := new other event (List.mem_singleton.mp last).symm
        rw [same, here]
        exact .inl holds
    | inl earlier =>
        cases flowing.delivered other event earlier with
        | inr settled =>
            cases settled with
            | inl before => exact .inr (.inl (known before))
            | inr overtaken => exact .inr (.inr (List.mem_append_left _ overtaken))
        | inl holds =>
            by_cases same : other = url
            · subst same
              rw [here]
              cases kept event holds with
              | inl holds => exact .inl holds
              | inr settled =>
                  cases settled with
                  | inl taken => exact .inr (.inl taken)
                  | inr overtaken =>
                      rw [overtaken]
                      exact .inr (.inr (List.mem_append_right _ List.mem_cons_self))
            · rw [others same]
              exact .inl holds

theorem Flowing.forward (flowing : Flowing labels stream) {url : RelayUrl} {item : RelayStreamEvent} {last : Bool}
    (sending : (stream.lanes url).forwarder = .sending item last) :
    Flowing (labels ++ [.silent])
      { stream.setLane url ((stream.lanes url).forwarded last) with
        channel := stream.channel ++ [(url, item)] } := by
  have yielded : yields (labels ++ [.silent]) ++ (stream.channel ++ [(url, item)]) =
      yields labels ++ stream.channel ++ [(url, item)] := by
    rw [yields_concat, ← List.append_assoc]
    exact congrArg (fun front => front ++ stream.channel ++ [(url, item)]) (List.append_nil _)
  refine ⟨flowing.received, fun other => ?_, ?_, fun other event member => ?_⟩
  · change ((stream.setLane url ((stream.lanes url).forwarded last)).lanes other).Stage _
    rw [yielded, itemsOf_append]
    by_cases same : other = url
    · subst same
      rw [lanes_setLane, itemsOf_single]
      exact (flowing.stage other).forwarded sending
    · rw [lanes_setLane_of_ne stream same, itemsOf_other (Ne.symm same), List.append_nil]
      exact flowing.stage other
  · rw [yielded]
    exact flowing.accounts.forward sending
  · have earlier : .lane other (.delivered event) ∈ labels := by simpa using member
    change ((stream.setLane url ((stream.lanes url).forwarded last)).lanes other).Holds event ∨ _
    have fields : ((stream.setLane url ((stream.lanes url).forwarded last)).lanes other).Holds event ↔
        (stream.lanes other).Holds event := by
      by_cases same : other = url
      · subst same
        rw [lanes_setLane]
        exact Iff.rfl
      · rw [lanes_setLane_of_ne stream same]
    rw [fields]
    cases flowing.delivered other event earlier with
    | inl holds => exact .inl holds
    | inr settled =>
        cases settled with
        | inl known => exact .inr (.inl known)
        | inr overtaken => exact .inr (.inr (List.mem_append_left _ overtaken))

theorem Flowing.next (flowing : Flowing labels stream) {url : RelayUrl} {item : RelayStreamEvent}
    {rest : List (RelayUrl × RelayStreamEvent)} (first : stream.channel = (url, item) :: rest) :
    Flowing (labels ++ [.yielded url item]) { stream with channel := rest } := by
  have yielded : yields (labels ++ [.yielded url item]) ++ rest = yields labels ++ stream.channel := by
    rw [yields_concat, first, List.append_assoc]
    rfl
  refine ⟨flowing.received, fun other => ?_, ?_, fun other event member => ?_⟩
  · rw [yielded]
    exact flowing.stage other
  · rw [yielded]
    exact flowing.accounts
  · have earlier : .lane other (.delivered event) ∈ labels := by simpa using member
    cases flowing.delivered other event earlier with
    | inl holds => exact .inl holds
    | inr settled =>
        cases settled with
        | inl known => exact .inr (.inl known)
        | inr overtaken => exact .inr (.inr (List.mem_append_left _ overtaken))

theorem Flowing.drop (flowing : Flowing labels stream) :
    Gone (labels ++ [.dropped]) { stream with dropped := true, channel := [] } := by
  have yielded : yields (labels ++ [.dropped]) = yields labels := by
    rw [yields_concat]
    exact List.append_nil _
  refine ⟨rfl, rfl, ?_, fun url => ?_⟩
  · rw [yielded]
    exact flowing.nodup
  · rw [yielded]
    exact flowing.items url

theorem Gone.step (gone : Gone labels stream) {label : Label} (step : Step request stream label stream') :
    Gone (labels ++ [label]) stream' := by
  have nothing : label.yield = none ∧ stream'.dropped = true ∧ stream'.channel = [] := by
    cases step with
    | forward _ _ _ received _ =>
        rw [gone.dropped] at received
        cases received
    | next first =>
        rw [gone.channel] at first
        cases first
    | drop received =>
        rw [gone.dropped] at received
        cases received
    | _ => exact ⟨rfl, gone.dropped, gone.channel⟩
  have yielded : yields (labels ++ [label]) = yields labels := by
    rw [yields_concat, nothing.1, Option.toList_none, List.append_nil]
  refine ⟨nothing.2.1, nothing.2.2, ?_, fun url => ?_⟩
  · rw [yielded]
    exact gone.nodup
  · rw [yielded]
    exact gone.items url

theorem Flowing.subscribed (flowing : Flowing labels stream) {url : RelayUrl}
    (connecting : (stream.lanes url).forwarder = .connecting) (result : Except Error Unit) :
    Flowing (labels ++ [.silent]) (stream.setLane url ((stream.lanes url).subscribed result)) := by
  refine flowing.setLane rfl (fun passed stage => stage.subscribed connecting result) subset_rfl ?_
    (fun event holds => ?_) (fun other event delivers => by cases delivers)
  · refine flowing.accounts.setLane ?_
    unfold carried
    rw [connecting]
    cases result <;> rfl
  · rw [((flowing.stage url).eq_empty connecting).1] at holds
    cases holds with
    | inl queued => cases queued
    | inr sends =>
        obtain ⟨inGrace, sending⟩ := sends
        cases sending

theorem Flowing.handler (flowing : Flowing labels stream) {url : RelayUrl} {happening : Happening} {lane : Lane}
    (step : (stream.lanes url).HandlerStep request.policy request.timeout happening lane) :
    Flowing (labels ++ [.lane url happening]) (stream.setLane url lane) := by
  have alive := (flowing.stage url).forwarder_ne step
  refine flowing.setLane rfl (fun passed stage => stage.handlerStep step) subset_rfl ?_ (fun event holds => ?_)
    (fun other event delivers => ?_)
  · refine flowing.accounts.setLane ?_
    unfold carried
    rw [step.forwarder_eq]
  · cases step.holds alive holds with
    | inl holds => exact .inl holds
    | inr overtaken =>
        rw [overtaken]
        exact .inr (.inr rfl)
  · cases delivers
    exact ⟨rfl, step.holds_of_delivered⟩

theorem Flowing.take (flowing : Flowing labels stream) {url : RelayUrl} {item : Option RelayStreamEvent}
    {lane : Lane} (polling : (stream.lanes url).forwarder = .polling)
    (polled : (stream.lanes url).pollNext = some (item, lane)) :
    Flowing (labels ++ [.silent])
      { stream.setLane url (lane.receive stream.ids item).1 with ids := (lane.receive stream.ids item).2 } := by
  refine flowing.setLane rfl (fun passed stage => stage.receive polling polled stream.ids)
    (Lane.subset_receive lane stream.ids item) ?_ (fun event holds => ?_)
    (fun other event delivers => by cases delivers)
  · refine flowing.accounts.receive ?_ ((Lane.pollNext_handler polled).2.trans polling) item
    unfold carried
    rw [polling]
    rfl
  · cases holds.receive polled stream.ids with
    | inl holds => exact .inl holds
    | inr known => exact .inr (.inl known)

theorem Flowing.drive (flowing : Flowing labels stream) :
    Flowing (labels ++ [.silent]) { stream with driving := true } := by
  have yielded : yields (labels ++ [.silent]) = yields labels := by
    rw [yields_concat]
    exact List.append_nil _
  refine ⟨flowing.received, fun url => ?_, ?_, fun url event member => ?_⟩
  · rw [yielded]
    exact flowing.stage url
  · rw [yielded]
    exact flowing.accounts
  · have earlier : .lane url (.delivered event) ∈ labels := by simpa using member
    cases flowing.delivered url event earlier with
    | inl holds => exact .inl holds
    | inr settled =>
        cases settled with
        | inl known => exact .inr (.inl known)
        | inr overtaken => exact .inr (.inr (List.mem_append_left _ overtaken))

/-- The stream flows on until its receiver is gone. -/
theorem Flowing.step (flowing : Flowing labels stream) {label : Label} (step : Step request stream label stream') :
    label ≠ .dropped ∧ Flowing (labels ++ [label]) stream' ∨
      label = .dropped ∧ Gone (labels ++ [label]) stream' := by
  cases step with
  | subscribed result target connecting nonempty =>
      exact .inl ⟨Label.noConfusion, flowing.subscribed connecting result⟩
  | drive idle answered => exact .inl ⟨Label.noConfusion, flowing.drive⟩
  | handler target step => exact .inl ⟨Label.noConfusion, flowing.handler step⟩
  | take target driving polling polled => exact .inl ⟨Label.noConfusion, flowing.take polling polled⟩
  | forward target driving sending received room => exact .inl ⟨Label.noConfusion, flowing.forward sending⟩
  | forwardFailed target driving sending dropped | abandon target driving polling dropped =>
      rw [flowing.received] at dropped
      cases dropped
  | next first => exact .inl ⟨Label.noConfusion, flowing.next first⟩
  | drop received => exact .inr ⟨rfl, flowing.drop⟩

theorem consistent_of_run (run : Run (Step request) {} labels stream) : Consistent labels stream := by
  apply Run.invariant (.inl .start) ?_ run
  intro labels stream label stream' before step
  cases before with
  | inl flowing =>
      cases flowing.step step with
      | inl received => exact .inl received.2
      | inr dropped => exact .inr dropped.2
  | inr gone => exact .inr (gone.step step)

theorem flowing_of_run (run : Run (Step request) {} labels stream) (received : stream.dropped = false) :
    Flowing labels stream := by
  cases consistent_of_run run with
  | inl flowing => exact flowing
  | inr gone =>
      rw [gone.dropped] at received
      cases received

/-! ## Streams that have run dry -/

/-- Nothing is on its way: a target has finished or its handler waits for the relay. -/
structure Drained (request : StreamRequest) (stream : EventStream) : Prop where
  received : stream.dropped = false
  driving : stream.driving = true
  channel : stream.channel = []
  lanes : ∀ url ∈ request.targets, (stream.lanes url).activity = [] ∧
    ((stream.lanes url).forwarder = .finished ∨
      (stream.lanes url).forwarder = .polling ∧ (stream.lanes url).handler.phase ∈ [.listening, .grace])

theorem Flowing.mem_yields (flowing : Flowing labels stream) (drained : Drained request stream) {id : EventId}
    (others : ∀ url ∉ request.targets, (stream.lanes url).forwarder.carried = none) (known : id ∈ stream.ids) :
    id ∈ eventIds (yields labels) := by
  have sent := (flowing.accounts.known_iff id).mp known
  rw [drained.channel, List.append_nil] at sent
  cases sent with
  | inl yielded => exact yielded
  | inr holds =>
      obtain ⟨url, holds⟩ := holds
      have free : (stream.lanes url).forwarder.carried = none := by
        by_cases target : url ∈ request.targets
        · cases (drained.lanes url target).2 with
          | inl finished =>
              rw [finished]
              rfl
          | inr waiting =>
              rw [waiting.1]
              rfl
        · exact others url target
      rw [carried, free] at holds
      cases holds

end Steps

end EventStream

end RustNostr.NostrSdk
