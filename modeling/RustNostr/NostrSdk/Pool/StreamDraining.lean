import Mathlib
import RustNostr.NostrSdk.Pool.StreamOutcomes

/-!
# Streams of events run dry

Without any more events from the relays the targets forward what they have: every step
leaves less to be done. So the stream gets to a state in which each event has been yielded
and each target that has ended has its outcome, and what a deadline has overtaken is lost.
-/

set_option autoImplicit false

namespace RustNostr.NostrSdk

open Library NostrGossip

/-! ## What is still to be done -/

def HandlerPhase.weight : HandlerPhase → Nat
  | sending .. => 11
  | ended _ => 5
  | unspawned | spawned | listening | grace | reporting _ | finished => 0

def Forwarder.weight : Forwarder → Nat
  | polling => 1
  | sending .. => 3
  | connecting | finished => 0

namespace Lane

/-- A bound on the steps that a target makes of its own. -/
def weight (lane : Lane) : Nat :=
  lane.handler.phase.weight + 4 * lane.activity.length + (if lane.done then 0 else 4) + lane.forwarder.weight

variable {policy : ReqExitPolicy} {timeout : Option Nat} {lane lane' : Lane} {passed : List RelayStreamEvent}

theorem weight_receive_le (lane : Lane) (ids : Finset EventId) (item : RelayStreamEvent) :
    (lane.receive ids (some item)).1.weight ≤ lane.weight + 3 := by
  have sending (item : RelayStreamEvent) (last : Bool) :
      ({ lane with forwarder := .sending item last } : Lane).weight ≤ lane.weight + 3 := by
    simp only [weight, Forwarder.weight]
    omega
  cases item with
  | event event =>
      unfold receive
      dsimp only
      split
      next => exact Nat.le_add_right _ _
      next => exact sending _ _
  | error _ | completed | limitReached => exact sending _ _

theorem weight_receive_lt (polling : lane.forwarder = .polling) {item : Option RelayStreamEvent}
    (polled : lane.pollNext = some (item, lane')) (ids : Finset EventId) :
    (lane'.receive ids item).1.weight < lane.weight := by
  unfold pollNext at polled
  split at polled
  next isDone =>
    cases polled
    simp only [receive, weight, polling, Forwarder.weight, isDone, if_true]
    omega
  next going =>
    split at polled
    next event rest queued =>
      cases polled
      refine (weight_receive_le _ ids _).trans_lt ?_
      simp only [weight, queued, List.length_cons]
      omega
    next reason rest queued =>
      cases polled
      refine (weight_receive_le _ ids _).trans_lt ?_
      simp only [weight, queued, List.length_cons, going, if_true, if_neg Bool.false_ne_true]
      omega
    next nothing =>
      split at polled
      next =>
        cases polled
        refine (weight_receive_le _ ids _).trans_lt ?_
        simp only [weight, going, if_true, if_neg Bool.false_ne_true]
        omega
      next => cases polled

theorem weight_forwarded_lt {item : RelayStreamEvent} {last : Bool} (sending : lane.forwarder = .sending item last) :
    (lane.forwarded last).weight + 1 < lane.weight := by
  cases last <;> simp [forwarded, weight, sending, Forwarder.weight]

end Lane

/-! ## All targets -/

namespace EventStream

def size (request : StreamRequest) (stream : EventStream) : Nat :=
  ∑ url ∈ request.targets, (stream.lanes url).weight + stream.channel.length +
    (if stream.driving then 0 else 1)

/-- The other relays have not been asked for anything. -/
def Untouched (request : StreamRequest) (stream : EventStream) : Prop :=
  ∀ url ∉ request.targets, stream.lanes url = {}

/-- Only targets are worked on, and the request to each has been answered. -/
structure Ready (request : StreamRequest) (labels : List Label) (stream : EventStream) : Prop where
  flowing : Flowing labels stream
  others : Untouched request stream
  answered : ∀ url ∈ request.targets, (stream.lanes url).forwarder ≠ .connecting

variable {request : StreamRequest} {labels : List Label} {stream stream' : EventStream} {url : RelayUrl}

theorem sum_weight_setLane (stream : EventStream) (target : url ∈ request.targets) (lane : Lane) :
    ∑ other ∈ request.targets, ((stream.setLane url lane).lanes other).weight + (stream.lanes url).weight =
      ∑ other ∈ request.targets, (stream.lanes other).weight + lane.weight := by
  have others : ∑ other ∈ request.targets.erase url, ((stream.setLane url lane).lanes other).weight =
      ∑ other ∈ request.targets.erase url, (stream.lanes other).weight :=
    Finset.sum_congr rfl fun other member =>
      congrArg Lane.weight (lanes_setLane_of_ne stream (Finset.ne_of_mem_erase member) lane)
  have after := Finset.add_sum_erase request.targets
    (fun other => ((stream.setLane url lane).lanes other).weight) target
  have before := Finset.add_sum_erase request.targets (fun other => (stream.lanes other).weight) target
  rw [lanes_setLane] at after
  omega

theorem Step.lanes_of_not_target {label : Label} (step : Step request stream label stream')
    (other : url ∉ request.targets) : stream'.lanes url = stream.lanes url := by
  have elsewhere {target : RelayUrl} (member : target ∈ request.targets) (lane : Lane) :
      (stream.setLane target lane).lanes url = stream.lanes url :=
    lanes_setLane_of_ne stream (fun same : url = target => other (same ▸ member)) lane
  cases step with
  | subscribed _ target _ _ | handler target _ | forwardFailed target _ _ _ | abandon target _ _ _ =>
      exact elsewhere target _
  | take target _ _ _ | forward target _ _ _ _ => exact elsewhere target _
  | drive _ _ | next _ | drop _ => rfl

theorem untouched_of_run (run : Run (Step request) {} labels stream) : Untouched request stream := by
  have start : Untouched request {} := fun _ _ => rfl
  refine Run.state_invariant start ?_ run
  intro stream label stream' before step url other
  exact (step.lanes_of_not_target other).trans (before url other)

/-- A request that has been answered stays answered. -/
theorem Step.answered {label : Label} (step : Step request stream label stream')
    (answered : ∀ url ∈ request.targets, (stream.lanes url).forwarder ≠ .connecting) :
    ∀ url ∈ request.targets, (stream'.lanes url).forwarder ≠ .connecting := by
  intro url target
  have before := answered url target
  have set {changed : RelayUrl} {lane : Lane} (done : lane.forwarder ≠ .connecting) :
      ((stream.setLane changed lane).lanes url).forwarder ≠ .connecting := by
    by_cases same : url = changed
    · rw [same, lanes_setLane]
      exact done
    · rw [lanes_setLane_of_ne stream same]
      exact before
  have forwarded {lane : Lane} (last : Bool) : (lane.forwarded last).forwarder ≠ .connecting := by
    cases last <;> exact Forwarder.noConfusion
  cases step with
  | subscribed result _ _ _ =>
      apply set
      cases result <;> exact Forwarder.noConfusion
  | handler target step =>
      apply set
      rw [step.forwarder_eq]
      exact answered _ target
  | @take changed item lane target _ polling polled =>
      have given : (lane.receive stream.ids item).1.forwarder ≠ .connecting := by
        have polls : lane.forwarder = .polling := (Lane.pollNext_handler polled).2.trans polling
        unfold Lane.receive
        split
        next => exact Forwarder.noConfusion
        next =>
          split
          next =>
            rw [polls]
            exact Forwarder.noConfusion
          next => exact Forwarder.noConfusion
        next => exact Forwarder.noConfusion
        next => exact Forwarder.noConfusion
        next => exact Forwarder.noConfusion
      exact set given
  | forward _ _ _ _ _ => exact set (forwarded _)
  | forwardFailed _ _ _ _ => exact set (forwarded _)
  | abandon _ _ _ _ => exact set (forwarded _)
  | drive _ _ | next _ | drop _ => exact before

theorem Ready.step (ready : Ready request labels stream) {label : Label} (step : Step request stream label stream')
    (drains : label.drains = true) : Ready request (labels ++ [label]) stream' := by
  refine ⟨?_, fun url other => ?_, step.answered ready.answered⟩
  · cases ready.flowing.step step with
    | inl received => exact received.2
    | inr dropped =>
        rw [dropped.1] at drains
        cases drains
  · rw [step.lanes_of_not_target other, ready.others url other]

/-! ## One step further -/

/-- A step that makes the stream smaller. -/
def Progress (request : StreamRequest) (stream : EventStream) : Prop :=
  ∃ label stream', Step request stream label stream' ∧ label.drains = true ∧
    stream'.size request < stream.size request

theorem progress_handler (target : url ∈ request.targets) {lane : Lane}
    (step : (stream.lanes url).HandlerStep request.policy request.timeout .silent lane)
    (smaller : lane.weight < (stream.lanes url).weight) : Progress request stream := by
  refine ⟨_, _, .handler target step, rfl, ?_⟩
  have sum := sum_weight_setLane stream target lane
  change ∑ other ∈ request.targets, ((stream.setLane url lane).lanes other).weight + stream.channel.length +
    (if stream.driving then 0 else 1) < size request stream
  unfold size
  omega

theorem progress_take (target : url ∈ request.targets) (driving : stream.driving = true)
    (polling : (stream.lanes url).forwarder = .polling) {item : Option RelayStreamEvent} {lane : Lane}
    (polled : (stream.lanes url).pollNext = some (item, lane)) : Progress request stream := by
  refine ⟨_, _, .take target driving polling polled, rfl, ?_⟩
  have smaller := Lane.weight_receive_lt polling polled stream.ids
  have sum := sum_weight_setLane stream target (lane.receive stream.ids item).1
  change ∑ other ∈ request.targets, ((stream.setLane url _).lanes other).weight + stream.channel.length +
    (if stream.driving then 0 else 1) < size request stream
  unfold size
  omega

theorem progress_forward (target : url ∈ request.targets) (driving : stream.driving = true)
    (received : stream.dropped = false) (room : stream.channel = []) {item : RelayStreamEvent} {last : Bool}
    (sending : (stream.lanes url).forwarder = .sending item last) : Progress request stream := by
  have capacity : stream.channel.length < channelCapacity := by
    rw [room]
    decide
  refine ⟨_, _, .forward target driving sending received capacity, rfl, ?_⟩
  have smaller := Lane.weight_forwarded_lt sending
  have sum := sum_weight_setLane stream target ((stream.lanes url).forwarded last)
  change ∑ other ∈ request.targets, ((stream.setLane url _).lanes other).weight +
    (stream.channel ++ [(url, item)]).length + (if stream.driving then 0 else 1) < size request stream
  rw [room]
  unfold size
  rw [room, List.nil_append, List.length_singleton, List.length_nil]
  omega

/-- A handler that does not wait for the relay can make a step. -/
theorem progress_active (target : url ∈ request.targets) (polling : (stream.lanes url).forwarder = .polling)
    (empty : (stream.lanes url).activity = []) (active : (stream.lanes url).handler.phase.isActive = true)
    (works : (stream.lanes url).handler.phase ∉ [.listening, .grace]) : Progress request stream := by
  have room : (stream.lanes url).activity.length < Lane.activityCapacity := by
    rw [empty]
    decide
  have alive : (stream.lanes url).forwarder ≠ .finished := by
    rw [polling]
    exact Forwarder.noConfusion
  cases phase : (stream.lanes url).handler.phase with
  | sending event inGrace =>
      refine progress_handler target (.send phase alive room) ?_
      have light : ∀ phase ∈ [HandlerPhase.listening, .grace, .ended (some .limitReached)],
          phase.weight ≤ 5 := by decide
      have sent := light _ ((stream.lanes url).handler.sent_phase request.policy inGrace)
      have before : (stream.lanes url).handler.phase.weight = 11 := by
        rw [phase]
        rfl
      simp only [Lane.weight, before, List.length_append, List.length_singleton]
      omega
  | ended reason =>
      cases reason with
      | none =>
          rw [phase] at active
          cases active
      | some reason =>
          refine progress_handler target (.report phase alive room) ?_
          simp only [Lane.weight, phase, HandlerPhase.weight, List.length_append, List.length_singleton,
            AutoCloseHandler.enter]
          omega
  | listening | grace =>
      rw [phase] at works
      exact absurd (by decide) works
  | unspawned | spawned | reporting _ | finished =>
      rw [phase] at active
      cases active

/-- A target that has something on its way can make a step. -/
theorem Ready.progress_lane (ready : Ready request labels stream) (driving : stream.driving = true)
    (room : stream.channel = []) (target : url ∈ request.targets)
    (undrained : ¬ ((stream.lanes url).activity = [] ∧ ((stream.lanes url).forwarder = .finished ∨
      (stream.lanes url).forwarder = .polling ∧ (stream.lanes url).handler.phase ∈ [.listening, .grace]))) :
    Progress request stream := by
  have forwards {item : RelayStreamEvent} {last : Bool} (sending : (stream.lanes url).forwarder = .sending item last) :
      Progress request stream := progress_forward target driving ready.flowing.received room sending
  cases ready.flowing.stage url with
  | connecting initial _ =>
      refine absurd ?_ (ready.answered url target)
      rw [initial]
  | ending _ _ _ sending _ _ => exact forwards sending
  | ended _ empty others _ =>
      cases others with
      | inr finished => exact absurd ⟨empty, .inl finished⟩ undrained
      | inl polls =>
          have polled : (stream.lanes url).pollNext = some (none, stream.lanes url) := if_pos polls.2
          exact progress_take target driving polls.1 polled
  | @reported events reason _ going queued _ carries _ =>
      cases forwarder : (stream.lanes url).forwarder with
      | sending item last => exact forwards forwarder
      | connecting | finished =>
          rw [forwarder] at carries
          cases carries
      | polling =>
          have ⟨item, lane, polled⟩ : ∃ item lane, (stream.lanes url).pollNext = some (item, lane) := by
            unfold Lane.pollNext
            rw [going, if_neg Bool.false_ne_true, queued]
            cases events with
            | nil => exact ⟨_, _, rfl⟩
            | cons activity rest => cases activity <;> exact ⟨_, _, rfl⟩
          exact progress_take target driving forwarder polled
  | running active going events carries _ =>
      cases forwarder : (stream.lanes url).forwarder with
      | sending item last => exact forwards forwarder
      | connecting | finished =>
          rw [forwarder] at carries
          cases carries
      | polling =>
          cases queued : (stream.lanes url).activity with
          | cons activity rest =>
              have ⟨item, lane, polled⟩ : ∃ item lane, (stream.lanes url).pollNext = some (item, lane) := by
                unfold Lane.pollNext
                rw [going, if_neg Bool.false_ne_true, queued]
                cases activity <;> exact ⟨_, _, rfl⟩
              exact progress_take target driving forwarder polled
          | nil =>
              exact progress_active target forwarder queued active fun waiting =>
                undrained ⟨queued, .inr ⟨forwarder, waiting⟩⟩

theorem Ready.progress (ready : Ready request labels stream) (undrained : ¬ Drained request stream) :
    Progress request stream := by
  cases driving : stream.driving with
  | false =>
      refine ⟨_, _, .drive driving ready.answered, rfl, ?_⟩
      simp only [size, driving, if_true, if_neg Bool.false_ne_true]
      omega
  | true =>
      cases channel : stream.channel with
      | cons first rest =>
          refine ⟨_, _, .next channel, rfl, ?_⟩
          simp only [size, channel, List.length_cons]
          omega
      | nil =>
          by_cases each : ∀ url ∈ request.targets, (stream.lanes url).activity = [] ∧
              ((stream.lanes url).forwarder = .finished ∨ (stream.lanes url).forwarder = .polling ∧
                (stream.lanes url).handler.phase ∈ [.listening, .grace])
          · exact absurd ⟨ready.flowing.received, driving, channel, each⟩ undrained
          · push Not at each
            obtain ⟨url, target, busy⟩ := each
            exact ready.progress_lane driving channel target fun still => by
              cases still.2 with
              | inl finished => exact (busy still.1).1 finished
              | inr waiting => exact (busy still.1).2 waiting.1 waiting.2

/-- A stream whose requests have been answered can run dry, and keeps on the way whatever
its own steps keep. -/
theorem exists_drained_of_kept {holds : EventStream → Prop}
    (kept : ∀ stream label stream', holds stream → Step request stream label stream' → label.drains = true →
      holds stream')
    (run : Run (Step request) {} labels stream) (received : stream.dropped = false)
    (answered : ∀ url ∈ request.targets, (stream.lanes url).forwarder ≠ .connecting) (held : holds stream) :
    ∃ more last, Run (Step request) {} (labels ++ more) last ∧ (∀ label ∈ more, label.drains = true) ∧
      holds last ∧ Drained request last := by
  have ready : Ready request labels stream := ⟨flowing_of_run run received, untouched_of_run run, answered⟩
  have smaller : ∀ labels stream, Ready request labels stream ∧ holds stream → ¬ Drained request stream →
      ∃ label stream', Step request stream label stream' ∧ label.drains = true ∧
        (Ready request (labels ++ [label]) stream' ∧ holds stream') ∧
          size request stream' < size request stream := by
    intro labels stream before undrained
    obtain ⟨label, next, step, drains, smaller⟩ := before.1.progress undrained
    exact ⟨label, next, step, drains, ⟨before.1.step step drains, kept _ _ _ before.2 step drains⟩, smaller⟩
  obtain ⟨more, last, whole, drains, after, drained⟩ :=
    run.exists_final (size request) smaller ⟨ready, held⟩
  exact ⟨more, last, whole, drains, after.2, drained⟩

theorem exists_drained (run : Run (Step request) {} labels stream) (received : stream.dropped = false)
    (answered : ∀ url ∈ request.targets, (stream.lanes url).forwarder ≠ .connecting) :
    ∃ more last, Run (Step request) {} (labels ++ more) last ∧ (∀ label ∈ more, label.drains = true) ∧
      Drained request last := by
  obtain ⟨more, last, whole, drains, _, drained⟩ :=
    exists_drained_of_kept (fun _ _ _ _ _ _ => trivial) run received answered trivial
  exact ⟨more, last, whole, drains, drained⟩

/-! ## What has been yielded then -/

section Drained

variable (run : Run (Step request) {} labels stream) (drained : Drained request stream)
include run drained

theorem Drained.not_holds (url : RelayUrl) (event : Event) : ¬ (stream.lanes url).Holds event := by
  have flowing := flowing_of_run run drained.received
  intro holds
  by_cases target : url ∈ request.targets
  · obtain ⟨empty, still⟩ := drained.lanes url target
    cases holds with
    | inl queued =>
        rw [empty] at queued
        cases queued
    | inr sends =>
        obtain ⟨inGrace, sending⟩ := sends
        cases still with
        | inr waiting =>
            rw [sending] at waiting
            simp at waiting
        | inl finished =>
            have idle : (stream.lanes url).handler.phase ∈ [.finished, .unspawned] := by
              cases flowing.stage url with
              | connecting initial _ =>
                  rw [initial] at finished
                  cases finished
              | running _ _ _ carries _ | reported _ _ _ _ carries _ =>
                  rw [finished] at carries
                  cases carries
              | ending idle _ _ _ _ _ | ended idle _ _ _ => exact idle
            rw [sending] at idle
            simp at idle
  · rw [untouched_of_run run url target] at holds
    cases holds with
    | inl queued => cases queued
    | inr sends =>
        obtain ⟨inGrace, sending⟩ := sends
        cases sending

theorem Drained.mem_eventIds {id : EventId} (known : id ∈ stream.ids) : id ∈ eventIds (yields labels) := by
  refine (flowing_of_run run drained.received).mem_yields drained (fun url other => ?_) known
  rw [untouched_of_run run url other]
  rfl

theorem Drained.delivered (uncut : ∀ url event, Label.lane url (.overtaken event) ∉ labels) {url : RelayUrl}
    {event : Event} (delivered : .lane url (.delivered event) ∈ labels) : event.id ∈ eventIds (yields labels) := by
  cases (flowing_of_run run drained.received).delivered url event delivered with
  | inl holds => exact absurd holds (drained.not_holds run url event)
  | inr settled =>
      cases settled with
      | inl known => exact drained.mem_eventIds run known
      | inr overtaken => exact absurd overtaken (uncut url event)

theorem Drained.ended {url : RelayUrl} (target : url ∈ request.targets)
    (stopped : (stream.lanes url).handler.phase ∉ [.listening, .grace]) : Ended (itemsOf url (yields labels)) := by
  have flowing := flowing_of_run run drained.received
  have finished : (stream.lanes url).forwarder = .finished := by
    cases (drained.lanes url target).2 with
    | inl finished => exact finished
    | inr waiting => exact absurd waiting.2 stopped
  have stage := flowing.stage url
  rw [drained.channel, List.append_nil] at stage
  exact (stage.idle_and_ended finished).2

end Drained

theorem targets_of_accepted {pool : RelayPool} {filters : SortedTable RelayUrl (List Filter)}
    {timeout : Option Nat} {policy : ReqExitPolicy}
    (accepted : pool.streamEvents filters timeout policy = .ok request) :
    request.targets = (filters.entries.map Prod.fst).toFinset := by
  unfold RelayPool.streamEvents at accepted
  split at accepted
  next => cases accepted
  next =>
    split at accepted
    next => cases accepted
    next =>
      cases accepted
      rfl

/-- In every run no event is yielded twice, and nothing of a target behind its outcome. The
stream can run dry as long as it is received; each target that has ended has its outcome
then, and unless a deadline has passed while an event waited for room, each event that was
delivered has been yielded. -/
theorem streamEvents_outcomes {pool : RelayPool} {filters : SortedTable RelayUrl (List Filter)}
    {timeout : Option Nat} {policy : ReqExitPolicy} {request : StreamRequest}
    (accepted : pool.streamEvents filters timeout policy = .ok request) {labels : List Label}
    {stream : EventStream} (run : Run (Step request) {} labels stream) :
    (eventIds (yields labels)).Nodup ∧
    (∀ url, Unended (itemsOf url (yields labels)) ∨ Ended (itemsOf url (yields labels))) ∧
    (Drained request stream →
      (∀ url ∈ filters.entries.map Prod.fst, (stream.lanes url).handler.phase ∉ [.listening, .grace] →
        Ended (itemsOf url (yields labels))) ∧
      ((∀ url event, Label.lane url (.overtaken event) ∉ labels) →
        ∀ url event, .lane url (.delivered event) ∈ labels → event.id ∈ eventIds (yields labels))) ∧
    (stream.dropped = false →
      (∀ url ∈ filters.entries.map Prod.fst, (stream.lanes url).forwarder ≠ .connecting) →
      ∃ more last, Run (Step request) {} (labels ++ more) last ∧ (∀ label ∈ more, label.drains = true) ∧
        Drained request last) := by
  have target (url : RelayUrl) : url ∈ request.targets ↔ url ∈ filters.entries.map Prod.fst := by
    rw [targets_of_accepted accepted, List.mem_toFinset]
  refine ⟨?_, fun url => ?_, fun drained => ⟨fun url member ended => ?_, fun uncut url event delivered => ?_⟩,
    fun received answered => ?_⟩
  · cases consistent_of_run run with
    | inl flowing => exact flowing.nodup
    | inr gone => exact gone.nodup
  · cases consistent_of_run run with
    | inl flowing => exact flowing.items url
    | inr gone => exact gone.items url
  · exact drained.ended run ((target url).mpr member) ended
  · exact drained.delivered run uncut delivered
  · exact exists_drained run received fun url member => answered url ((target url).mp member)

end EventStream

/-! ## A deadline at the wrong moment -/

theorem AutoCloseHandler.eq_event_of_listen {policy : ReqExitPolicy} {authenticator : Bool}
    {resent : Except String Unit} {handler : AutoCloseHandler} {notification : Notification} {event : Event}
    {inGrace : Bool} (listening : handler.phase = .listening)
    (sends : (handler.listen policy authenticator resent notification).phase = .sending event inGrace) :
    notification = .event event := by
  cases notification with
  | event given =>
      cases sends
      rfl
  | authenticationFailed | connectionClosed => cases sends
  | other => simp [listen, listening] at sends
  | eose => cases policy <;> simp [listen, exit, enter, listening] at sends
  | closed message =>
      unfold listen at sends
      dsimp only at sends
      split at sends
      next => split at sends <;> simp [exit, enter, listening] at sends
      next => cases sends
      next => cases sends
  | authenticated =>
      unfold listen at sends
      dsimp only at sends
      split at sends
      next => cases resent <;> simp [exit, enter, listening] at sends
      next => simp [listening] at sends

theorem AutoCloseHandler.eq_event_of_wait {handler : AutoCloseHandler} {notification : Notification} {event : Event}
    {inGrace : Bool} (grace : handler.phase = .grace)
    (sends : (handler.wait notification).phase = .sending event inGrace) : notification = .event event := by
  cases notification with
  | event given =>
      cases sends
      rfl
  | connectionClosed => cases sends
  | eose | authenticated | authenticationFailed | other => simp [wait, grace] at sends
  | closed message =>
      unfold wait at sends
      dsimp only at sends
      split at sends <;> cases sends

namespace Lane

variable {policy : ReqExitPolicy} {timeout : Option Nat} {lane lane' : Lane}

theorem not_sending_of_sent (policy : ReqExitPolicy) (handler : AutoCloseHandler) (inGrace : Bool) (event : Event)
    (again : Bool) : (handler.sent policy inGrace).phase ≠ .sending event again := by
  intro sends
  have phase := handler.sent_phase policy inGrace
  rw [sends] at phase
  simp at phase

/-- An event is on its way because it was, or because it has just been delivered. -/
theorem HandlerStep.holds_before {happening : Happening} {event : Event}
    (step : lane.HandlerStep policy timeout happening lane') (holds : lane'.Holds event) :
    lane.Holds event ∨ happening = .delivered event := by
  cases step with
  | listen notification authenticator resent phase =>
      cases holds with
      | inl queued => exact .inl (.inl queued)
      | inr sends =>
          obtain ⟨inGrace, sending⟩ := sends
          rw [AutoCloseHandler.eq_event_of_listen phase sending]
          exact .inr rfl
  | wait notification phase =>
      cases holds with
      | inl queued => exact .inl (.inl queued)
      | inr sends =>
          obtain ⟨inGrace, sending⟩ := sends
          rw [AutoCloseHandler.eq_event_of_wait phase sending]
          exact .inr rfl
  | @send own inGrace phase alive room =>
      cases holds with
      | inr sends =>
          obtain ⟨again, sending⟩ := sends
          exact absurd sending (not_sending_of_sent _ _ _ _ _)
      | inl queued =>
          cases List.mem_append.mp queued with
          | inl earlier => exact .inl (.inl earlier)
          | inr here =>
              cases List.mem_singleton.mp here
              exact .inl (.inr ⟨inGrace, phase⟩)
  | sendFailed phase finished =>
      cases holds with
      | inl queued => exact .inl (.inl queued)
      | inr sends =>
          obtain ⟨again, sending⟩ := sends
          exact absurd sending (not_sending_of_sent _ _ _ _ _)
  | report phase alive room =>
      cases holds with
      | inr sends =>
          obtain ⟨again, sending⟩ := sends
          cases sending
      | inl queued =>
          cases List.mem_append.mp queued with
          | inl earlier => exact .inl (.inl earlier)
          | inr here => cases List.mem_singleton.mp here
  | lagged _ _ | receiverClosed _ | timedOut _ _ | graceOver _ | timedOutSending _ _ _ | graceOverSending _ _
  | cancel _ _ | reportFailed _ _ =>
      cases holds with
      | inl queued => exact .inl (.inl queued)
      | inr sends =>
          obtain ⟨again, sending⟩ := sends
          cases sending

theorem pollNext_event {event : Event} (polled : lane.pollNext = some (some (.event event), lane')) :
    lane.Holds event := by
  unfold pollNext at polled
  split at polled
  next => cases polled
  next =>
    split at polled
    next given rest queued =>
      cases polled
      refine .inl ?_
      rw [queued]
      exact List.mem_cons_self
    next reason rest queued =>
      have outcome := reason.isEvent_outcome
      simp only [Option.some.injEq, Prod.mk.injEq] at polled
      rw [polled.1] at outcome
      cases outcome
    next =>
      split at polled
      next => cases polled
      next => cases polled

theorem pollNext_activity {item : Option RelayStreamEvent} (polled : lane.pollNext = some (item, lane')) :
    lane'.activity ⊆ lane.activity := by
  unfold pollNext at polled
  split at polled
  next =>
    cases polled
    exact List.Subset.refl _
  next =>
    split at polled
    next given rest queued =>
      cases polled
      rw [queued]
      exact List.subset_cons_self _ _
    next reason rest queued =>
      cases polled
      rw [queued]
      exact List.subset_cons_self _ _
    next =>
      split at polled
      next =>
        cases polled
        exact List.Subset.refl _
      next => cases polled

theorem mem_receive (lane : Lane) (ids : Finset EventId) (item : Option RelayStreamEvent) {id : EventId}
    (known : id ∈ (lane.receive ids item).2) :
    id ∈ ids ∨ ∃ event : Event, item = some (.event event) ∧ event.id = id := by
  unfold receive at known
  split at known
  next => exact .inl known
  next event =>
    split at known
    next => exact .inl known
    next =>
      cases Finset.mem_insert.mp known with
      | inl same => exact .inr ⟨event, rfl, same.symm⟩
      | inr before => exact .inl before
  next => exact .inl known
  next => exact .inl known
  next => exact .inl known

end Lane

namespace EventStream

/-- The ID is not known, and no event with it is on its way. -/
structure Lost (id : EventId) (stream : EventStream) : Prop where
  unknown : id ∉ stream.ids
  unheld : ∀ url event, (stream.lanes url).Holds event → event.id ≠ id

variable {request : StreamRequest} {stream stream' : EventStream} {url : RelayUrl} {id : EventId}

theorem Lost.setLane (lost : Lost id stream) {lane : Lane} {ids : Finset EventId}
    {channel : List (RelayUrl × RelayStreamEvent)} {driving dropped : Bool} (unknown : id ∉ ids)
    (before : ∀ event, lane.Holds event → (stream.lanes url).Holds event) :
    Lost id { stream.setLane url lane with ids, channel, driving, dropped } := by
  refine ⟨unknown, fun other event holds => ?_⟩
  change ((stream.setLane url lane).lanes other).Holds event at holds
  by_cases same : other = url
  · subst same
    rw [lanes_setLane] at holds
    exact lost.unheld other event (before event holds)
  · rw [lanes_setLane_of_ne stream same] at holds
    exact lost.unheld other event holds

/-- What is lost does not come back of its own. -/
theorem Lost.step (lost : Lost id stream) {label : Label} (step : Step request stream label stream')
    (drains : label.drains = true) : Lost id stream' := by
  cases step with
  | @subscribed url result target connecting nonempty =>
      refine lost.setLane lost.unknown fun event holds => ?_
      cases result with
      | error error => exact holds
      | ok _ =>
          cases holds with
          | inl queued => exact .inl queued
          | inr sends =>
              obtain ⟨inGrace, sending⟩ := sends
              cases sending
  | @handler url happening lane target step =>
      refine lost.setLane lost.unknown fun event holds => ?_
      cases step.holds_before holds with
      | inl before => exact before
      | inr delivered =>
          rw [delivered] at drains
          cases drains
  | @take url item lane target driving polling polled =>
      refine lost.setLane (fun known => ?_) fun event holds => ?_
      · cases lane.mem_receive stream.ids item known with
        | inl before => exact lost.unknown before
        | inr taken =>
            obtain ⟨event, isEvent, same⟩ := taken
            rw [isEvent] at polled
            exact lost.unheld url event (Lane.pollNext_event polled) same
      · obtain ⟨activity, handler⟩ := lane.receive_fields stream.ids item
        unfold Lane.Holds at holds
        rw [activity, handler, (Lane.pollNext_handler polled).1] at holds
        cases holds with
        | inl queued => exact .inl (Lane.pollNext_activity polled queued)
        | inr sends => exact .inr sends
  | forward _ _ _ _ _ | forwardFailed _ _ _ _ | abandon _ _ _ _ =>
      exact lost.setLane lost.unknown fun event holds => holds
  | drive _ _ | next _ | drop _ => exact ⟨lost.unknown, lost.unheld⟩

/-! ## One relay -/

def aloneUrl : RelayUrl := ⟨"wss://relay.example.com/"⟩

/-- One target; after EOSE, two seconds of grace. -/
def graceRequest : StreamRequest where
  filters := SortedTable.put .empty aloneUrl [{}]
  timeout := none
  policy := .waitDurationAfterEose 2000

def aloneEvent (byte : UInt8) : Event where
  id := .replicate 32 byte
  pubkey := .replicate 32 1
  createdAt := 1700000000
  kind := .fromU16 1
  tags := []
  content := ""
  sig := .replicate 64 3

theorem aloneEvent_ne : (aloneEvent 1).id ≠ (aloneEvent 2).id := by decide +kernel

theorem mem_targets_graceRequest : aloneUrl ∈ graceRequest.targets := by
  have entries : graceRequest.filters.entries = [(aloneUrl, [{}])] := rfl
  simp [StreamRequest.targets, entries]

theorem eq_of_mem_targets_graceRequest {url : RelayUrl} (target : url ∈ graceRequest.targets) : url = aloneUrl := by
  have entries : graceRequest.filters.entries = [(aloneUrl, [{}])] := rfl
  simpa [StreamRequest.targets, entries] using target

/-- One more step of the handler, before any future is polled. -/
theorem alone_handled {labels : List Label} {lane lane' : Lane} {happening : Happening}
    (run : Run (Step graceRequest) {} labels (({} : EventStream).setLane aloneUrl lane))
    (step : lane.HandlerStep (.waitDurationAfterEose 2000) none happening lane') :
    Run (Step graceRequest) {} (labels ++ [.lane aloneUrl happening])
      (({} : EventStream).setLane aloneUrl lane') := by
  have replaced : (({} : EventStream).setLane aloneUrl lane).setLane aloneUrl lane' =
      ({} : EventStream).setLane aloneUrl lane' := by
    unfold setLane
    rw [Function.update_idem]
  rw [← replaced]
  refine run.snoc (.handler mem_targets_graceRequest ?_)
  rw [lanes_setLane]
  exact step

/-- Before any future is polled, only the one lane holds events. -/
theorem lost_alone {lane : Lane} {id : EventId} (unheld : ∀ event, lane.Holds event → event.id ≠ id) :
    Lost id (({} : EventStream).setLane aloneUrl lane) where
  unknown := Finset.notMem_empty id
  unheld url event holds := by
    by_cases same : url = aloneUrl
    · rw [same, lanes_setLane] at holds
      exact unheld event holds
    · rw [lanes_setLane_of_ne _ same] at holds
      cases holds with
      | inl queued => cases queued
      | inr sends =>
          obtain ⟨inGrace, sending⟩ := sends
          cases sending

/-- In the grace period, with so many events on their way. -/
def graceLane (count : Nat) : Lane where
  handler := { phase := .grace, receivedEose := true }
  activity := List.replicate count (.receivedEvent (aloneEvent 1))
  forwarder := .polling

theorem run_graceLane : Run (Step graceRequest) {} ([.silent] ++ [.lane aloneUrl .silent])
    (({} : EventStream).setLane aloneUrl (graceLane 0)) := by
  have asked : Run (Step graceRequest) {} [.silent]
      (({} : EventStream).setLane aloneUrl { handler := { phase := .listening }, forwarder := .polling }) :=
    Run.nil.snoc (.subscribed (.ok ()) mem_targets_graceRequest rfl fun empty => by cases empty)
  exact alone_handled asked (.listen .eose false (.ok ()) rfl)

theorem exists_run_graceLane (count : Nat) (fits : count ≤ Lane.activityCapacity) :
    ∃ labels, Run (Step graceRequest) {} labels (({} : EventStream).setLane aloneUrl (graceLane count)) := by
  induction count with
  | zero => exact ⟨_, run_graceLane⟩
  | succ count ih =>
      obtain ⟨labels, run⟩ := ih (Nat.le_of_succ_le fits)
      have sending := alone_handled run (.wait (.event (aloneEvent 1)) rfl)
      have room : (graceLane count).activity.length < Lane.activityCapacity := by
        rw [graceLane, List.length_replicate]
        exact fits
      have sent := alone_handled sending (.send rfl Forwarder.noConfusion room)
      have queued : List.replicate count (Activity.receivedEvent (aloneEvent 1)) ++
          [.receivedEvent (aloneEvent 1)] = List.replicate (count + 1) (.receivedEvent (aloneEvent 1)) :=
        (List.replicate_succ' ..).symm
      unfold graceLane at sent ⊢
      rw [← queued]
      exact ⟨_, sent⟩

def alonePool : RelayPool where
  relays := SortedTable.put .empty aloneUrl .read

theorem streamEvents_alonePool :
    alonePool.streamEvents graceRequest.filters none (.waitDurationAfterEose 2000) = .ok graceRequest := by
  have entries : graceRequest.filters.entries = [(aloneUrl, [{}])] := rfl
  have known : alonePool.relays.get? aloneUrl = some .read := by
    rw [alonePool, SortedTable.get?_put, if_pos rfl]
  simp [RelayPool.streamEvents, entries, known]
  rfl

/-- The subscription, EOSE, and an event that goes on to the stream. -/
def aloneLabels : List Label :=
  [.silent, .lane aloneUrl .silent, .lane aloneUrl (.delivered (aloneEvent 1)), .lane aloneUrl .silent]

theorem overtaken_not_mem_aloneLabels (url : RelayUrl) (event : Event) :
    Label.lane url (.overtaken event) ∉ aloneLabels := by
  simp [aloneLabels]

/-- One event in the grace period, until the stream has run dry. -/
theorem streamEvents_outcomes_alone : ∃ labels stream, Run (Step graceRequest) {} labels stream ∧
    Drained graceRequest stream ∧ .lane aloneUrl (.delivered (aloneEvent 1)) ∈ labels ∧
      (aloneEvent 1).id ∈ eventIds (yields labels) := by
  have delivered := alone_handled run_graceLane (.wait (.event (aloneEvent 1)) rfl)
  have sent : Run (Step graceRequest) {} aloneLabels _ :=
    alone_handled delivered (.send rfl Forwarder.noConfusion (by decide))
  obtain ⟨more, last, whole, drains, drained⟩ :=
    (streamEvents_outcomes streamEvents_alonePool sent).2.2.2 rfl fun url member => by
      have target : url ∈ graceRequest.targets := List.mem_toFinset.mpr member
      rw [eq_of_mem_targets_graceRequest target, lanes_setLane]
      exact Forwarder.noConfusion
  have uncut : ∀ url event, Label.lane url (.overtaken event) ∉ aloneLabels ++ more := by
    intro url event member
    cases List.mem_append.mp member with
    | inl early => exact overtaken_not_mem_aloneLabels url event early
    | inr late => cases drains _ late
  have member : .lane aloneUrl (.delivered (aloneEvent 1)) ∈ aloneLabels ++ more := by
    simp [aloneLabels]
  have outcomes := (streamEvents_outcomes streamEvents_alonePool whole).2.2.1 drained
  exact ⟨_, last, whole, drained, member, outcomes.2 uncut aloneUrl (aloneEvent 1) member⟩

/-- The grace period ends while an event waits behind a full queue. The relay has delivered
the event, and the stream runs dry without it. -/
theorem streamEvents_loses_event :
    ¬ ∀ labels stream, Run (Step graceRequest) {} labels stream → Drained graceRequest stream →
      ∀ url event, .lane url (.delivered event) ∈ labels → event.id ∈ eventIds (yields labels) := by
  intro complete
  obtain ⟨labels, run⟩ := exists_run_graceLane Lane.activityCapacity le_rfl
  have delivered := alone_handled run (.wait (.event (aloneEvent 2)) rfl)
  have full : Lane.activityCapacity ≤ (graceLane Lane.activityCapacity).activity.length := by
    rw [graceLane, List.length_replicate]
  have cut := alone_handled delivered (.graceOverSending rfl full)
  have answered : ∀ url ∈ graceRequest.targets, ((({} : EventStream).setLane aloneUrl
      { graceLane Lane.activityCapacity with
        handler := (((graceLane Lane.activityCapacity).handler.wait (.event (aloneEvent 2))).exit
          .completed) }).lanes url).forwarder ≠ .connecting := by
    intro url target
    rw [eq_of_mem_targets_graceRequest target, lanes_setLane]
    exact Forwarder.noConfusion
  have lost : Lost (aloneEvent 2).id (({} : EventStream).setLane aloneUrl
      { graceLane Lane.activityCapacity with
        handler := (((graceLane Lane.activityCapacity).handler.wait (.event (aloneEvent 2))).exit
          .completed) }) := by
    apply lost_alone
    intro event holds
    cases holds with
    | inl queued =>
        cases List.eq_of_mem_replicate queued
        exact aloneEvent_ne
    | inr sends =>
        obtain ⟨inGrace, sending⟩ := sends
        cases sending
  obtain ⟨more, last, whole, _, stillLost, drained⟩ :=
    exists_drained_of_kept (fun _ _ _ lost step drains => Lost.step lost step drains) cut rfl answered lost
  have yielded := complete _ last whole drained aloneUrl (aloneEvent 2) (by simp [Happening.ofNotification])
  have flowing := flowing_of_run whole drained.received
  have known : (aloneEvent 2).id ∈ last.ids := by
    rw [flowing.accounts.known_iff, eventIds_append]
    exact .inl (List.mem_append_left _ yielded)
  exact stillLost.unknown known

end EventStream

end RustNostr.NostrSdk
