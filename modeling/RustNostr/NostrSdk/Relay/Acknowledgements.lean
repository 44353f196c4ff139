import Mathlib
import RustNostr.Library.Termination
import RustNostr.NostrSdk.Relay.SendingRuns

/-!
# How a call of `send_event` comes to its result

What the call has queued and heard when it is where it is, and what its results rest on.
-/

set_option autoImplicit false

namespace RustNostr.NostrSdk

open Library

variable {calls : SessionCalls} {acts : List SessionAct} {act : SessionAct} {index : Nat}
  {session after : Session} {task : SendEvent}

namespace SendEvent

/-- The call hears the relay's OK for its event. -/
def hearsOk (index : Nat) (event : Event) (status : Bool) (message : String) : SessionAct :=
  .hear index (.message (.ok event.id status message))

/-- The event was refused for want of an authentication, and then one was told of. -/
def Refused (calls : SessionCalls) (index : Nat) (event : Event) (rest : List SessionAct)
    (acts : List SessionAct) : Prop :=
  ∃ message, authenticates calls.authenticator message = true ∧
    (.queue index event :: hearsOk index event false message :: rest).Sublist acts

/-- An error is the relay's, of the connection, of a lost notification, of a timeout, or of
the channel to the relay. -/
def Failure (calls : SessionCalls) (index : Nat) (event : Event) (error : Error) (acts : List SessionAct) : Prop :=
  (∃ message, error = .relayMsg message ∧
    [.queue index event, hearsOk index event false message].Sublist acts ∧
    (timesQueued index acts = 2 ∨ authenticates calls.authenticator message = false)) ∨
  (error = .authenticationMsg "authentication failed" ∧ .hear index .authenticationFailed ∈ acts) ∨
  (error = .notConnected ∧ ∃ status : RelayStatus, status.isConnectionClosed = true ∧
    .hear index (.relayStatus status) ∈ acts) ∨
  (Unheard error ∧ .giveUp index error ∈ acts) ∨ .notQueued index error ∈ acts

/-- What a call has done and heard when it is where it is. -/
def Evidence (calls : SessionCalls) (index : Nat) (acts : List SessionAct) (task : SendEvent) : Prop :=
  match task.phase with
  | .sending false => timesQueued index acts = 0
  | .waitingOk false => task.waitForOk = true ∧ timesQueued index acts = 1 ∧
      [.queue index task.event].Sublist acts
  | .waitingAuthentication => task.waitForOk = true ∧ timesQueued index acts = 1 ∧
      Refused calls index task.event [] acts
  | .sending true => task.waitForOk = true ∧ timesQueued index acts = 1 ∧
      Refused calls index task.event [.hear index .authenticated] acts
  | .waitingOk true => task.waitForOk = true ∧ timesQueued index acts = 2 ∧
      Refused calls index task.event [.hear index .authenticated, .queue index task.event] acts
  | .finished (.ok .sent) => task.waitForOk = false ∧ timesQueued index acts = 1
  | .finished (.ok (.ack answer)) => task.waitForOk = true ∧ ∃ message, EventSendStatus.ofMessage message = .ack answer ∧
      (timesQueued index acts = 1 ∧
          [.queue index task.event, hearsOk index task.event true message].Sublist acts ∨
        timesQueued index acts = 2 ∧ Refused calls index task.event
          [.hear index .authenticated, .queue index task.event, hearsOk index task.event true message] acts)
  | .finished (.error error) => timesQueued index acts ≤ 2 ∧
      (timesQueued index acts = 2 →
        Refused calls index task.event [.hear index .authenticated, .queue index task.event] acts) ∧
      Failure calls index task.event error acts

section Snoc

variable {event : Event} {rest : List SessionAct} {error : Error}

theorem Refused.snoc (refused : Refused calls index event rest acts) (act : SessionAct) :
    Refused calls index event rest (acts ++ [act]) := by
  obtain ⟨message, authenticates, chain⟩ := refused
  exact ⟨message, authenticates, sublist_snoc chain act⟩

theorem Refused.last (refused : Refused calls index event rest acts) (act : SessionAct) :
    Refused calls index event (rest ++ [act]) (acts ++ [act]) := by
  obtain ⟨message, authenticates, chain⟩ := refused
  exact ⟨message, authenticates, sublist_last chain act⟩

theorem Failure.snoc (failure : Failure calls index event error acts) (act : SessionAct)
    (quiet : act.queues index = false) : Failure calls index event error (acts ++ [act]) := by
  rcases failure with ⟨message, same, chain, why⟩ | ⟨same, heard⟩ | ⟨same, status, closed, heard⟩ |
    ⟨unheard, lost⟩ | notQueued
  · exact .inl ⟨message, same, sublist_snoc chain act, by simpa [quiet] using why⟩
  · exact .inr (.inl ⟨same, List.mem_append_left _ heard⟩)
  · exact .inr (.inr (.inl ⟨same, status, closed, List.mem_append_left _ heard⟩))
  · exact .inr (.inr (.inr (.inl ⟨unheard, List.mem_append_left _ lost⟩)))
  · exact .inr (.inr (.inr (.inr (List.mem_append_left _ notQueued))))

/-- What others do leaves the evidence as it is. -/
theorem Evidence.snoc (evidence : task.Evidence calls index acts) (act : SessionAct)
    (quiet : act.queues index = false) : task.Evidence calls index (acts ++ [act]) := by
  obtain ⟨event, waitForOk, position, phase⟩ := task
  have same : timesQueued index (acts ++ [act]) = timesQueued index acts := by simp [quiet]
  cases phase with
  | sending again =>
      cases again with
      | false => exact same.trans evidence
      | true => exact ⟨evidence.1, same.trans evidence.2.1, evidence.2.2.snoc act⟩
  | waitingOk again =>
      cases again with
      | false => exact ⟨evidence.1, same.trans evidence.2.1, sublist_snoc evidence.2.2 act⟩
      | true => exact ⟨evidence.1, same.trans evidence.2.1, evidence.2.2.snoc act⟩
  | waitingAuthentication => exact ⟨evidence.1, same.trans evidence.2.1, evidence.2.2.snoc act⟩
  | finished result =>
      rcases result with error | sent | answer
      · obtain ⟨few, twice, failure⟩ := evidence
        exact ⟨same.trans_le few, fun now => (twice (same.symm.trans now)).snoc act, failure.snoc act quiet⟩
      · exact ⟨evidence.1, same.trans evidence.2⟩
      · obtain ⟨waits, message, answered, once | twice⟩ := evidence
        · exact ⟨waits, message, answered, .inl ⟨same.trans once.1, sublist_snoc once.2 act⟩⟩
        · exact ⟨waits, message, answered, .inr ⟨same.trans twice.1, twice.2.snoc act⟩⟩

end Snoc

theorem Evidence.few (evidence : task.Evidence calls index acts) : timesQueued index acts ≤ 2 := by
  obtain ⟨event, waitForOk, position, phase⟩ := task
  cases phase with
  | sending again =>
      cases again with
      | false =>
          have none : timesQueued index acts = 0 := evidence
          omega
      | true => exact evidence.2.1.trans_le (by omega)
  | waitingOk again =>
      cases again with
      | false => exact evidence.2.1.trans_le (by omega)
      | true => exact evidence.2.1.le
  | waitingAuthentication => exact evidence.2.1.trans_le (by omega)
  | finished result =>
      rcases result with error | sent | answer
      · exact evidence.1
      · exact evidence.2.trans_le (by omega)
      · obtain ⟨_, _, _, ⟨once, _⟩ | ⟨twice, _⟩⟩ := evidence
        · omega
        · omega

/-- An event that was queued twice was refused before. -/
theorem Evidence.twice (evidence : task.Evidence calls index acts) (twice : timesQueued index acts = 2) :
    Refused calls index task.event [.hear index .authenticated, .queue index task.event] acts := by
  obtain ⟨event, waitForOk, position, phase⟩ := task
  cases phase with
  | sending again =>
      cases again with
      | false =>
          have none : timesQueued index acts = 0 := evidence
          omega
      | true =>
          obtain ⟨_, once, _⟩ := evidence
          omega
  | waitingOk again =>
      cases again with
      | false =>
          obtain ⟨_, once, _⟩ := evidence
          omega
      | true => exact evidence.2.2
  | waitingAuthentication =>
      obtain ⟨_, once, _⟩ := evidence
      omega
  | finished result =>
      rcases result with error | sent | answer
      · exact evidence.2.1 twice
      · obtain ⟨_, once⟩ := evidence
        omega
      · obtain ⟨_, _, _, ⟨once, _⟩ | ⟨_, message, authenticates, chain⟩⟩ := evidence
        · omega
        · refine ⟨message, authenticates, .trans ?_ chain⟩
          simp

/-- What ends a call with an error while it has queued no more. -/
theorem Evidence.fail (evidence : task.Evidence calls index acts) {error : Error}
    (failure : Failure calls index task.event error acts) : (task.fail error).Evidence calls index acts :=
  ⟨evidence.few, evidence.twice, failure⟩

theorem Evidence.queued (evidence : task.Evidence calls index acts) {again : Bool}
    (sending : task.phase = .sending again) :
    (task.queued again).Evidence calls index (acts ++ [.queue index task.event]) := by
  obtain ⟨event, waitForOk, position, phase⟩ := task
  cases sending
  have once : timesQueued index (acts ++ [.queue index event]) = timesQueued index acts + 1 := by
    simp [SessionAct.queues]
  cases again with
  | false =>
      have none : timesQueued index acts = 0 := evidence
      rw [none] at once
      cases waitForOk with
      | false => exact ⟨rfl, once⟩
      | true => exact ⟨rfl, once, sublist_last (List.nil_sublist acts) _⟩
  | true =>
      obtain ⟨rfl, before, refused⟩ := evidence
      rw [before] at once
      exact ⟨rfl, once, refused.last _⟩

theorem heard_fields (authenticator : Bool) (notification : RelayNotification) (task : SendEvent) :
    (task.heard authenticator notification).event = task.event ∧
      (task.heard authenticator notification).waitForOk = task.waitForOk ∧
      (task.heard authenticator notification).position = task.position + 1 := by
  unfold heard
  dsimp only
  split
  next =>
    split
    next => exact ⟨rfl, rfl, rfl⟩
    next => exact ⟨rfl, rfl, rfl⟩
    next => exact ⟨rfl, rfl, rfl⟩
    next => split <;> exact ⟨rfl, rfl, rfl⟩
  next => split <;> exact ⟨rfl, rfl, rfl⟩
  next => exact ⟨rfl, rfl, rfl⟩

/-- What `wait_for_ok` fails for was told of. -/
theorem okOf_error {id : EventId} {notification : RelayNotification} {error : Error}
    (found : okOf id notification = some (.error error)) : error = .notConnected ∧
      ∃ status : RelayStatus, status.isConnectionClosed = true ∧ notification = .relayStatus status := by
  cases notification with
  | message given =>
      cases given with
      | ok other status message =>
          simp only [okOf] at found
          split at found <;> cases found
      | _ => cases found
  | relayStatus status =>
      simp only [okOf] at found
      split at found
      next closed =>
        cases found
        exact ⟨rfl, status, closed, rfl⟩
      next => cases found
  | _ => cases found

theorem authenticationOf_ok {notification : RelayNotification}
    (found : authenticationOf notification = some (.ok ())) : notification = .authenticated := by
  cases notification with
  | authenticated => rfl
  | relayStatus status =>
      simp only [authenticationOf] at found
      split at found <;> cases found
  | _ => cases found

theorem authenticationOf_error {notification : RelayNotification} {error : Error}
    (found : authenticationOf notification = some (.error error)) :
    (error = .authenticationMsg "authentication failed" ∧ notification = .authenticationFailed) ∨
    error = .notConnected ∧ ∃ status : RelayStatus, status.isConnectionClosed = true ∧
      notification = .relayStatus status := by
  cases notification with
  | authenticationFailed =>
      cases found
      exact .inl ⟨rfl, rfl⟩
  | relayStatus status =>
      simp only [authenticationOf] at found
      split at found
      next closed =>
        cases found
        exact .inr ⟨rfl, status, closed, rfl⟩
      next => cases found
  | _ => cases found

theorem Evidence.heard (evidence : task.Evidence calls index acts) (waits : task.Waits)
    (notification : RelayNotification) :
    (task.heard calls.authenticator notification).Evidence calls index (acts ++ [.hear index notification]) := by
  have kept := evidence.snoc (.hear index notification) rfl
  obtain ⟨event, waitForOk, position, phase⟩ := task
  have listed : ∀ notification, .hear index notification ∈ acts ++ [.hear index notification] := by simp
  have same : timesQueued index (acts ++ [.hear index notification]) = timesQueued index acts := by
    simp [SessionAct.queues]
  cases phase with
  | sending again => simp [Waits] at waits
  | finished result => simp [Waits] at waits
  | waitingAuthentication =>
      obtain ⟨isWaiting, once, refused⟩ := evidence
      simp only [SendEvent.heard]
      split
      next => exact kept
      next error failed =>
        refine Evidence.fail kept ?_
        rcases authenticationOf_error failed with ⟨rfl, rfl⟩ | ⟨rfl, status, closed, rfl⟩
        · exact .inr (.inl ⟨rfl, listed _⟩)
        · exact .inr (.inr (.inl ⟨rfl, status, closed, listed _⟩))
      next told =>
        cases authenticationOf_ok told
        exact ⟨isWaiting, same.trans once, refused.last _⟩
  | waitingOk again =>
      have closes : ∀ error, okOf event.id notification = some (.error error) →
          SendEvent.Evidence calls index (acts ++ [.hear index notification])
            ⟨event, waitForOk, position + 1, .finished (.error error)⟩ := by
        intro error failed
        obtain ⟨rfl, status, closed, rfl⟩ := okOf_error failed
        exact Evidence.fail kept (.inr (.inr (.inl ⟨rfl, status, closed, listed _⟩)))
      cases again with
      | false =>
          obtain ⟨isWaiting, once, queued⟩ := evidence
          simp only [SendEvent.heard]
          split
          next => exact kept
          next error failed => exact closes error failed
          next message accepted =>
            cases okOf_ok accepted
            exact ⟨isWaiting, message, rfl, .inl ⟨same.trans once, sublist_last queued _⟩⟩
          next message refused =>
            cases okOf_ok refused
            split
            next authenticates =>
              exact ⟨isWaiting, same.trans once, message, by simpa using authenticates, sublist_last queued _⟩
            next unable =>
              exact Evidence.fail kept (.inl ⟨message, rfl, sublist_last queued _, .inr (by simpa using unable)⟩)
      | true =>
          obtain ⟨isWaiting, twice, refused⟩ := evidence
          simp only [SendEvent.heard]
          split
          next => exact kept
          next error failed => exact closes error failed
          next message accepted =>
            cases okOf_ok accepted
            exact ⟨isWaiting, message, rfl, .inr ⟨same.trans twice, refused.last _⟩⟩
          next message rejected =>
            cases okOf_ok rejected
            rw [if_neg (by simp)]
            refine Evidence.fail kept (.inl ⟨message, rfl, ?_, .inl (same.trans twice)⟩)
            obtain ⟨first, _, chain⟩ := refused
            have queued : [.queue index event].Sublist acts := List.singleton_sublist.mpr
              (chain.subset (by simp))
            exact sublist_last queued _

end SendEvent

/-! ## All calls of a session -/

structure Sending (calls : SessionCalls) (acts : List SessionAct) (session : Session) : Prop where
  evidence : ∀ (index : Nat) (task : SendEvent), session.sends[index]? = some task →
    task.Evidence calls index acts
  subscribed : ∀ (index : Nat) (task : SendEvent), session.sends[index]? = some task →
    Subscribed acts (.start index task.event task.waitForOk) task.position (heardIn index acts)
  fresh : ∀ index, session.sends.length ≤ index → timesQueued index acts = 0 ∧ heardIn index acts = []

/-- A step that no call takes. -/
theorem Sending.other (sending : Sending calls acts session) (act : SessionAct)
    (noQueue : ∀ index, act.queues index = false) (deaf : ∀ index, act.heardBy index = [])
    (same : after.sends = session.sends) : Sending calls (acts ++ [act]) after := by
  obtain ⟨evidence, subscribed, fresh⟩ := sending
  refine ⟨fun index task here => ?_, fun index task here => ?_, fun index beyond => ?_⟩
  · exact (evidence index task (same ▸ here)).snoc act (noQueue index)
  · rw [heardIn_snoc, deaf, List.append_nil]
    exact (subscribed index task (same ▸ here)).snoc act
  · simpa [noQueue, deaf] using fresh index (same ▸ beyond)

/-- A step of one call. -/
theorem Sending.one (sending : Sending calls acts session) {act : SessionAct} {task next : SendEvent}
    (here : session.sends[index]? = some task) (noQueue : ∀ other ≠ index, act.queues other = false)
    (deaf : ∀ other ≠ index, act.heardBy other = []) (event : next.event = task.event)
    (waitForOk : next.waitForOk = task.waitForOk) (evidence : next.Evidence calls index (acts ++ [act]))
    (subscribed : Subscribed (acts ++ [act]) (.start index task.event task.waitForOk) next.position
      (heardIn index (acts ++ [act]))) :
    Sending calls (acts ++ [act]) { session with sends := session.sends.set index next } := by
  have inside : index < session.sends.length := (List.getElem?_eq_some_iff.mp here).1
  refine ⟨fun other given found => ?_, fun other given found => ?_, fun other beyond => ?_⟩
  · by_cases same : index = other
    · subst same
      have same : next = given := by simpa [List.getElem?_set_self inside] using found
      exact same ▸ evidence
    · rw [List.getElem?_set_ne same] at found
      exact (sending.evidence other given found).snoc act (noQueue other (Ne.symm same))
  · by_cases same : index = other
    · subst same
      have same : next = given := by simpa [List.getElem?_set_self inside] using found
      subst same
      rw [event, waitForOk]
      exact subscribed
    · rw [List.getElem?_set_ne same] at found
      rw [heardIn_snoc, deaf other (Ne.symm same), List.append_nil]
      exact (sending.subscribed other given found).snoc act
  · have beyond : session.sends.length ≤ other := by simpa using beyond
    have differ : other ≠ index := by omega
    simpa [noQueue other differ, deaf other differ] using sending.fresh other beyond

theorem Sending.start (sending : Sending calls acts session) (log : session.log = notifiedIn acts)
    (event : Event) (waitForOk : Bool) :
    Sending calls (acts ++ [.start session.sends.length event waitForOk])
      { session with sends := session.sends ++ [⟨event, waitForOk, session.log.length, .sending false⟩] } := by
  obtain ⟨evidence, subscribed, fresh⟩ := sending
  obtain ⟨none, deaf⟩ := fresh session.sends.length (Nat.le_refl _)
  refine ⟨fun index task found => ?_, fun index task found => ?_, fun index beyond => ?_⟩
  · rcases getElem?_snoc.mp found with old | ⟨rfl, rfl⟩
    · exact (evidence index task old).snoc _ rfl
    · exact (timesQueued_snoc).trans none
  · rcases getElem?_snoc.mp found with old | ⟨rfl, rfl⟩
    · simpa [SessionAct.heardBy] using (subscribed index task old).snoc _
    · rw [heardIn_snoc, deaf]
      exact .new _ _ (congrArg List.length log)
  · rw [List.length_append] at beyond
    simpa [SessionAct.queues, SessionAct.heardBy] using fresh index (by omega)

theorem Sending.step (sending : Sending calls acts session) (log : session.log = notifiedIn acts)
    (stepped : session.Step calls act after) : Sending calls (acts ++ [act]) after := by
  cases stepped with
  | start event waitForOk => exact sending.start log event waitForOk
  | frame message ready =>
      refine sending.other _ (fun _ => rfl) (fun _ => rfl) ?_
      cases message with
      | auth challenge =>
          simp only [Session.receive]
          split <;> rfl
      | _ => rfl
  | queue index task again here isSending =>
      have evidence := sending.evidence index task here
      refine sending.one here (fun other differ => ?_) (fun _ _ => rfl) rfl rfl (evidence.queued isSending) ?_
      · simpa [SessionAct.queues] using Ne.symm differ
      · simpa [SessionAct.heardBy, SendEvent.queued] using (sending.subscribed index task here).snoc _
  | notQueued index task again error here isSending =>
      have evidence := (sending.evidence index task here).snoc (.notQueued index error) rfl
      refine sending.one here (fun _ _ => rfl) (fun _ _ => rfl) rfl rfl ?_ ?_
      · exact evidence.fail (.inr (.inr (.inr (.inr (by simp)))))
      · simpa [SessionAct.heardBy, SendEvent.fail] using (sending.subscribed index task here).snoc _
  | giveUp index task error here waits unheard =>
      have evidence := (sending.evidence index task here).snoc (.giveUp index error) rfl
      refine sending.one here (fun _ _ => rfl) (fun _ _ => rfl) rfl rfl ?_ ?_
      · exact evidence.fail (.inr (.inr (.inr (.inl ⟨unheard, by simp⟩))))
      · simpa [SessionAct.heardBy, SendEvent.fail] using (sending.subscribed index task here).snoc _
  | hear index task notification here waits next =>
      have fields := SendEvent.heard_fields calls.authenticator notification task
      have subscribed := (sending.subscribed index task here).hear rfl (log ▸ next)
      refine sending.one here (fun _ _ => rfl) (fun other differ => ?_) fields.1 fields.2.1
        ((sending.evidence index task here).heard waits notification) ?_
      · exact if_neg (Ne.symm differ)
      · rw [fields.2.2]
        simpa [SessionAct.heardBy] using subscribed.snoc _
  | _ => exact sending.other _ (fun _ => rfl) (fun _ => rfl) rfl

theorem sending_of_run (run : Run (Session.Step calls) .start acts session) : Sending calls acts session := by
  induction run with
  | nil => exact ⟨by simp [Session.start], by simp [Session.start], fun _ _ => ⟨rfl, rfl⟩⟩
  | snoc before last sending => exact sending.step (authenticating_of_run before).log last

/-! ## Results -/

theorem mem_heardIn {notification : RelayNotification} (heard : .hear index notification ∈ acts) :
    notification ∈ heardIn index acts :=
  List.mem_flatMap.mpr ⟨_, heard, by simp [SessionAct.heardBy]⟩

/-- What is told of an authentication was done before. -/
theorem accepted_of_announce (run : Run (Session.Step calls) .start acts session) {before since : List SessionAct}
    (told : acts = before ++ .announce true :: since) : Accepted calls before := by
  subst told
  obtain ⟨middle, earlier, later⟩ := run.cut
  obtain ⟨_, announced, _⟩ := later.first
  have evidence := (authenticating_of_run earlier).ingester
  cases announced with
  | announce _ announcing =>
      rw [announcing] at evidence
      exact evidence

theorem Accepted.append (accepted : Accepted calls acts) (later : List SessionAct) :
    Accepted calls (acts ++ later) := by
  induction later using List.reverseRecOn with
  | nil => simpa using accepted
  | append_singleton later last ih =>
      rw [← List.append_assoc]
      exact ih.snoc last

theorem Sending.accepted (run : Run (Session.Step calls) .start acts session)
    (here : session.sends[index]? = some task) (heard : .hear index .authenticated ∈ acts) : Accepted calls acts := by
  obtain ⟨before, since, split, _, told⟩ := (sending_of_run run).subscribed index task here
  have announced := announce_mem_of_authenticated (told.subset (mem_heardIn heard))
  have member : .announce true ∈ acts := by simp [split, announced]
  obtain ⟨before, since, split⟩ := List.append_of_mem member
  have accepted := accepted_of_announce run split
  rw [split]
  exact accepted.append _

end RustNostr.NostrSdk
