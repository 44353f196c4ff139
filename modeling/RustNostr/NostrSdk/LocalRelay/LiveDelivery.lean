import Mathlib
import RustNostr.NostrSdk.LocalRelay.Authentication
import RustNostr.NostrSdk.LocalRelay.Requests
import RustNostr.NostrSdk.LocalRelay.Sessions

/-!
# Live events

No event is lost between the stored events and the live ones of a subscription,
however the sessions of the relay interleave.
-/

set_option autoImplicit false

namespace RustNostr.NostrSdk.LocalRelay

open Library Transaction Handler InnerLocalRelay

variable {κ ν : Type} {relay : InnerLocalRelay ν}

/-! ## What is accepted is broadcast -/

section Accepting

variable {surroundings : Surroundings} {event : Event}

/-- Nothing is broadcast, and the event is not accepted. -/
structure Unannounced (event : Event) (conversation : Conversation ν) : Prop where
  broadcasts : conversation.broadcasts = []
  outputs : ∀ output ∈ conversation.outputs, output.message ≠ .ok event.id true ""

theorem Unannounced.output {conversation : Conversation ν} {output : Output}
    (unannounced : Unannounced event conversation)
    (other : output.message ≠ .ok event.id true "") :
    ∀ output' ∈ conversation.outputs ++ [output], output'.message ≠ .ok event.id true "" := by
  intro output' member
  cases List.mem_append.mp member with
  | inl before => exact unannounced.outputs output' before
  | inr here =>
      cases List.mem_singleton.mp here
      exact other

/-- An accepted event has been broadcast. -/
def Announces (event : Event) (conversation : Conversation ν) : Prop :=
  { message := .ok event.id true "" } ∈ conversation.outputs → conversation.broadcasts = [event]

theorem Unannounced.announces {conversation : Conversation ν}
    (unannounced : Unannounced event conversation) : Announces event conversation :=
  fun accepted => absurd rfl (unannounced.outputs _ accepted)

theorem replying_unannounced (event : Event) :
    Replying (fun message => message ≠ .ok event.id true "")
      (Unannounced event : Conversation ν → Prop) where
  tell _ _ other unannounced := ⟨unannounced.broadcasts, unannounced.output other⟩
  challenge _ _ unannounced := ⟨unannounced.broadcasts, unannounced.output nofun⟩

theorem ok_ne {status : Bool} {text : String} (reason : text ≠ "") :
    RelayMessage.ok event.id status text ≠ .ok event.id true "" := by
  intro same
  cases same
  exact reason rfl

theorem storeEvent_announces :
    Triple (Unannounced event) (storeEvent surroundings event : Handler ν Unit)
      fun _ => Announces event := by
  have replying := replying_unannounced (ν := ν) event
  unfold storeEvent
  refine Preserves.then_triple (propagate_preserves _) (fun _ _ => Unannounced.announces)
    fun status => ?_
  refine Preserves.then_triple (replying.checkStatus (fun _ _ => ok_ne) status)
    (fun _ _ => Unannounced.announces) fun _ => ?_
  intro conversation unannounced
  have announced : ∀ session outputs, Announces event
      { session, outputs, broadcasts := conversation.broadcasts ++ [event] : Conversation ν } := by
    intro _ _ _
    rw [unannounced.broadcasts]
    rfl
  cases event.kind.isEphemeral with
  | true => exact announced _ _
  | false =>
      have refused : ∀ text, Announces event (conversation.tell (okFalse event .error text)) :=
        fun text => (replying.tell conversation _ (ok_ne (text_ne _ _)) unannounced).announces
      cases surroundings.database.saveEvent event with
      | error error => exact refused "database error"
      | ok status =>
          cases status with
          | success => exact announced _ _
          | rejected reason => exact refused "unknown"

theorem handleEvent_announces (messageSize : Nat) :
    Triple (Unannounced event) (relay.handleEvent surroundings event messageSize)
      fun _ => Announces event := by
  have replying := replying_unannounced (ν := ν) event
  refine Preserves.then_triple (replying.checkEvent relay surroundings (fun _ _ => ok_ne) messageSize)
    (fun _ _ => Unannounced.announces) fun _ => ?_
  exact Preserves.then_triple (replying.authorizeEvent relay surroundings fun _ _ => ok_ne)
    (fun _ _ => Unannounced.announces) fun _ => storeEvent_announces

/-- Where a client is answered OK without a reason to its EVENT, the event is
broadcast. -/
theorem broadcasts_of_accepted {connection : Connection ν} {messageSize : Nat}
    (accepted : { message := .ok event.id true "" } ∈
      (relay.handleWebsocket connection (.text (.event event) messageSize surroundings)).outputs) :
    (relay.handleWebsocket connection (.text (.event event) messageSize surroundings)).broadcasts =
      [event] :=
  handleEvent_announces messageSize { session := connection.session }
    ⟨rfl, fun _ absurd => by cases absurd⟩ accepted

end Accepting

/-! ## Delivery -/

abbrev SessionsTrace (κ ν : Type) := List (Sessions κ ν × SessionsLabel κ)

/-- The connection is open and has the subscription. -/
def Sessions.Registered (sessions : Sessions κ ν) (client : κ) (id : SubscriptionId)
    (subscription : Subscription) : Prop :=
  ∃ member, sessions.members client = some member ∧ member.connection.isOpen = true ∧
    member.connection.session.subscriptions.get? id = some subscription

/-- The event is sent to the client for the subscription. -/
def Delivered [DecidableEq κ] (trace : SessionsTrace κ ν) (client : κ) (id : SubscriptionId)
    (event : Event) : Prop :=
  ∃ entry ∈ trace, { message := .event id event, discloses := [event] } ∈ entry.2.outputs client

instance [DecidableEq κ] (trace : SessionsTrace κ ν) (client : κ) (id : SubscriptionId)
    (event : Event) : Decidable (Delivered trace client id event) :=
  inferInstanceAs (Decidable (∃ _ ∈ trace, _))

/-- A client publishes the event here, and is answered OK without a reason. -/
def AcceptsEvent (relay : InnerLocalRelay ν) (event : Event)
    (entry : Sessions κ ν × SessionsLabel κ) : Prop :=
  ∃ client member messageSize surroundings outputs,
    entry.2 = .act client .announce outputs ∧ entry.1.members client = some member ∧
      member.handling = some {
        message := .event event, messageSize, progress := .consulted surroundings } ∧
      { message := .ok event.id true "" } ∈ (relay.handleWebsocket member.connection
        (.text (.event event) messageSize surroundings)).outputs

section Delivery

variable [DecidableEq κ] {sessions sessions' : Sessions κ ν} {trace : SessionsTrace κ ν} {client : κ}
  {id : SubscriptionId} {subscription : Subscription} {event : Event}

theorem prefix_of_traced (run : Run (Traced relay.SessionsStep) sessions trace sessions') :
    sessions.newEvent <+: sessions'.newEvent := by
  obtain ⟨_, run⟩ := run.of_traced
  exact newEvent_prefix run

theorem getElem?_later {newEvent newEvent' : List Event} {i : Nat} (grows : newEvent <+: newEvent')
    (found : newEvent[i]? = some event) : newEvent'[i]? = some event := by
  obtain ⟨rest, same⟩ := grows
  rw [← same, List.getElem?_append_left (List.getElem?_eq_some_iff.mp found).1, found]

theorem newEvent_of_accepts {entry : Sessions κ ν × SessionsLabel κ}
    (accepts : AcceptsEvent relay event entry)
    (step : relay.SessionsStep entry.1 entry.2 sessions') :
    sessions'.newEvent = entry.1.newEvent ++ [event] := by
  obtain ⟨publisher, member, messageSize, surroundings, outputs, label, present, handling,
    accepted⟩ := accepts
  rw [label] at step
  cases step with
  | act present' step =>
      cases Option.some.inj (present.symm.trans present')
      cases step with
      | announce handling' =>
          cases Option.some.inj (handling.symm.trans handling')
          rw [broadcasts_of_accepted accepted]

/-- What is accepted in a run is in the channel behind what was there before. -/
theorem exists_of_accepts (run : Run (Traced relay.SessionsStep) sessions trace sessions')
    {entry : Sessions κ ν × SessionsLabel κ} (member : entry ∈ trace)
    (accepts : AcceptsEvent relay event entry) :
    ∃ i, sessions.newEvent.length ≤ i ∧ sessions'.newEvent[i]? = some event := by
  induction run with
  | nil => cases member
  | snoc before step ih =>
      obtain ⟨same, step⟩ := step
      cases List.mem_append.mp member with
      | inl earlier =>
          obtain ⟨i, behind, found⟩ := ih earlier
          exact ⟨i, behind, getElem?_later (newEvent_prefix_of_step step) found⟩
      | inr here =>
          cases List.mem_singleton.mp here
          subst same
          rw [newEvent_of_accepts accepts step]
          exact ⟨_, (prefix_of_traced before).length_le, List.getElem?_concat_length⟩

/-- While a client's message is handled, its receiver stays where it is. -/
theorem still_handling {member : Member ν} {message : ClientMessage} {messageSize : Nat}
    {surroundings : Surroundings} (present : sessions.members client = some member)
    (handling : member.handling = some {
      message, messageSize, progress := .consulted surroundings })
    (run : Run (Traced relay.SessionsStep) sessions trace sessions')
    (unfinished : ∀ entry ∈ trace, ∀ outputs, entry.2 ≠ .act client .finish outputs) :
    ∃ handling, sessions'.members client = some { member with handling := some handling } ∧
      handling.message = message ∧ handling.messageSize = messageSize ∧
      (handling.progress = .consulted surroundings ∨
        handling.progress = .announced surroundings) := by
  induction run with
  | nil => exact ⟨_, by rw [present, ← handling], rfl, rfl, .inl rfl⟩
  | snoc before step ih =>
      obtain ⟨current, reached, same, sameSize, progress⟩ :=
        ih fun entry listed => unfinished entry (List.mem_append_left _ listed)
      obtain ⟨_, step⟩ := step
      rcases member_of_step step reached with stays | ⟨act, outputs, _, _, label, step, after⟩
      · exact ⟨current, stays, same, sameSize, progress⟩
      · cases step with
        | begin _ idle => cases idle
        | consult started =>
            cases Option.some.inj started
            rcases progress with absurd | absurd <;> cases absurd
        | @announce _ _ surroundings' consulted =>
            cases Option.some.inj consulted
            refine ⟨_, after, same, sameSize, .inr ?_⟩
            rcases progress with same | absurd
            · cases same
              rfl
            · cases absurd
        | finish => exact absurd label (unfinished _ (by simp) _)
        | receive _ idle => cases idle
        | lag _ idle => cases idle
        | frame _ idle => cases idle

theorem mem_sendLive {session : Session ν}
    (registered : session.subscriptions.get? id = some subscription)
    (wanted : subscription.filters.any (fun filter => filter.matchEvent event {}) = true) :
    { message := .event id event, discloses := [event] } ∈ sendLive session event :=
  List.mem_map.mpr ⟨(id, subscription),
    List.mem_filter.mpr ⟨SortedTable.get?_eq_some.mp registered, wanted⟩, rfl⟩

theorem outputs_act {label : SessionsLabel κ} {act : Act} {outputs : List Output}
    (same : label = .act client act outputs) : label.outputs client = outputs := by
  rw [same]
  exact if_pos rfl

theorem Delivered.append {more : SessionsTrace κ ν} (delivered : Delivered trace client id event) :
    Delivered (trace ++ more) client id event := by
  obtain ⟨entry, member, rest⟩ := delivered
  exact ⟨entry, List.mem_append_left _ member, rest⟩

/-- While a subscription is registered, every matching event that the receiver
passes is sent for it. -/
theorem delivered_of_passed {member : Member ν} (valid : sessions.Valid)
    (present : sessions.members client = some member)
    (run : Run (Traced relay.SessionsStep) sessions trace sessions')
    (stays : ∀ entry ∈ trace, entry.1.Registered client id subscription)
    (registered : sessions'.Registered client id subscription)
    (wanted : subscription.filters.any (fun filter => filter.matchEvent event {}) = true)
    {member' : Member ν} (present' : sessions'.members client = some member') {i : Nat}
    (behind : member.next ≤ i) (passed : i < member'.next)
    (found : sessions'.newEvent[i]? = some event) : Delivered trace client id event := by
  induction run generalizing member' with
  | nil =>
      cases Option.some.inj (present.symm.trans present')
      omega
  | @snoc trace middle sessions' entry before step ih =>
      obtain ⟨same, whole⟩ := step
      obtain ⟨current, reached, isOpen, kept⟩ : middle.Registered client id subscription :=
        same ▸ stays entry (by simp)
      by_cases earlier : i < current.next
      · have bound : i < middle.newEvent.length := by
          obtain ⟨_, run⟩ := before.of_traced
          exact earlier.trans_le ((valid.run run) client current reached).next_le
        have found : middle.newEvent[i]? = some event := by
          obtain ⟨rest, grows⟩ := newEvent_prefix_of_step whole
          rwa [← grows, List.getElem?_append_left bound] at found
        exact (ih (fun entry listed => stays entry (List.mem_append_left _ listed))
          ⟨current, reached, isOpen, kept⟩ reached earlier found).append
      · rcases member_of_step whole reached with unchanged | ⟨act, outputs, _, next, label, step, after⟩
        · cases Option.some.inj (present'.symm.trans unchanged)
          exact absurd passed earlier
        · cases Option.some.inj (present'.symm.trans after)
          cases step with
          | begin => exact absurd passed earlier
          | consult => exact absurd passed earlier
          | announce => exact absurd passed earlier
          | finish => exact absurd passed earlier
          | frame => exact absurd passed earlier
          | @receive received _ _ sent =>
              have passed : i < current.next + 1 := passed
              have here : i = current.next := by omega
              subst here
              have later := getElem?_later (newEvent_prefix_of_step whole) sent
              cases Option.some.inj (later.symm.trans found)
              exact ⟨entry, by simp, outputs_act label ▸ mem_sendLive kept wanted⟩
          | lag =>
              obtain ⟨member, present'', _, gone⟩ := registered
              cases Option.some.inj (present''.symm.trans after)
              cases gone

theorem receives_next {member : Member ν} (relay : InnerLocalRelay ν)
    (present : sessions.members client = some member) (idle : member.handling = none)
    (isOpen : member.connection.isOpen = true)
    (found : sessions.newEvent[member.next]? = some event) :
    ∃ sessions',
      relay.SessionsStep sessions (.act client .receive (sendLive member.connection.session event))
        sessions' ∧
      sessions'.members client = some { member with next := member.next + 1 } ∧
      sessions'.newEvent = sessions.newEvent :=
  ⟨_, .act present (.receive isOpen idle found), Function.update_self _ _ _, List.append_nil _⟩

/-- A receiver that goes on comes to the event, and it is sent. -/
theorem receives_ahead {member : Member ν} {n : Nat}
    (present : sessions.members client = some member) (idle : member.handling = none)
    (isOpen : member.connection.isOpen = true)
    (registered : member.connection.session.subscriptions.get? id = some subscription)
    (wanted : subscription.filters.any (fun filter => filter.matchEvent event {}) = true)
    (found : sessions.newEvent[member.next + n]? = some event) :
    ∃ more finish, Run (Traced relay.SessionsStep) sessions more finish ∧
      (∀ entry ∈ more, ∃ outputs, entry.2 = .act client .receive outputs) ∧
      Delivered more client id event := by
  induction n generalizing sessions member with
  | zero =>
      obtain ⟨_, step, _, _⟩ := receives_next relay present idle isOpen found
      refine ⟨_, _, Run.nil.trace step, by simp, _, List.mem_singleton_self _, ?_⟩
      rw [outputs_act rfl]
      exact mem_sendLive registered wanted
  | succ n ih =>
      have bound := (List.getElem?_eq_some_iff.mp found).1
      have next : sessions.newEvent[member.next]? = some (sessions.newEvent[member.next]) :=
        List.getElem?_eq_getElem (by omega)
      obtain ⟨sessions', step, present', newEvent⟩ :=
        receives_next relay present idle isOpen next
      obtain ⟨more, finish, run, receives, delivered⟩ := ih present' idle isOpen registered (by
        rw [newEvent, Nat.add_assoc, Nat.add_comm 1 n]
        exact found)
      refine ⟨(sessions, .act client .receive _) :: more, finish, run.cons ⟨rfl, step⟩,
        fun entry member => ?_, ?_⟩
      · cases List.mem_cons.mp member with
        | inl first =>
            subst first
            exact ⟨_, rfl⟩
        | inr later => exact receives entry later
      · obtain ⟨entry, member, rest⟩ := delivered
        exact ⟨entry, List.mem_cons_of_mem _ member, rest⟩

/-- The event is ahead of the client's receiver, which comes to it and has it
sent if it goes on. -/
def Awaits (relay : InnerLocalRelay ν) (sessions : Sessions κ ν) (client : κ) (id : SubscriptionId)
    (event : Event) : Prop :=
  ∃ member i, sessions.members client = some member ∧ member.next ≤ i ∧
    sessions.newEvent[i]? = some event ∧
      (member.handling = none → ∃ more finish,
        Run (Traced relay.SessionsStep) sessions more finish ∧
          (∀ entry ∈ more, ∃ outputs, entry.2 = .act client .receive outputs) ∧
          Delivered more client id event)

/-- From any reachable state in which a client's REQ has asked the database: an
event that is broadcast from then on, to a client that is answered OK, and that
matches a filter of the REQ's subscription while that stays registered, has been
sent for it or is ahead of the receiver. -/
theorem run_live_events (relay : InnerLocalRelay ν) {labels : List (SessionsLabel κ)}
    (reached : Run relay.SessionsStep {} labels sessions) {member : Member ν}
    (present : sessions.members client = some member) {filters served : List Filter}
    {messageSize : Nat} {surroundings : Surroundings}
    (handling : member.handling = some {
      message := .req id filters, messageSize, progress := .consulted surroundings })
    {first rest : SessionsTrace κ ν} {middle registered final : Sessions κ ν}
    {outputs : List Output} (before : Run (Traced relay.SessionsStep) sessions first middle)
    (unfinished : ∀ entry ∈ first, ∀ outputs, entry.2 ≠ .act client .finish outputs)
    (finish : relay.SessionsStep middle (.act client .finish outputs) registered)
    (after : Run (Traced relay.SessionsStep) registered rest final)
    (stays : ∀ entry ∈ rest, entry.1.Registered client id { filters := served, size := messageSize })
    (stays_final : final.Registered client id { filters := served, size := messageSize })
    (wanted : ∃ filter ∈ served, filter.matchEvent event {} = true)
    (accepted : ∃ entry ∈ first ++ rest, AcceptsEvent relay event entry) :
    Delivered rest client id event ∨ Awaits relay final client id event := by
  have wanted : List.any (Subscription.filters { filters := served, size := messageSize })
      (fun filter => filter.matchEvent event {}) = true := by
    simpa [List.any_eq_true] using wanted
  obtain ⟨current, reached_middle, -, -, progress⟩ :=
    still_handling present handling before unfinished
  obtain ⟨registrant, after_finish, next⟩ : ∃ registrant,
      registered.members client = some registrant ∧ registrant.next = member.next := by
    rcases member_of_step finish reached_middle with same | ⟨_, _, _, _, label, step, after⟩
    · exact ⟨_, same, rfl⟩
    · cases label
      cases step with
      | finish => exact ⟨_, after, rfl⟩
  have valid : sessions.Valid := by
    have none : ({} : Sessions κ ν).Valid := fun _ _ absurd => by cases absurd
    exact none.run reached
  have valid_registered : registered.Valid := by
    obtain ⟨_, before⟩ := before.of_traced
    exact (valid.run before).run (Run.nil.snoc finish)
  obtain ⟨i, behind, found⟩ : ∃ i, sessions.newEvent.length ≤ i ∧
      final.newEvent[i]? = some event := by
    obtain ⟨entry, member, accepts⟩ := accepted
    cases List.mem_append.mp member with
    | inl earlier =>
        obtain ⟨i, behind, found⟩ := exists_of_accepts before earlier accepts
        have grows := (newEvent_prefix_of_step finish).trans (prefix_of_traced after)
        exact ⟨i, behind, getElem?_later grows found⟩
    | inr later =>
        obtain ⟨i, behind, found⟩ := exists_of_accepts after later accepts
        have grows := (prefix_of_traced before).trans (newEvent_prefix_of_step finish)
        exact ⟨i, grows.length_le.trans behind, found⟩
  obtain ⟨last, present_final, isOpen, kept⟩ := stays_final
  have ahead : registrant.next ≤ i := by
    have := (valid client member present).next_le
    omega
  by_cases passed : i < last.next
  · exact .inl (delivered_of_passed valid_registered after_finish after stays
      ⟨last, present_final, isOpen, kept⟩ wanted present_final ahead passed found)
  · obtain ⟨n, same⟩ := Nat.le.dest (Nat.le_of_not_lt passed)
    refine .inr ⟨last, i, present_final, Nat.le_of_not_lt passed, found, fun idle => ?_⟩
    exact receives_ahead present_final idle isOpen kept wanted (same ▸ found)

end Delivery

/-! ## An event whose OK is late -/

def ephemeralNote : Event :=
  { sampleAuth with kind := .custom 20000, tags := [] }

def ephemeralFilter : Filter where
  kinds := some (SortedSet.insert .empty 20000)

theorem run_live_events_between : ∃ (rest : SessionsTrace Bool Unit) (final : Sessions Bool Unit),
    Delivered rest true "s" ephemeralNote ∨ Awaits authRelay final true "s" ephemeralNote := by
  have run : Run authRelay.SessionsStep ({} : Sessions Bool Unit) [] {} := .nil
  have run := run.snoc (.connect rfl : authRelay.SessionsStep _ (.connect false) _)
  have run := run.snoc (.connect rfl : authRelay.SessionsStep _ (.connect true) _)
  have run := run.snoc (.act rfl (.begin rfl rfl) :
    authRelay.SessionsStep _ (.act true (.begin (.req "s" [ephemeralFilter]) 40) []) _)
  have reached := run.snoc (.act rfl (.consult rfl) :
    authRelay.SessionsStep _ (.act true (.consult sampleSurroundings) []) _)
  refine ⟨_, _, run_live_events authRelay reached rfl rfl
    ((((Run.nil.trace (.act rfl (.begin rfl rfl) :
        authRelay.SessionsStep _ (.act false (.begin (.event ephemeralNote) 100) []) _)).trace
      (.act rfl (.consult rfl) :
        authRelay.SessionsStep _ (.act false (.consult sampleSurroundings) []) _)).trace
      (.act rfl (.announce rfl) : authRelay.SessionsStep _ (.act false .announce _) _)).trace
      (.act rfl (.announce rfl) : authRelay.SessionsStep _ (.act true .announce _) _))
    ?_ (.act rfl (.finish rfl) : authRelay.SessionsStep _ (.act true .finish _) _)
    (Run.nil.trace (.act rfl (.receive rfl rfl rfl) :
      authRelay.SessionsStep _ (.act true .receive _) _)) ?_ ⟨_, rfl, rfl, rfl⟩
    ⟨{ ephemeralFilter with limit := some 500 }, List.mem_singleton_self _, by decide +kernel⟩ ?_⟩
  · intro entry member outputs label
    simp only [List.mem_append, List.mem_singleton, List.not_mem_nil, false_or] at member
    rcases member with ((same | same) | same) | same <;> subst same <;> cases label
  · intro entry member
    cases List.mem_singleton.mp member
    exact ⟨_, rfl, rfl, rfl⟩
  · exact ⟨_, List.mem_append_left _ (List.mem_append_left _ (List.mem_append_right _
      (List.mem_singleton_self _))), false, _, 100, sampleSurroundings, _, rfl, rfl, rfl,
      by decide +kernel⟩

/-- The publisher is `false` and the subscriber `true`. The event is broadcast, and taken up by a client without subscriptions, before
the REQ asks the database; its OK is sent afterwards. -/
theorem run_late_ok : ∃ before start after final,
    Run (Traced authRelay.SessionsStep) ({} : Sessions Bool Unit) before start ∧
      (∃ member messageSize surroundings, start.members true = some member ∧
        member.handling = some {
          message := .req "s" [ephemeralFilter], messageSize
          progress := .consulted surroundings }) ∧
      Run (Traced authRelay.SessionsStep) start after final ∧
      (∃ entry ∈ after, ∃ outputs, entry.2 = .act false .finish outputs ∧
        { message := .ok ephemeralNote.id true "" } ∈ outputs) ∧
      (∃ member subscription, final.members true = some member ∧
        member.connection.session.subscriptions.get? "s" = some subscription ∧
        subscription.filters.any (fun filter => filter.matchEvent ephemeralNote {}) = true ∧
        member.handling = none ∧ member.next = final.newEvent.length) ∧
      ¬ Delivered (before ++ after) true "s" ephemeralNote := by
  have run : Run (Traced authRelay.SessionsStep) ({} : Sessions Bool Unit) [] {} := .nil
  have run := run.trace (.connect rfl : authRelay.SessionsStep _ (.connect false) _)
  have run := run.trace (.connect rfl : authRelay.SessionsStep _ (.connect true) _)
  have run := run.trace (.act rfl (.begin rfl rfl) :
    authRelay.SessionsStep _ (.act false (.begin (.event ephemeralNote) 100) []) _)
  have run := run.trace (.act rfl (.consult rfl) :
    authRelay.SessionsStep _ (.act false (.consult sampleSurroundings) []) _)
  have run := run.trace (.act rfl (.announce rfl) :
    authRelay.SessionsStep _ (.act false .announce []) _)
  have run := run.trace (.act rfl (.receive rfl rfl rfl) :
    authRelay.SessionsStep _ (.act true .receive _) _)
  have run := run.trace (.act rfl (.begin rfl rfl) :
    authRelay.SessionsStep _ (.act true (.begin (.req "s" [ephemeralFilter]) 40) []) _)
  have start := run.trace (.act rfl (.consult rfl) :
    authRelay.SessionsStep _ (.act true (.consult sampleSurroundings) []) _)
  refine ⟨_, _, _, _, start, ⟨_, _, _, rfl, rfl⟩,
    ((Run.nil.trace (.act rfl (.finish rfl) :
      authRelay.SessionsStep _ (.act false .finish _) _)).trace (.act rfl (.announce rfl) :
      authRelay.SessionsStep _ (.act true .announce _) _)).trace (.act rfl (.finish rfl) :
      authRelay.SessionsStep _ (.act true .finish _) _), ?_, ?_, ?_⟩
  · exact ⟨_, List.mem_append_left _ (List.mem_append_left _ (List.mem_singleton_self _)), _, rfl,
      by decide +kernel⟩
  · exact ⟨_, { filters := [{ ephemeralFilter with limit := some 500 }], size := 40 }, rfl, rfl,
      by decide +kernel, rfl, rfl⟩
  · decide +kernel

end RustNostr.NostrSdk.LocalRelay
