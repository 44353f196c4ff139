import Mathlib
import RustNostr.NostrSdk.LocalRelay.GiftWraps
import RustNostr.NostrSdk.LocalRelay.Requests

/-!
# Closed subscriptions

Whether CLOSED is the last word on a subscription, and whether CLOSED without a
reason follows every event that was asked for by its ID.
-/

set_option autoImplicit false

namespace RustNostr.NostrSdk.LocalRelay

open Library Transaction Handler InnerLocalRelay

variable {ν : Type}

/-! ## What the claims are about -/

def Sends (label : Input × List Output) (message : RelayMessage) : Prop :=
  ∃ output ∈ label.2, output.message = message

/-- A turn that serves a REQ. -/
def AcceptsReq (label : Input × List Output) (id : SubscriptionId) : Prop :=
  (∃ filters messageSize surroundings, label.1 = .text (.req id filters) messageSize surroundings) ∧
    Sends label (.endOfStoredEvents id)

/-- No EVENT follows CLOSED among the outputs of one turn. -/
def ClosedLast (id : SubscriptionId) (outputs : List Output) : Prop :=
  ∀ first closing rest text, outputs = first ++ closing :: rest →
    closing.message = .closed id text → ∀ output ∈ rest, ∀ event, output.message ≠ .event id event

/-- After CLOSED no EVENT is sent until a REQ is accepted. -/
def ClosedIsFinal (history : List (Input × List Output)) : Prop :=
  ∀ before closing after id text, history = before ++ closing :: after →
    Sends closing (.closed id text) →
      ClosedLast id closing.2 ∧
        ∀ between later rest event, after = between ++ later :: rest →
          Sends later (.event id event) → ∃ label ∈ between ++ [later], AcceptsReq label id

/-- The IDs that filters list. -/
def askedIds (filters : List Filter) : List EventId :=
  filters.flatMap fun filter => filter.ids.elim [] SortedSet.elems

/-- CLOSED without a reason only follows all events asked for. -/
def ServesAsked (label : Input × List Output) : Prop :=
  ∀ id, Sends label (.closed id "") →
    ∃ filters messageSize surroundings, label.1 = .text (.req id filters) messageSize surroundings ∧
      ∀ eventId ∈ askedIds filters, ∃ event, event.id = eventId ∧ Sends label (.event id event)

namespace InnerLocalRelay

variable (relay : InnerLocalRelay ν) (surroundings : Surroundings)

/-- As many events are found as the filters list IDs. -/
def FindsAll (served : List Filter) (events : EventSet) : Prop :=
  relay.storedEvents surroundings served = .ok events ∧ idsLen served = some events.len

/-- What is found is what was asked for. -/
structure FindsAsked (filters : List Filter) (events : EventSet) : Prop where
  policy : ∀ filter ∈ filters, ∀ changed, relay.admitted filter = some changed →
    changed.ids = filter.ids
  listed : ∀ event ∈ events.values, event.id ∈ askedIds filters
  unique : (events.values.map Event.id).Nodup
  unexpired : ∀ event ∈ events.values, event.isExpiredAt surroundings.now = false

/-- A REQ for a registered subscription replaces it, and one that finds all
finds what was asked for. -/
structure ProperReq (session : Session ν) (id : SubscriptionId) (filters : List Filter)
    (requestSize : Nat) : Prop where
  admitted : (session.subscriptions.get? id).isSome →
    ∃ served, relay.AdmitsReq surroundings session id filters requestSize served
  kept : (session.subscriptions.get? id).isSome →
    ∀ served events, relay.AdmitsReq surroundings session id filters requestSize served →
      ¬ relay.FindsAll surroundings served events
  asked : ∀ served events, relay.AdmitsReq surroundings session id filters requestSize served →
    relay.FindsAll surroundings served events → relay.FindsAsked surroundings filters events

def Proper (session : Session ν) : Input → Prop
  | .text (.req id filters) messageSize surroundings =>
      relay.ProperReq surroundings session id filters messageSize
  | .text (.count id filter) _ surroundings =>
      (session.subscriptions.get? id).isSome → relay.AdmitsCount surroundings session filter
  | _ => True

/-- Turns whose input is proper. -/
def ProperTurn (connection : Connection ν) (label : Input × List Output)
    (connection' : Connection ν) : Prop :=
  relay.Turn connection label connection' ∧ relay.Proper connection.session label.1

end InnerLocalRelay

variable {relay : InnerLocalRelay ν} {surroundings : Surroundings} {session session' : Session ν}
  {connection connection' : Connection ν} {label : Input × List Output}
  {history : List (Input × List Output)}

/-! ## One turn -/

/-- What a turn delivers, and which subscriptions it leaves. -/
structure Delivers (session : Session ν) (label : Input × List Output) (session' : Session ν) :
    Prop where
  events : ∀ id event, Sends label (.event id event) →
    (session.subscriptions.get? id).isSome ∨ AcceptsReq label id
  registers : ∀ id, (session'.subscriptions.get? id).isSome →
    (session.subscriptions.get? id).isSome ∨ AcceptsReq label id
  closes : ∀ id text, Sends label (.closed id text) → session'.subscriptions.get? id = none
  last : ∀ id, ClosedLast id label.2
  asked : ServesAsked label

/-- A message that neither delivers an event nor closes a subscription. -/
def Bystander (message : RelayMessage) : Prop :=
  (∀ id event, message ≠ .event id event) ∧ ∀ id text, message ≠ .closed id text

/-- The subscriptions are as before, and all outputs are bystanders. -/
structure Aside (session : Session ν) (conversation : Conversation ν) : Prop where
  subscriptions : conversation.session.subscriptions = session.subscriptions
  outputs : ∀ output ∈ conversation.outputs, Bystander output.message

theorem Aside.output {conversation : Conversation ν} {output : Output}
    (aside : Aside session conversation) (bystander : Bystander output.message) :
    ∀ other ∈ conversation.outputs ++ [output], Bystander other.message := by
  intro other member
  cases List.mem_append.mp member with
  | inl before => exact aside.outputs other before
  | inr here =>
      cases List.mem_singleton.mp here
      exact bystander

theorem reconciles_aside (session : Session ν) : Reconciles Bystander (Aside session) where
  tell _ _ bystander aside := ⟨aside.subscriptions, aside.output bystander⟩
  challenge _ _ aside := ⟨aside.subscriptions, aside.output ⟨nofun, nofun⟩⟩
  broadcast _ _ aside := ⟨aside.subscriptions, aside.outputs⟩
  disclose _ _ _ bystander aside := ⟨aside.subscriptions, aside.output bystander⟩
  reconciliations _ _ aside := ⟨aside.subscriptions, aside.outputs⟩

theorem Aside.start (session : Session ν) : Aside session { session } := ⟨rfl, by simp⟩

theorem closedLast_of_bystanders {outputs : List Output} {id : SubscriptionId}
    (bystanders : ∀ output ∈ outputs, Bystander output.message) : ClosedLast id outputs := by
  intro first closing rest text parts closed
  exact absurd closed ((bystanders closing (by simp [parts])).2 id text)

/-- A turn that leaves no subscription that was not there, and sends bystanders. -/
theorem Delivers.of_bystanders
    (fewer : ∀ id, (session'.subscriptions.get? id).isSome →
      (session.subscriptions.get? id).isSome)
    (bystanders : ∀ output ∈ label.2, Bystander output.message) :
    Delivers session label session' where
  events id event sends := by
    obtain ⟨output, member, same⟩ := sends
    exact absurd same ((bystanders output member).1 id event)
  registers id registered := .inl (fewer id registered)
  closes id text sends := by
    obtain ⟨output, member, same⟩ := sends
    exact absurd same ((bystanders output member).2 id text)
  last _ := closedLast_of_bystanders bystanders
  asked id sends := by
    obtain ⟨output, member, same⟩ := sends
    exact absurd same ((bystanders output member).2 id "")

theorem mem_of_parts {outputs first rest : List Output} {output : Output}
    (parts : outputs = first ++ output :: rest) : output ∈ outputs := by
  rw [parts]
  exact List.mem_append_right _ List.mem_cons_self

/-- Only the last output may be CLOSED. -/
theorem closedLast_of_last {outputs : List Output} {last : Output} {id : SubscriptionId}
    (others : ∀ output ∈ outputs, ∀ text, output.message ≠ .closed id text) :
    ClosedLast id (outputs ++ [last]) := by
  intro first closing rest text parts closed
  cases List.eq_nil_or_concat rest with
  | inl none => simp [none]
  | inr more =>
      obtain ⟨between, final, split⟩ := more
      rw [split, List.concat_eq_append, ← List.cons_append, ← List.append_assoc] at parts
      have same := (List.append_inj' parts rfl).1
      exact absurd closed (others closing (by simp [same]) text)

theorem sends_append {input : Input} {outputs : List Output} {last message : RelayMessage}
    (sends : Sends (input, outputs ++ [{ message := last }]) message) :
    Sends (input, outputs) message ∨ message = last := by
  obtain ⟨output, member, same⟩ := sends
  cases List.mem_append.mp member with
  | inl before => exact .inl ⟨output, before, same⟩
  | inr here =>
      cases List.mem_singleton.mp here
      exact .inr same.symm

theorem sends_served {input : Input} {id : SubscriptionId} {events : EventSet}
    {message : RelayMessage} (sends : Sends (input, servedOutputs surroundings id events) message) :
    (∃ event ∈ unexpired surroundings events, message = .event id event) ∨
      message = .endOfStoredEvents id := by
  refine (sends_append sends).imp_left fun sends => ?_
  obtain ⟨output, member, same⟩ := sends
  obtain ⟨event, found, made⟩ := List.mem_map.mp member
  exact ⟨event, found, by rw [← same, ← made]⟩

theorem sends_append_left {input : Input} {outputs others : List Output} {message : RelayMessage}
    (sends : Sends (input, outputs) message) : Sends (input, outputs ++ others) message := by
  obtain ⟨output, member, same⟩ := sends
  exact ⟨output, List.mem_append_left _ member, same⟩

theorem accepts_served {id : SubscriptionId} {filters : List Filter} {messageSize : Nat}
    {surroundings' : Surroundings} {events : EventSet} {others : List Output} :
    AcceptsReq (.text (.req id filters) messageSize surroundings',
      servedOutputs surroundings id events ++ others) id :=
  ⟨⟨filters, messageSize, surroundings', rfl⟩,
    sends_append_left ⟨_, List.mem_append_right _ (List.mem_singleton_self _), rfl⟩⟩

theorem length_askedIds {filters : List Filter} {total : Nat}
    (known : idsLen filters = some total) : (askedIds filters).length = total := by
  have sums : ∀ (start : Nat) (filters : List Filter),
      filters.foldl (fun total filter => total.bind fun total =>
        filter.ids.map fun ids => total + ids.len) (some start) = some total →
      start + (askedIds filters).length = total := by
    intro start filters folded
    induction filters generalizing start with
    | nil => simpa [askedIds] using folded
    | cons filter filters ih =>
        cases ids : filter.ids with
        | none =>
            have failed : ∀ filters : List Filter,
                filters.foldl (fun total filter => total.bind fun total =>
                  filter.ids.map fun ids => total + ids.len) (none : Option Nat) = none := by
              intro filters
              induction filters with
              | nil => rfl
              | cons _ _ ih => exact ih
            simp [ids, failed] at folded
        | some set =>
            have rest := ih (start + set.len) (by simpa [ids] using folded)
            have size : (SortedSet.elems set).length = set.len := by
              simp [SortedSet.elems, SortedTable.len]
            simp only [askedIds, List.flatMap_cons, ids, Option.elim_some, List.length_append,
              size] at rest ⊢
            omega
  have counted := sums 0 filters known
  omega

/-- Changes that leave the IDs of each filter leave the IDs of all. -/
theorem askedIds_mapM {look : Filter → Option Filter} {filters changed : List Filter}
    (found : filters.mapM look = some changed)
    (same : ∀ filter ∈ filters, ∀ other, look filter = some other → other.ids = filter.ids) :
    askedIds changed = askedIds filters := by
  induction filters generalizing changed with
  | nil =>
      cases found
      rfl
  | cons filter filters ih =>
      rw [List.mapM_cons] at found
      cases first : look filter with
      | none => simp [first] at found
      | some other =>
          cases rest : filters.mapM look with
          | none => simp [first, rest] at found
          | some others =>
              simp only [first, rest, Option.pure_def, Option.bind_eq_bind, Option.bind_some,
                Option.some.injEq] at found
              subst found
              have later := ih rest fun filter member => same filter (List.mem_cons_of_mem _ member)
              have here := same filter List.mem_cons_self other first
              simp only [askedIds, List.flatMap_cons] at later ⊢
              rw [here, later]

theorem ids_limitFilter {filter limited : Filter}
    (limits : relay.limitFilter filter = some limited) : limited.ids = filter.ids := by
  unfold limitFilter at limits
  split at limits
  · cases limits
    rfl
  · split at limits
    · cases limits
    · cases limits
      rfl
  · cases limits
    rfl

/-- A REQ that finds all that was asked for has everything sent. -/
theorem mem_unexpired_of_asked {id : SubscriptionId} {filters served : List Filter}
    {requestSize : Nat} {events : EventSet}
    (admits : relay.AdmitsReq surroundings session id filters requestSize served)
    (complete : idsLen served = some events.len)
    (asked : relay.FindsAsked surroundings filters events) :
    ∀ eventId ∈ askedIds filters, ∃ event ∈ unexpired surroundings events, event.id = eventId := by
  obtain ⟨admitted, policy, _, limits⟩ := admits.filters
  have same : askedIds served = askedIds filters :=
    (askedIds_mapM limits fun _ _ _ => ids_limitFilter).trans (askedIds_mapM policy asked.policy)
  have total : (askedIds filters).length = (events.values.map Event.id).length := by
    rw [← same, length_askedIds complete, List.length_map]
    simp [SortedTable.len, SortedTable.values]
  have found : events.values.map Event.id ⊆ askedIds filters := by
    intro eventId member
    obtain ⟨event, listed, same⟩ := List.mem_map.mp member
    exact same ▸ asked.listed event listed
  have perm := (List.subperm_of_subset asked.unique found).perm_of_length_le total.le
  intro eventId wanted
  obtain ⟨event, listed, same⟩ := List.mem_map.mp (perm.mem_iff.mpr wanted)
  exact ⟨event, List.mem_filter.mpr ⟨listed, by simp [asked.unexpired event listed]⟩, same⟩

theorem Refused.delivers {input : Input} {id : SubscriptionId} {after : Conversation ν}
    (refused : Refused id session after)
    (unregistered : session.subscriptions.get? id = none) :
    Delivers session (input, after.outputs) after.session := by
  obtain ⟨subscriptions, challenges, text, reason, outputs, auths⟩ := refused
  have only : ∀ message, Sends (input, after.outputs) message →
      (∃ challenge, message = .auth challenge) ∨ message = .closed id text := by
    intro message sends
    rw [outputs] at sends
    refine (sends_append sends).imp_left fun sends => ?_
    obtain ⟨output, member, same⟩ := sends
    exact same ▸ auths output member
  refine ⟨fun _ _ sends => ?_, fun _ registered => ?_, fun _ _ sends => ?_, fun _ => ?_,
    fun _ sends => ?_⟩
  · rcases only _ sends with ⟨_, absurd⟩ | absurd <;> cases absurd
  · exact .inl (subscriptions ▸ registered)
  · rcases only _ sends with ⟨_, absurd⟩ | closed
    · cases absurd
    · cases closed
      rwa [subscriptions]
  · rw [outputs]
    refine closedLast_of_last fun output member text closed => ?_
    obtain ⟨challenge, auth⟩ := auths output member
    cases auth.symm.trans closed
  · rcases only _ sends with ⟨_, absurd⟩ | closed
    · cases absurd
    · cases closed
      exact absurd rfl reason

theorem handleReq_delivers {id : SubscriptionId} {filters : List Filter} {messageSize : Nat}
    {after : Conversation ν}
    (outcome : ReqOutcome relay surroundings session id filters messageSize after)
    (proper : relay.ProperReq surroundings session id filters messageSize) :
    Delivers session (.text (.req id filters) messageSize surroundings, after.outputs)
      after.session := by
  cases outcome with
  | refused blocked refused =>
      apply refused.delivers
      cases registered : session.subscriptions.get? id with
      | none => rfl
      | some subscription =>
          obtain ⟨served, admits⟩ := proper.admitted (by rw [registered]; rfl)
          exact absurd admits (blocked served)
  | failed same outputs =>
      rw [same, outputs]
      exact .of_bystanders (fun _ registered => registered) (by simp)
  | @completed served events admits found complete same outputs =>
      rw [same, outputs]
      refine ⟨fun _ _ sends => ?_, fun _ registered => .inl registered, fun _ _ sends => ?_,
        fun _ => closedLast_of_last fun output member text closed => ?_, fun _ sends => ?_⟩
      · rcases sends_append sends with sends | absurd
        · rcases sends_served sends with ⟨event, _, made⟩ | absurd
          · cases made
            exact .inr accepts_served
          · cases absurd
        · cases absurd
      · rcases sends_append sends with sends | closed
        · rcases sends_served sends with ⟨event, _, absurd⟩ | absurd <;> cases absurd
        · cases closed
          cases registered : session.subscriptions.get? id with
          | none => rfl
          | some subscription =>
              exact absurd ⟨found, complete⟩
                (proper.kept (by rw [registered]; rfl) served events admits)
      · have sends : Sends (.malformed, servedOutputs surroundings id events) _ :=
          ⟨output, member, closed⟩
        rcases sends_served sends with ⟨event, _, absurd⟩ | absurd <;> cases absurd
      · rcases sends_append sends with sends | closed
        · rcases sends_served sends with ⟨event, _, absurd⟩ | absurd <;> cases absurd
        · cases closed
          have asked := proper.asked served events admits ⟨found, complete⟩
          refine ⟨filters, messageSize, surroundings, rfl, fun eventId wanted => ?_⟩
          obtain ⟨event, listed, same⟩ := mem_unexpired_of_asked admits complete asked eventId wanted
          exact ⟨event, same, sends_append_left
            ⟨_, List.mem_append_left _ (List.mem_map_of_mem listed), rfl⟩⟩
  | @kept served events admits found incomplete same outputs =>
      rw [same, outputs]
      have unclosed : ∀ id' text, ¬ Sends (.text (.req id filters) messageSize surroundings,
          servedOutputs surroundings id events) (.closed id' text) := by
        intro id' text sends
        rcases sends_served sends with ⟨event, _, absurd⟩ | absurd <;> cases absurd
      have accepts : AcceptsReq (.text (.req id filters) messageSize surroundings,
          servedOutputs surroundings id events ++ []) id := accepts_served
      rw [List.append_nil] at accepts
      refine ⟨fun _ _ sends => ?_, fun other registered => ?_, fun _ _ sends => ?_,
        fun _ first closing rest text parts closed => ?_, fun _ sends => ?_⟩
      · rcases sends_served sends with ⟨event, _, made⟩ | absurd
        · cases made
          exact .inr accepts
        · cases absurd
      · simp only [Session.insertSubscription, SortedTable.get?_put] at registered
        split at registered
        · next same => exact .inr (same ▸ accepts)
        · exact .inl registered
      · exact absurd sends (unclosed _ _)
      · exact absurd ⟨closing, mem_of_parts parts, closed⟩ (unclosed _ text)
      · exact absurd sends (unclosed _ _)

theorem handleCount_delivers {id : SubscriptionId} {filter : Filter} {input : Input}
    {after : Conversation ν} (outcome : CountOutcome relay surroundings session id filter after)
    (proper : (session.subscriptions.get? id).isSome →
      relay.AdmitsCount surroundings session filter) :
    Delivers session (input, after.outputs) after.session := by
  cases outcome with
  | refused blocked refused =>
      apply refused.delivers
      cases registered : session.subscriptions.get? id with
      | none => rfl
      | some subscription => exact absurd (proper (by rw [registered]; rfl)) blocked
  | failed same outputs =>
      rw [same, outputs]
      exact .of_bystanders (fun _ registered => registered) (by simp)
  | answered same outputs =>
      rw [same, outputs]
      exact .of_bystanders (fun _ registered => registered) (by simp [Bystander])

theorem isSome_removeSubscription {id other : SubscriptionId}
    (registered : ((session.removeSubscription id).subscriptions.get? other).isSome) :
    (session.subscriptions.get? other).isSome := by
  unfold Session.removeSubscription at registered
  split at registered
  · rw [SortedTable.get?_delete] at registered
    split at registered
    · cases registered
    · exact registered
  · exact registered

theorem handleAuth_aside (event : Event) :
    Aside session ((relay.handleAuth surroundings event).run { session }).2 := by
  cases limited : surroundings.limited with
  | true =>
      rw [handleAuth_limited event limited]
      exact ⟨rfl, by simp [Bystander, okFalse]⟩
  | false =>
      rw [handleAuth_allowed event limited]
      unfold answerAuth
      split
      · exact ⟨rfl, by simp [Bystander]⟩
      · exact ⟨rfl, by simp [Bystander, okFalse]⟩

theorem sendLive_delivers (session : Session ν) (event : Event) :
    Delivers session (.live event, sendLive session event) session := by
  have only : ∀ output ∈ sendLive session event, ∃ id, output.message = .event id event ∧
      (session.subscriptions.get? id).isSome := by
    intro output member
    obtain ⟨entry, listed, made⟩ := List.mem_map.mp member
    have present := SortedTable.get?_eq_some.mpr (List.mem_filter.mp listed).1
    exact ⟨entry.1, by rw [← made], by rw [present]; rfl⟩
  have unclosed : ∀ output ∈ sendLive session event, ∀ id text,
      output.message ≠ .closed id text := by
    intro output member id text closed
    obtain ⟨_, delivered, _⟩ := only output member
    cases delivered.symm.trans closed
  refine ⟨fun id other sends => ?_, fun _ registered => .inl registered, fun id text sends => ?_,
    fun id first closing rest text parts closed => ?_, fun id sends => ?_⟩
  · obtain ⟨output, member, same⟩ := sends
    obtain ⟨_, delivered, registered⟩ := only output member
    cases delivered.symm.trans same
    exact .inl registered
  · obtain ⟨output, member, same⟩ := sends
    exact absurd same (unclosed output member id text)
  · exact absurd closed (unclosed closing (mem_of_parts parts) id text)
  · obtain ⟨output, member, same⟩ := sends
    exact absurd same (unclosed output member id "")

/-- Every subscription is closed, with a reason. -/
theorem closeAll_delivers (session : Session ν) (skipped : Nat) :
    Delivers session (.lagged skipped, (closeAll session).2) (closeAll session).1 := by
  have only : ∀ output ∈ (closeAll session).2, ∃ id,
      output.message = .closed id overflowMessage := by
    intro output member
    obtain ⟨entry, _, made⟩ := List.mem_map.mp member
    exact ⟨entry.1, by rw [← made]⟩
  refine ⟨fun id event sends => ?_, fun _ registered => (by cases registered),
    fun id text sends => rfl, fun id first closing rest text parts closed output member event =>
      ?_, fun id sends => ?_⟩
  · obtain ⟨output, member, same⟩ := sends
    obtain ⟨_, closed⟩ := only output member
    cases closed.symm.trans same
  · have listed : output ∈ (closeAll session).2 :=
      parts.symm ▸ List.mem_append_right _ (List.mem_cons_of_mem _ member)
    obtain ⟨_, closed⟩ := only output listed
    rw [closed]
    nofun
  · obtain ⟨output, member, same⟩ := sends
    obtain ⟨_, closed⟩ := only output member
    have reason : overflowMessage = "" := by
      injection closed.symm.trans same
    exact absurd reason (by decide)

theorem turn_delivers (turn : relay.ProperTurn connection label connection') :
    Delivers connection.session label connection'.session := by
  obtain ⟨⟨_, told, rfl⟩, proper⟩ := turn
  obtain ⟨input, outputs⟩ := label
  have told : outputs = (relay.handleWebsocket connection input).outputs := told
  subst told
  have aside := reconciles_aside connection.session
  have stays : ∀ {conversation : Conversation ν}, Aside connection.session conversation →
      Delivers connection.session (input, conversation.outputs) conversation.session :=
    fun aside => .of_bystanders (fun _ registered => aside.subscriptions ▸ registered) aside.outputs
  cases input with
  | text message messageSize surroundings =>
      cases message with
      | event event =>
          exact stays (aside.handleEvent relay surroundings (fun _ _ => ⟨nofun, nofun⟩) messageSize _
            (.start _))
      | req id filters => exact handleReq_delivers handleReq_outcome proper
      | count id filter => exact handleCount_delivers handleCount_outcome proper
      | close id =>
          exact .of_bystanders (fun _ registered => isSome_removeSubscription registered)
            fun _ absurd => (by cases absurd)
      | auth event => exact stays (handleAuth_aside event)
      | negOpen id filter initialMessage =>
          exact stays (aside.handleNegOpen relay surroundings (fun _ => ⟨nofun, nofun⟩)
            (fun _ => ⟨nofun, nofun⟩) filter initialMessage _ (.start _))
      | negMsg id message =>
          exact stays (aside.handleNegMsg relay surroundings (fun _ => ⟨nofun, nofun⟩)
            (fun _ => ⟨nofun, nofun⟩) message _ (.start _))
      | negClose id =>
          exact .of_bystanders (fun _ registered => registered) fun _ absurd => (by cases absurd)
  | live event => exact sendLive_delivers connection.session event
  | lagged skipped => exact closeAll_delivers connection.session skipped
  | malformed =>
      exact .of_bystanders (fun _ registered => registered) (by simp [handleWebsocket, Bystander])
  | binary =>
      exact .of_bystanders (fun _ registered => registered) (by simp [handleWebsocket, Bystander])
  | control => exact .of_bystanders (fun _ registered => registered) (by simp [handleWebsocket])
  | tooManyMessages =>
      exact .of_bystanders (fun _ registered => registered) (by simp [handleWebsocket])
  | shutdown => exact .of_bystanders (fun _ registered => registered) (by simp [handleWebsocket])

/-! ## Every run -/

/-- The subscription was closed, and no REQ for it was accepted since. -/
def Closed (history : List (Input × List Output)) (id : SubscriptionId) : Prop :=
  ∃ before closing after text, history = before ++ closing :: after ∧
    Sends closing (.closed id text) ∧ ∀ label ∈ after, ¬ AcceptsReq label id

theorem Closed.later {id : SubscriptionId} (closed : Closed (history ++ [label]) id) :
    (∃ text, Sends label (.closed id text)) ∨ Closed history id ∧ ¬ AcceptsReq label id := by
  obtain ⟨before, closing, after, text, parts, sends, quiet⟩ := closed
  cases List.eq_nil_or_concat after with
  | inl none =>
      subst none
      obtain ⟨_, same⟩ := List.append_inj' parts rfl
      cases same
      exact .inl ⟨text, sends⟩
  | inr more =>
      obtain ⟨between, final, split⟩ := more
      rw [split, List.concat_eq_append, ← List.cons_append, ← List.append_assoc] at parts
      obtain ⟨earlier, same⟩ := List.append_inj' parts rfl
      cases same
      rw [split, List.concat_eq_append] at quiet
      exact .inr ⟨⟨before, closing, between, text, earlier, sends,
        fun label member => quiet label (List.mem_append_left _ member)⟩, quiet _ (by simp)⟩

/-- A closed subscription is not registered. -/
theorem run_closed (run : Run relay.ProperTurn {} history connection) :
    ∀ id, Closed history id → connection.session.subscriptions.get? id = none := by
  induction run with
  | nil => exact fun _ _ => rfl
  | @snoc history middle finish last run turn ih =>
      intro id closed
      have delivers := turn_delivers turn
      rcases closed.later with ⟨text, sends⟩ | ⟨before, unaccepted⟩
      · exact delivers.closes id text sends
      · cases registered : finish.session.subscriptions.get? id with
        | none => rfl
        | some subscription =>
            rcases delivers.registers id (by rw [registered]; rfl) with present | accepts
            · rw [ih id before] at present
              cases present
            · exact absurd accepts unaccepted

/-- In runs of proper inputs CLOSED is the last word until a REQ is accepted,
and CLOSED without a reason follows all events that were asked for. -/
theorem run_closedIsFinal (relay : InnerLocalRelay ν) (history : List (Input × List Output))
    (connection : Connection ν) (run : Run relay.ProperTurn {} history connection) :
    ClosedIsFinal history ∧ ∀ label ∈ history, ServesAsked label := by
  have each : ∀ before label after, history = before ++ label :: after →
      ∃ connection connection' : Connection ν, Run relay.ProperTurn {} before connection ∧
        Delivers connection.session label connection'.session := by
    intro before label after parts
    have run : Run relay.ProperTurn {} ((before ++ [label]) ++ after) connection := by
      rwa [parts, List.append_cons] at run
    obtain ⟨_, run⟩ := run.split
    obtain ⟨_, run, turn⟩ := run.last
    exact ⟨_, _, run, turn_delivers turn⟩
  constructor
  · intro before closing after id text parts sends
    obtain ⟨_, _, _, delivers⟩ := each before closing after parts
    refine ⟨delivers.last id, fun between later rest event split delivered => ?_⟩
    by_contra quiet
    push Not at quiet
    have whole : history = (before ++ closing :: between) ++ later :: rest := by
      rw [parts, split, List.append_assoc, List.cons_append]
    obtain ⟨middle, _, reached, delivers'⟩ := each _ later rest whole
    have closed : Closed (before ++ closing :: between) id :=
      ⟨before, closing, between, text, rfl, sends,
        fun label member => quiet label (List.mem_append_left _ member)⟩
    rcases delivers'.events id event delivered with registered | accepts
    · rw [run_closed reached id closed] at registered
      cases registered
    · exact quiet later (by simp) accepts
  · intro label member
    obtain ⟨before, after, parts⟩ := List.append_of_mem member
    obtain ⟨_, _, _, delivers⟩ := each before label after parts
    exact delivers.asked

def sampleNote : Event where
  id := .replicate 32 7
  pubkey := .replicate 32 2
  createdAt := 1700000000
  kind := .custom 1
  tags := []
  content := ""
  sig := .replicate 64 4

def expiredNote : Event :=
  { sampleNote with tags := [⟨["expiration", "1700000000"], by simp⟩] }

def askingFilter (event : Event) : Filter where
  kinds := some (SortedSet.insert .empty 1)
  ids := some (SortedSet.insert .empty event.id)

def askingReq (event : Event) : Input :=
  .text (.req "a" [askingFilter event]) 40
    { sampleSurroundings with database := .memory [event] }

/-- The REQ with more filters than a REQ may have. -/
def excessiveReq : Input :=
  .text (.req "s" (.replicate 21 {})) 40 sampleSurroundings

def reopenedHistory : List (Input × List Output) :=
  sampleHistory {} [sampleReq (.insert .empty 1), excessiveReq, .live sampleNote]

def expiredHistory : List (Input × List Output) := sampleHistory {} [askingReq expiredNote]

/-- A refused REQ is told CLOSED and the older subscription goes on; an expired
event counts as found and is not sent. -/
theorem run_closed_goesOn :
    ((∃ connection, Run sampleRelay.Turn {} reopenedHistory connection) ∧
        ¬ ClosedIsFinal reopenedHistory) ∧
      (∃ connection, Run sampleRelay.Turn {} expiredHistory connection) ∧
        ¬ ∀ label ∈ expiredHistory, ServesAsked label := by
  have reopened : ∃ connection, Run sampleRelay.Turn {} reopenedHistory connection := by
    refine ⟨_, ((Run.nil.snoc ⟨rfl, rfl, rfl⟩).snoc ⟨?_, rfl, rfl⟩).snoc ⟨?_, rfl, rfl⟩⟩
    · decide +kernel
    · decide +kernel
  have expired : ∃ connection, Run sampleRelay.Turn {} expiredHistory connection :=
    ⟨_, Run.nil.snoc ⟨rfl, rfl, rfl⟩⟩
  refine ⟨⟨reopened, fun final => ?_⟩, expired, fun asked => ?_⟩
  · obtain ⟨_, quiet⟩ := final [_] _ [_] "s" "blocked: too many filters" rfl
      ⟨{ message := .closed "s" "blocked: too many filters" }, by decide +kernel, rfl⟩
    obtain ⟨label, member, ⟨_, _, _, req⟩, _⟩ := quiet [] _ [] sampleNote rfl
      ⟨{ message := .event "s" sampleNote, discloses := [sampleNote] }, by decide +kernel, rfl⟩
    cases List.mem_singleton.mp member
    cases req
  · obtain ⟨_, _, _, req, served⟩ := asked _ List.mem_cons_self "a"
      ⟨{ message := .closed "a" "" }, by decide +kernel, rfl⟩
    cases req
    obtain ⟨event, _, output, member, delivers⟩ := served expiredNote.id (by decide +kernel)
    have silent : ∀ output ∈ (sampleRelay.handleWebsocket {} (askingReq expiredNote)).outputs,
        output.message = .endOfStoredEvents "a" ∨ output.message = .closed "a" "" := by
      decide +kernel
    rcases silent output member with other | other <;> cases delivers.symm.trans other

theorem run_closedIsFinal_found :
    ∃ history connection, Run sampleRelay.ProperTurn {} history connection ∧
      (∃ label ∈ history, Sends label (.closed "a" "")) ∧ ClosedIsFinal history ∧
        ∀ label ∈ history, ServesAsked label := by
  have proper : sampleRelay.Proper {} (askingReq sampleNote) := by
    refine ⟨nofun, nofun, fun served events admits found => ?_⟩
    obtain ⟨admitted, policy, _, limits⟩ := admits.filters
    have same : admitted = [askingFilter sampleNote] := (Option.some.inj policy).symm
    subst same
    have same : served = [{ askingFilter sampleNote with limit := some 1 }] :=
      (Option.some.inj limits).symm
    subst same
    have stored : Except.ok _ = Except.ok events := found.1
    cases stored
    exact ⟨fun _ _ _ admitted => congrArg Filter.ids (Option.some.inj admitted).symm,
      by decide +kernel, by decide +kernel, by decide +kernel⟩
  have run : Run sampleRelay.ProperTurn {} (sampleHistory {} [askingReq sampleNote]) _ :=
    Run.nil.snoc ⟨⟨rfl, rfl, rfl⟩, proper⟩
  obtain ⟨final, asked⟩ := run_closedIsFinal sampleRelay _ _ run
  exact ⟨_, _, run, ⟨_, List.mem_cons_self, { message := .closed "a" "" }, by decide +kernel, rfl⟩,
    final, asked⟩

end RustNostr.NostrSdk.LocalRelay
