import Mathlib
import RustNostr.NostrSdk.LocalRelay.Stages

/-!
# What a request comes to

A REQ is refused, fails with the database, is closed after its stored events or
is kept; a COUNT is refused, fails or is answered.
-/

set_option autoImplicit false

namespace RustNostr.NostrSdk.LocalRelay

open Library Transaction Handler

variable {ν α β : Type}

/-! ## Gates -/

/-- From this conversation the program returns and leaves it as it is, or stops. -/
def Gate (conversation : Conversation ν) (stops : Conversation ν → Prop) (program : Handler ν α)
    (passes : α → Prop) : Prop :=
  (∃ value, program.run conversation = (.ok value, conversation) ∧ passes value) ∨
    ∃ exit after, program.run conversation = (.error exit, after) ∧ stops after

namespace Gate

variable {conversation : Conversation ν} {stops : Conversation ν → Prop} {program : Handler ν α}
  {passes : α → Prop}

theorem pure {value : α} (holds : passes value) :
    Gate conversation stops (Pure.pure value : Handler ν α) passes :=
  .inl ⟨value, rfl, holds⟩

theorem consequence {stops' : Conversation ν → Prop} {passes' : α → Prop}
    (gate : Gate conversation stops' program passes') (stopped : ∀ after, stops' after → stops after)
    (passed : ∀ value, passes' value → passes value) :
    Gate conversation stops program passes := by
  cases gate with
  | inl went =>
      obtain ⟨value, ran, fact⟩ := went
      exact .inl ⟨value, ran, passed value fact⟩
  | inr failed =>
      obtain ⟨exit, after, ran, fact⟩ := failed
      exact .inr ⟨exit, after, ran, stopped after fact⟩

theorem then_holds {next : α → Handler ν β} {holds : Conversation ν → Prop}
    (gate : Gate conversation stops program passes)
    (stopped : ∀ after, stops after → holds after)
    (rest : ∀ value, passes value → holds ((next value).run conversation).2) :
    holds ((program >>= next).run conversation).2 := by
  rw [run_bind]
  cases gate with
  | inl passed =>
      obtain ⟨value, ran, fact⟩ := passed
      rw [ran]
      exact rest value fact
  | inr failed =>
      obtain ⟨exit, after, ran, fact⟩ := failed
      rw [ran]
      exact stopped after fact

theorem bind {stops' : Conversation ν → Prop} {next : α → Handler ν β} {passes' : β → Prop}
    (gate : Gate conversation stops' program passes)
    (stopped : ∀ after, stops' after → stops after)
    (rest : ∀ value, passes value → Gate conversation stops (next value) passes') :
    Gate conversation stops (program >>= next) passes' := by
  unfold Gate
  rw [run_bind]
  cases gate with
  | inl passed =>
      obtain ⟨value, ran, fact⟩ := passed
      rw [ran]
      exact rest value fact
  | inr failed =>
      obtain ⟨exit, after, ran, fact⟩ := failed
      rw [ran]
      exact .inr ⟨exit, after, rfl, stopped after fact⟩

/-- A map over a list stops where the lookup of one item fails. -/
theorem mapM {items : List β} {body : β → Handler ν α} {look : β → Option α}
    {told : Conversation ν → Prop}
    (each : ∀ item ∈ items, Gate conversation (fun after => look item = none ∧ told after)
      (body item) fun value => look item = some value) :
    Gate conversation (fun after => items.mapM look = none ∧ told after) (items.mapM body)
      fun values => items.mapM look = some values := by
  induction items with
  | nil => exact pure rfl
  | cons item items ih =>
      rw [List.mapM_cons, List.mapM_cons]
      refine bind (each item List.mem_cons_self) (fun after stopped => ?_) fun value found => ?_
      · exact ⟨by rw [stopped.1]; rfl, stopped.2⟩
      · refine bind (ih fun other member => each other (List.mem_cons_of_mem _ member))
          (fun after stopped => ?_) fun values rest => ?_
        · exact ⟨by rw [found, stopped.1]; rfl, stopped.2⟩
        · exact pure (by rw [found, rest]; rfl)

end Gate

/-- After CLOSED with a reason, and perhaps a challenge before it. -/
structure Refused (id : SubscriptionId) (session : Session ν) (after : Conversation ν) : Prop where
  subscriptions : after.session.subscriptions = session.subscriptions
  outputs : ∃ challenges text, text ≠ "" ∧
    after.outputs = challenges ++ [{ message := .closed id text }] ∧
      ∀ output ∈ challenges, ∃ challenge, output.message = .auth challenge

namespace InnerLocalRelay

variable (relay : InnerLocalRelay ν) (surroundings : Surroundings) (session : Session ν)

/-- A filter after the query policy, unless it is refused. -/
def admitted (filter : Filter) : Option Filter :=
  match relay.queryPolicy with
  | none => some filter
  | some policy =>
      match policy filter with
      | (.accept, filter) => some filter
      | (.reject _ _, _) => none

/-- A REQ that passes the checks before its filters are looked at. -/
structure LetsReqIn (id : SubscriptionId) (filters : List Filter) (requestSize : Nat) : Prop where
  subscriptionId : relay.subscriptionIdExceedsLimit id = false
  unlimited : surroundings.limited = false
  room : (relay.maxReqs ≤ session.subscriptions.len &&
    (session.subscriptions.get? id).isNone) = false
  few : ¬ relay.maxFiltersPerReq < filters.length
  fits : session.subscriptionFits id requestSize relay.maxSubscriptionBytes = true
  readAuth : relay.requiresReadAuth session = false

/-- A REQ that passes every check, and is served by the given filters. -/
structure AdmitsReq (id : SubscriptionId) (filters : List Filter) (requestSize : Nat)
    (served : List Filter) : Prop
    extends relay.LetsReqIn surroundings session id filters requestSize where
  filters : ∃ admitted, filters.mapM relay.admitted = some admitted ∧
    relay.giftWrapQueryAccess session admitted = .allowed ∧
      admitted.mapM relay.limitFilter = some served

/-- A COUNT that passes every check. -/
structure AdmitsCount (filter : Filter) : Prop where
  unlimited : surroundings.limited = false
  readAuth : relay.requiresReadAuth session = false
  filter : ∃ admitted, relay.admitted filter = some admitted ∧
    relay.giftWrapQueryAccess session [admitted] = .allowed

end InnerLocalRelay

section Stages

variable {relay : InnerLocalRelay ν} {surroundings : Surroundings} {session : Session ν}
  {id : SubscriptionId}

theorem gate_replyIf {condition : Bool} {text : String} (reason : text ≠ "") :
    Gate { session } (fun after => condition = true ∧ Refused id session after)
      (replyIf condition (.closed id text) : Handler ν Unit) fun _ => condition = false := by
  cases condition with
  | false => exact .pure rfl
  | true => exact .inr ⟨_, _, rfl, rfl, rfl, [], text, reason, rfl, by simp⟩

theorem gate_checkReadAuth :
    Gate { session } (fun after => relay.requiresReadAuth session = true ∧ Refused id session after)
      (relay.checkReadAuth surroundings (.closed id))
      fun _ => relay.requiresReadAuth session = false := by
  have same : (relay.checkReadAuth surroundings (.closed id)).run { session } =
      (replyAfterIf (relay.requiresReadAuth session) (sendChallenge surroundings)
        (.closed id mustAuth)).run { session } := rfl
  unfold Gate
  rw [same]
  cases relay.requiresReadAuth session with
  | false => exact .inl ⟨(), rfl, rfl⟩
  | true =>
      exact .inr ⟨_, _, rfl, rfl, rfl, [{ message := .auth surroundings.challenge }], mustAuth,
        text_ne _ _, rfl, by simp⟩

theorem gate_admitQuery (filter : Filter) :
    Gate { session } (fun after => relay.admitted filter = none ∧ Refused id session after)
      (relay.admitQuery filter (.closed id)) fun value => relay.admitted filter = some value := by
  unfold InnerLocalRelay.admitQuery InnerLocalRelay.admitted
  cases relay.queryPolicy with
  | none => exact .pure rfl
  | some policy =>
      rcases decided : policy filter with ⟨result, changed⟩
      cases result with
      | accept =>
          simp only [decided]
          exact .pure rfl
      | reject machineReadablePrefix message =>
          simp only [decided]
          exact .inr ⟨_, _, rfl, trivial, rfl, [], _, text_ne _ _, rfl, by simp⟩

theorem gate_authorizeFilters (filters : List Filter) :
    Gate { session } (fun after => relay.giftWrapQueryAccess session filters ≠ .allowed ∧
        Refused id session after)
      (relay.authorizeFilters surroundings filters (.closed id))
      fun _ => relay.giftWrapQueryAccess session filters = .allowed := by
  have same : (relay.authorizeFilters surroundings filters (.closed id)).run { session } =
      (InnerLocalRelay.answerAccess surroundings (.closed id)
        (relay.giftWrapQueryAccess session filters)).run { session } := rfl
  unfold Gate
  rw [same]
  cases relay.giftWrapQueryAccess session filters with
  | allowed => exact .inl ⟨(), rfl, rfl⟩
  | authRequired =>
      exact .inr ⟨_, _, rfl, nofun, rfl, [{ message := .auth surroundings.challenge }], mustAuth,
        text_ne _ _, rfl, by simp⟩
  | forbidden => exact .inr ⟨_, _, rfl, nofun, rfl, [], _, text_ne _ _, rfl, by simp⟩

theorem gate_limitFilters (filters : List Filter) :
    Gate { session } (fun after => filters.mapM relay.limitFilter = none ∧
        Refused id session after)
      (relay.limitFilters id filters) fun values => filters.mapM relay.limitFilter = some values := by
  apply Gate.mapM
  intro filter _
  cases relay.limitFilter filter with
  | some limited => exact .pure rfl
  | none => exact .inr ⟨_, _, rfl, rfl, rfl, [], _, text_ne _ _, rfl, by simp⟩

theorem run_sendEvents (events : List Event) (conversation : Conversation ν) :
    (events.forM (InnerLocalRelay.sendEvent id)).run conversation =
      (.ok (), { conversation with
        outputs := conversation.outputs ++
          events.map fun event => { message := .event id event, discloses := [event] } }) := by
  induction events generalizing conversation with
  | nil =>
      change (Except.ok (), conversation) = _
      simp
  | cons event events ih =>
      change (InnerLocalRelay.sendEvent id event >>= fun _ => _).run conversation = _
      rw [run_bind]
      change (events.forM (InnerLocalRelay.sendEvent id)).run _ = _
      rw [ih]
      simp

end Stages

namespace InnerLocalRelay

/-- The stored events that are sent for a REQ. -/
def unexpired (surroundings : Surroundings) (events : EventSet) : List Event :=
  events.values.filter fun event => !event.isExpiredAt surroundings.now

/-- The outputs of a served REQ, up to EOSE. -/
def servedOutputs (surroundings : Surroundings) (id : SubscriptionId) (events : EventSet) :
    List Output :=
  ((unexpired surroundings events).map fun event =>
    { message := .event id event, discloses := [event] }) ++ [{ message := .endOfStoredEvents id }]

/-- What handling a REQ comes to. -/
inductive ReqOutcome (relay : InnerLocalRelay ν) (surroundings : Surroundings)
    (session : Session ν) (id : SubscriptionId) (filters : List Filter) (requestSize : Nat)
    (after : Conversation ν) : Prop where
  | refused : (∀ served, ¬ relay.AdmitsReq surroundings session id filters requestSize served) →
      Refused id session after →
      ReqOutcome relay surroundings session id filters requestSize after
  | failed : after.session = session → after.outputs = [] →
      ReqOutcome relay surroundings session id filters requestSize after
  | completed {served : List Filter} {events : EventSet} :
      relay.AdmitsReq surroundings session id filters requestSize served →
      relay.storedEvents surroundings served = .ok events → idsLen served = some events.len →
      after.session = session →
      after.outputs = servedOutputs surroundings id events ++ [{ message := .closed id "" }] →
      ReqOutcome relay surroundings session id filters requestSize after
  | kept {served : List Filter} {events : EventSet} :
      relay.AdmitsReq surroundings session id filters requestSize served →
      relay.storedEvents surroundings served = .ok events → idsLen served ≠ some events.len →
      after.session = session.insertSubscription id served requestSize →
      after.outputs = servedOutputs surroundings id events →
      ReqOutcome relay surroundings session id filters requestSize after

variable {relay : InnerLocalRelay ν} {surroundings : Surroundings} {session : Session ν}
  {id : SubscriptionId} {filters : List Filter} {requestSize : Nat}

theorem gate_admitReq :
    Gate { session } (fun after =>
        ¬ relay.LetsReqIn surroundings session id filters requestSize ∧ Refused id session after)
      (relay.admitReq surroundings id filters requestSize)
      fun _ => relay.LetsReqIn surroundings session id filters requestSize := by
  unfold admitReq
  have read : Gate { session } (fun _ => False) (getSession : Handler ν (Session ν))
      fun current => current = session :=
    .inl ⟨session, rfl, rfl⟩
  refine Gate.bind read (fun _ absurd => absurd.elim) fun current same => ?_
  subst same
  refine Gate.bind (gate_replyIf (text_ne _ _)) (fun after stopped => ?_) fun _ subscriptionId => ?_
  · exact ⟨fun letIn => by simp [letIn.subscriptionId] at stopped, stopped.2⟩
  refine Gate.bind (gate_replyIf (text_ne _ _)) (fun after stopped => ?_) fun _ unlimited => ?_
  · exact ⟨fun letIn => by simp [letIn.unlimited] at stopped, stopped.2⟩
  refine Gate.bind (gate_replyIf (text_ne _ _)) (fun after stopped => ?_) fun _ room => ?_
  · exact ⟨fun letIn => by simp [letIn.room] at stopped, stopped.2⟩
  refine Gate.bind (gate_replyIf (text_ne _ _)) (fun after stopped => ?_) fun _ few => ?_
  · exact ⟨fun letIn => letIn.few (by simpa using stopped.1), stopped.2⟩
  refine Gate.bind (gate_replyIf (text_ne _ _)) (fun after stopped => ?_) fun _ fits => ?_
  · exact ⟨fun letIn => by simp [letIn.fits] at stopped, stopped.2⟩
  refine gate_checkReadAuth.consequence (fun after stopped => ?_) fun _ readAuth => ?_
  · exact ⟨fun letIn => by simp [letIn.readAuth] at stopped, stopped.2⟩
  · exact ⟨subscriptionId, unlimited, room, by simpa using few, by simpa using fits, readAuth⟩

theorem handleReq_outcome :
    ReqOutcome relay surroundings session id filters requestSize
      ((relay.handleReq surroundings id filters requestSize).run { session }).2 := by
  unfold handleReq
  refine gate_admitReq.then_holds (fun after stopped => ?_) fun _ letIn => ?_
  · exact .refused (fun served admits => stopped.1 admits.toLetsReqIn) stopped.2
  refine (Gate.mapM fun filter _ => gate_admitQuery filter).then_holds (fun after stopped => ?_)
    fun admitted policy => ?_
  · refine .refused (fun served admits => ?_) stopped.2
    obtain ⟨admitted, found, _⟩ := admits.filters
    simp [stopped.1] at found
  refine (gate_authorizeFilters admitted).then_holds (fun after stopped => ?_) fun _ allowed => ?_
  · refine .refused (fun served admits => ?_) stopped.2
    obtain ⟨admitted', found, allowed, _⟩ := admits.filters
    cases Option.some.inj (policy.symm.trans found)
    exact stopped.1 allowed
  refine (gate_limitFilters admitted).then_holds (fun after stopped => ?_) fun served limits => ?_
  · refine .refused (fun served admits => ?_) stopped.2
    obtain ⟨admitted', found, _, limits⟩ := admits.filters
    cases Option.some.inj (policy.symm.trans found)
    simp [stopped.1] at limits
  have admits : relay.AdmitsReq surroundings session id filters requestSize served :=
    { letIn with filters := ⟨admitted, policy, allowed, limits⟩ }
  cases answer : relay.storedEvents surroundings served with
  | error error => exact .failed rfl rfl
  | ok events =>
      have ran := @run_sendEvents ν id (unexpired surroundings events) { session }
      change ReqOutcome relay surroundings session id filters requestSize
        (((unexpired surroundings events).forM (sendEvent id) >>= fun _ => _).run { session }).2
      rw [run_bind, ran]
      change ReqOutcome relay surroundings session id filters requestSize
        ((keepSubscription id served requestSize events.len).run
          { session, outputs := servedOutputs surroundings id events }).2
      unfold keepSubscription
      by_cases complete : idsLen served = some events.len
      · rw [if_pos complete]
        exact .completed admits answer complete rfl rfl
      · rw [if_neg complete]
        exact .kept admits answer complete rfl rfl

/-- What handling a COUNT comes to. -/
inductive CountOutcome (relay : InnerLocalRelay ν) (surroundings : Surroundings)
    (session : Session ν) (id : SubscriptionId) (filter : Filter) (after : Conversation ν) :
    Prop where
  | refused : ¬ relay.AdmitsCount surroundings session filter → Refused id session after →
      CountOutcome relay surroundings session id filter after
  | failed : after.session = session → after.outputs = [] →
      CountOutcome relay surroundings session id filter after
  | answered {count : Nat} {counted : List Event} : after.session = session →
      after.outputs = [{ message := .count id count, discloses := counted }] →
      CountOutcome relay surroundings session id filter after

theorem handleCount_outcome {filter : Filter} :
    CountOutcome relay surroundings session id filter
      ((relay.handleCount surroundings id filter).run { session }).2 := by
  unfold handleCount
  refine (gate_replyIf (text_ne _ _)).then_holds (fun after stopped => ?_) fun _ unlimited => ?_
  · exact .refused (fun admits => by simp [admits.unlimited] at stopped) stopped.2
  refine gate_checkReadAuth.then_holds (fun after stopped => ?_) fun _ readAuth => ?_
  · exact .refused (fun admits => by simp [admits.readAuth] at stopped) stopped.2
  refine (gate_admitQuery filter).then_holds (fun after stopped => ?_) fun admitted policy => ?_
  · refine .refused (fun admits => ?_) stopped.2
    obtain ⟨admitted, found, _⟩ := admits.filter
    simp [stopped.1] at found
  refine (gate_authorizeFilters [admitted]).then_holds (fun after stopped => ?_) fun _ _ => ?_
  · refine .refused (fun admits => ?_) stopped.2
    obtain ⟨admitted', found, allowed⟩ := admits.filter
    cases Option.some.inj (policy.symm.trans found)
    exact stopped.1 allowed
  cases surroundings.database.count admitted with
  | error error => exact .failed rfl rfl
  | ok counted => exact .answered rfl rfl

end InnerLocalRelay

end RustNostr.NostrSdk.LocalRelay
