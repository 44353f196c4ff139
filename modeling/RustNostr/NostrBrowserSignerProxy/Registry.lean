import Mathlib
import RustNostr.NostrBrowserSignerProxy.SignerProxy

/-!
# The registry of requests

Over every interleaving of callers, browser and shutdown: who is answered by what, which
requests the browser is handed, and what a request leaves behind.
-/

set_option autoImplicit false

namespace RustNostr.BrowserSignerProxy

open Library ProxyState

/-! ## What the operations change -/

namespace ProxyState

variable (state : ProxyState) (caller other : Nat)

theorem call_setPhase (phase : Phase) : (state.setPhase caller phase).call other =
    if caller = other then (state.call other).map fun call => { call with phase := phase }
    else state.call other := by
  rw [call, setPhase, List.getElem?_modify, call]
  split <;> simp

theorem call_addCall : state.addCall.call other =
    if other = state.calls.length then some { phase := .checking } else state.call other := by
  rw [call, addCall, call]
  by_cases last : other = state.calls.length
  · simp [last]
  · rw [if_neg last, List.getElem?_append]
    split
    next => rfl
    next behind =>
      rw [List.getElem?_eq_none (by simp; omega), List.getElem?_eq_none (by omega)]

theorem call_lt {call : Call} (found : state.call caller = some call) : caller < state.calls.length :=
  (List.getElem?_eq_some_iff.mp found).1

end ProxyState

/-! ## The history of a run -/

/-- The IDs that the browser is handed. -/
def Label.handed : Label → List Uuid
  | polls ids => ids
  | _ => []

/-- What is returned to the caller. -/
def Label.returnsTo (caller : Nat) : Label → List Outcome
  | returns returned outcome => if returned = caller then [outcome] else []
  | _ => []

def handed (labels : List Label) : List Uuid := labels.flatMap Label.handed

def returnsTo (caller : Nat) (labels : List Label) : List Outcome := labels.flatMap (Label.returnsTo caller)

theorem handed_concat (labels : List Label) (label : Label) :
    handed (labels ++ [label]) = handed labels ++ label.handed := by
  rw [handed, List.flatMap_append, List.flatMap_singleton, handed]

theorem handed_concat_nothing (labels : List Label) {label : Label} (hands : label.handed = []) :
    handed (labels ++ [label]) = handed labels := by
  rw [handed_concat, hands, List.append_nil]

/-- The browser is handed the whole queue. -/
theorem handed_polls (labels : List Label) (state : ProxyState) :
    handed (labels ++ [.polls state.outgoingIds]) ++ state.clearOutgoing.outgoingIds =
      handed labels ++ state.outgoingIds := by
  rw [handed_concat]
  exact List.append_nil _

theorem returnsTo_concat (caller : Nat) (labels : List Label) (label : Label) :
    returnsTo caller (labels ++ [label]) = returnsTo caller labels ++ label.returnsTo caller := by
  rw [returnsTo, List.flatMap_append, List.flatMap_singleton, returnsTo]

def Phase.outcomes : Phase → List Outcome
  | .returned _ outcome => [outcome]
  | _ => []

theorem Phase.length_outcomes_le (phase : Phase) : phase.outcomes.length ≤ 1 := by
  cases phase <;> simp [outcomes]

/-! ## The invariant -/

/-- How the collections, the callers and the history belong together. -/
structure Registered (labels : List Label) (state : ProxyState) : Prop where
  /-- No two callers have the same ID. -/
  unique : ∀ caller other call call' id, state.call caller = some call → state.call other = some call' →
    call.id? = some id → call'.id? = some id → caller = other
  /-- A sender is pending as long as it has sent nothing. -/
  pending : ∀ id caller, state.pendingResponses.lookup id = some caller ↔
    ∃ call, state.call caller = some call ∧ call.id? = some id ∧ call.sent = none
  queued : ∀ id ∈ handed labels ++ state.outgoingIds, ∃ caller call,
    state.call caller = some call ∧ call.queuedId? = some id
  once : (handed labels ++ state.outgoingIds).Nodup
  sent : ∀ caller call reply, state.call caller = some call → call.sent = some reply →
    ∃ message, .responds message ∈ labels ∧ call.id? = some message.id ∧ message.intoResult = reply
  returns : ∀ caller, returnsTo caller labels = (state.call caller).elim [] fun call => call.phase.outcomes
  answered : ∀ caller call request reply, state.call caller = some call →
    call.phase = .returned request (.answer reply) → call.sent = some reply

theorem registered_init : Registered [] {} where
  unique := by simp [ProxyState.call]
  pending := by simp [ProxyState.call]
  queued := by simp [handed, outgoingIds]
  once := List.nodup_nil
  sent := by simp [ProxyState.call]
  returns := by simp [ProxyState.call, returnsTo]
  answered := by simp [ProxyState.call]

section Preservation

variable {labels : List Label} {state : ProxyState} (registered : Registered labels state)

include registered

theorem registered_flags (isShutdown isStarted : Bool) :
    Registered labels { state with isShutdown := isShutdown, isStarted := isStarted } :=
  ⟨registered.unique, registered.pending, registered.queued, registered.once, registered.sent,
    registered.returns, registered.answered⟩

/-- A step that hands over, returns and changes nothing but flags. -/
theorem registered_label {label : Label} (hands : label.handed = [])
    (silent : ∀ caller, label.returnsTo caller = []) : Registered (labels ++ [label]) state where
  unique := registered.unique
  pending := registered.pending
  queued := by
    rw [handed_concat_nothing labels hands]
    exact registered.queued
  once := by
    rw [handed_concat_nothing labels hands]
    exact registered.once
  sent := by
    intro caller call reply found sent
    obtain ⟨message, member, own⟩ := registered.sent caller call reply found sent
    exact ⟨message, List.mem_append_left _ member, own⟩
  returns := by
    intro caller
    rw [returnsTo_concat, silent, List.append_nil]
    exact registered.returns caller
  answered := registered.answered

theorem registered_addCall : Registered labels state.addCall where
  unique := by
    intro caller other call call' id found found' own own'
    rw [call_addCall] at found found'
    split at found
    next =>
      cases found
      cases own
    next =>
      split at found'
      next =>
        cases found'
        cases own'
      next => exact registered.unique caller other call call' id found found' own own'
  pending := by
    intro id caller
    rw [call_addCall]
    split
    next last =>
      have absent : ¬ state.pendingResponses.lookup id = some caller := by
        rw [registered.pending]
        intro ⟨call, found, _⟩
        have below := state.call_lt caller found
        omega
      constructor
      · exact fun present => absurd present absent
      · intro ⟨call, found, own, _⟩
        cases found
        cases own
    next => exact registered.pending id caller
  queued := by
    intro id member
    obtain ⟨caller, call, found, own⟩ := registered.queued id member
    refine ⟨caller, call, ?_, own⟩
    rw [call_addCall, if_neg (Nat.ne_of_lt (state.call_lt caller found)), found]
  once := registered.once
  sent := by
    intro caller call reply found sent
    rw [call_addCall] at found
    split at found
    next =>
      cases found
      cases sent
    next => exact registered.sent caller call reply found sent
  returns := by
    intro caller
    rw [registered.returns, call_addCall]
    split
    next last =>
      have absent : state.call caller = none := by
        rw [last]
        exact List.getElem?_eq_none (Nat.le_refl _)
      rw [absent]
      rfl
    next => rfl
  answered := by
    intro caller call request reply found answer
    rw [call_addCall] at found
    split at found
    next =>
      cases found
      cases answer
    next => exact registered.answered caller call request reply found answer

/-- A caller that keeps its request, in or out of the queue, changes its phase, and returns
what its new phase says. -/
theorem registered_setPhase {caller : Nat} {call : Call} (found : state.call caller = some call)
    {phase : Phase} (request : phase.request? = call.phase.request?)
    (queued : ∀ request, call.phase.queued? = some request → phase.queued? = some request)
    (answered : ∀ request reply, phase = .returned request (.answer reply) → call.sent = some reply)
    {label : Label} (hands : label.handed = []) (before : call.phase.outcomes = [])
    (returns : label.returnsTo caller = phase.outcomes)
    (silent : ∀ other, caller ≠ other → label.returnsTo other = []) :
    Registered (labels ++ [label]) (state.setPhase caller phase) := by
  have others : ∀ other call', (state.setPhase caller phase).call other = some call' →
      ∃ call, state.call other = some call ∧ call'.id? = call.id? ∧ call'.sent = call.sent := by
    intro other call' found'
    rw [call_setPhase] at found'
    split at found'
    next same =>
      subst same
      rw [found] at found'
      cases found'
      exact ⟨call, found, congrArg (Option.map RequestData.id) request, rfl⟩
    next => exact ⟨call', found', rfl, rfl⟩
  have calls : ∀ other call, state.call other = some call →
      ∃ call', (state.setPhase caller phase).call other = some call' ∧ call'.id? = call.id? ∧
        (∀ id, call.queuedId? = some id → call'.queuedId? = some id) ∧ call'.sent = call.sent := by
    have queuedId : ∀ id, call.queuedId? = some id →
        ({ call with phase := phase } : Call).queuedId? = some id := by
      intro id own
      obtain ⟨request, before, rfl⟩ := Option.map_eq_some_iff.mp own
      exact Option.map_eq_some_iff.mpr ⟨request, queued request before, rfl⟩
    intro other call' found'
    rw [call_setPhase]
    split
    next same =>
      subst same
      rw [found] at found'
      cases found'
      rw [found]
      exact ⟨_, rfl, congrArg (Option.map RequestData.id) request, queuedId, rfl⟩
    next => exact ⟨call', found', rfl, fun _ own => own, rfl⟩
  exact {
    unique := by
      intro first second left right id foundLeft foundRight ownLeft ownRight
      obtain ⟨left', foundLeft', sameLeft, _⟩ := others first left foundLeft
      obtain ⟨right', foundRight', sameRight, _⟩ := others second right foundRight
      exact registered.unique first second left' right' id foundLeft' foundRight' (sameLeft ▸ ownLeft)
        (sameRight ▸ ownRight)
    pending := by
      intro id other
      rw [setPhase, registered.pending]
      constructor
      · intro ⟨call', found', own, unsent⟩
        obtain ⟨call'', found'', same, _, sent⟩ := calls other call' found'
        exact ⟨call'', found'', same.trans own, sent.trans unsent⟩
      · intro ⟨call', found', own, unsent⟩
        obtain ⟨call'', found'', same, sent⟩ := others other call' found'
        exact ⟨call'', found'', same.symm.trans own, sent.symm.trans unsent⟩
    queued := by
      rw [handed_concat_nothing labels hands]
      intro id member
      obtain ⟨other, call', found', own⟩ := registered.queued id member
      obtain ⟨call'', found'', _, stays, _⟩ := calls other call' found'
      exact ⟨other, call'', found'', stays id own⟩
    once := by
      rw [handed_concat_nothing labels hands]
      exact registered.once
    sent := by
      intro other call' reply found' sent
      obtain ⟨call'', found'', same, sameSent⟩ := others other call' found'
      obtain ⟨message, member, own, result⟩ :=
        registered.sent other call'' reply found'' (sameSent.symm.trans sent)
      exact ⟨message, List.mem_append_left _ member, same.trans own, result⟩
    returns := by
      intro other
      rw [returnsTo_concat, registered.returns, call_setPhase]
      split
      next same =>
        subst same
        rw [found, returns]
        simp [before]
      next different => rw [silent other different, List.append_nil]
    answered := by
      intro other call' request' reply found' answer
      rw [call_setPhase] at found'
      split at found'
      next same =>
        subst same
        rw [found] at found'
        cases found'
        exact answered request' reply answer
      next => exact registered.answered other call' request' reply found' answer }

/-- A caller without a request gets a new one, and its sender is pending. -/
theorem registered_storePending {caller : Nat} {call : Call} (found : state.call caller = some call)
    (phase : call.phase = .started) {request : RequestData}
    (fresh : ∀ other call, state.call other = some call → call.id? ≠ some request.id) :
    Registered (labels ++ [.storesPending caller request])
      ((state.storePendingResponse request.id caller).setPhase caller (.stored request)) := by
  have anonymous : call.id? = none := by
    rw [Call.id?, phase]
    rfl
  have unsent : call.sent = none := by
    cases sent : call.sent with
    | none => rfl
    | some reply =>
        obtain ⟨message, _, own, _⟩ := registered.sent caller call reply found sent
        rw [anonymous] at own
        cases own
  have other_call : ∀ other, ((state.storePendingResponse request.id caller).setPhase caller
      (.stored request)).call other =
        if caller = other then some { call with phase := .stored request } else state.call other := by
    intro other
    rw [call_setPhase]
    split
    next same =>
      subst same
      change (state.call caller).map _ = _
      rw [found]
      rfl
    next => rfl
  apply Registered.mk
  case unique =>
    intro first second left right id foundLeft foundRight ownLeft ownRight
    rw [other_call] at foundLeft foundRight
    split at foundLeft
    next here =>
      cases foundLeft
      cases ownLeft
      split at foundRight
      next here' => exact here.symm.trans here'
      next => exact absurd ownRight (fresh second right foundRight)
    next =>
      split at foundRight
      next =>
        cases foundRight
        cases ownRight
        exact absurd ownLeft (fresh first left foundLeft)
      next => exact registered.unique first second left right id foundLeft foundRight ownLeft ownRight
  case pending =>
    intro id other
    rw [other_call]
    change (state.pendingResponses.insert request.id caller).lookup id = some other ↔ _
    by_cases new : id = request.id
    · subst new
      rw [AList.lookup_insert, Option.some.injEq]
      constructor
      · intro same
        rw [if_pos same]
        exact ⟨_, rfl, rfl, unsent⟩
      · intro ⟨call', found', own, _⟩
        split at found'
        next same => exact same
        next => exact absurd own (fresh other call' found')
    · rw [AList.lookup_insert_ne new, registered.pending]
      split
      next same =>
        subst same
        constructor
        · intro ⟨call', found', own, _⟩
          rw [found] at found'
          cases found'
          rw [anonymous] at own
          cases own
        · intro ⟨call', found', own, _⟩
          cases found'
          cases own
          exact absurd rfl new
      next => exact Iff.rfl
  case queued =>
    rw [handed_concat_nothing labels rfl]
    change ∀ id ∈ handed labels ++ state.outgoingIds, _
    intro id member
    obtain ⟨other, call', found', own⟩ := registered.queued id member
    refine ⟨other, call', ?_, own⟩
    rw [other_call, if_neg, found']
    intro same
    subst same
    rw [found] at found'
    cases found'
    rw [Call.queuedId?, phase] at own
    cases own
  case once =>
    rw [handed_concat_nothing labels rfl]
    exact registered.once
  case sent =>
    intro other call' reply found' sent
    rw [other_call] at found'
    split at found'
    next =>
      cases found'
      rw [unsent] at sent
      cases sent
    next =>
      obtain ⟨message, member, own⟩ := registered.sent other call' reply found' sent
      exact ⟨message, List.mem_append_left _ member, own⟩
  case returns =>
    intro other
    rw [returnsTo_concat, registered.returns, other_call]
    split
    next same =>
      subst same
      rw [found]
      simp [phase, Phase.outcomes, Label.returnsTo]
    next => simp [Label.returnsTo]
  case answered =>
    intro other call' request' reply found' answer
    rw [other_call] at found'
    split at found'
    next =>
      cases found'
      cases answer
    next => exact registered.answered other call' request' reply found' answer

/-- A request that was not in the queue before. -/
theorem registered_storeOutgoingRequest {caller : Nat} {call : Call} (found : state.call caller = some call)
    {request : RequestData} (queued : call.queuedId? = some request.id)
    (absent : request.id ∉ handed labels ++ state.outgoingIds) :
    Registered labels (state.storeOutgoingRequest request) where
  unique := registered.unique
  pending := registered.pending
  queued := by
    intro id member
    rw [outgoingIds, storeOutgoingRequest, List.map_append, ← List.append_assoc] at member
    cases List.mem_append.mp member with
    | inl before => exact registered.queued id before
    | inr last =>
        cases List.mem_singleton.mp last
        exact ⟨caller, call, found, queued⟩
  once := by
    rw [outgoingIds, storeOutgoingRequest, List.map_append, ← List.append_assoc]
    exact List.nodup_append.mpr ⟨registered.once, List.nodup_singleton _, by
      intro id before last member same
      cases List.mem_singleton.mp member
      exact absent (same ▸ before)⟩
  sent := registered.sent
  returns := registered.returns
  answered := registered.answered

theorem registered_storeOutgoing {caller : Nat} {call : Call} (found : state.call caller = some call)
    {request : RequestData} (phase : call.phase = .stored request) :
    Registered (labels ++ [.storesOutgoing caller])
      ((state.storeOutgoingRequest request).setPhase caller (.waiting request)) := by
  have absent : request.id ∉ handed (labels ++ [.storesOutgoing caller]) ++
      (state.setPhase caller (.waiting request)).outgoingIds := by
    rw [handed_concat_nothing labels rfl]
    change request.id ∉ handed labels ++ state.outgoingIds
    intro member
    obtain ⟨other, call', found', queued⟩ := registered.queued request.id member
    have own' : call'.id? = some request.id := by
      unfold Call.queuedId? at queued
      unfold Call.id?
      cases phase' : call'.phase <;> rw [phase'] at queued <;>
        first | exact queued | cases queued
    have own : call.id? = some request.id := by
      rw [Call.id?, phase]
      rfl
    cases registered.unique other caller call' call request.id found' found own' own
    rw [found] at found'
    cases found'
    rw [Call.queuedId?, phase] at queued
    cases queued
  have moved : Registered (labels ++ [.storesOutgoing caller]) (state.setPhase caller (.waiting request)) := by
    apply registered_setPhase registered found
    case request => rw [phase]; rfl
    case queued => simp [phase, Phase.queued?]
    case answered => simp
    case hands => rfl
    case before => rw [phase]; rfl
    case returns => rfl
    case silent => exact fun _ _ => rfl
  have waits : (state.setPhase caller (.waiting request)).call caller =
      some { call with phase := .waiting request } := by
    rw [call_setPhase, if_pos rfl, found]
    rfl
  exact registered_storeOutgoingRequest moved waits rfl absent

theorem registered_poll : Registered (labels ++ [.polls state.outgoingIds]) state.clearOutgoing where
  unique := registered.unique
  pending := registered.pending
  queued := by
    rw [handed_polls]
    exact registered.queued
  once := by
    rw [handed_polls]
    exact registered.once
  sent := by
    intro caller call reply found sent
    obtain ⟨message, member, own⟩ := registered.sent caller call reply found sent
    exact ⟨message, List.mem_append_left _ member, own⟩
  returns := by
    intro caller
    rw [returnsTo_concat]
    change returnsTo caller labels ++ [] = _
    rw [List.append_nil]
    exact registered.returns caller
  answered := registered.answered

/-- Only a sender that is pending sends, and it is pending no longer. -/
theorem registered_handleResponse (message : Message) :
    Registered (labels ++ [.responds message]) (state.handleResponse message) := by
  unfold handleResponse
  cases owner : state.pendingResponses.lookup message.id with
  | none => exact registered_label registered rfl fun _ => rfl
  | some caller =>
      obtain ⟨call, found, own, unsent⟩ := (registered.pending message.id caller).mp owner
      dsimp only
      generalize same : ({ state with
        pendingResponses := state.pendingResponses.erase message.id
        calls := state.calls.modify caller fun call => { call with sent := some message.intoResult } } :
          ProxyState) = after
      have call_after : ∀ other, after.call other =
          if caller = other then some { call with sent := some message.intoResult }
          else state.call other := by
        intro other
        rw [← same, ProxyState.call, List.getElem?_modify]
        split
        next here =>
          subst here
          change Option.map _ (state.call caller) = _
          rw [found]
          rfl
        next => simp [ProxyState.call]
      have pending_after : after.pendingResponses = state.pendingResponses.erase message.id :=
        (congrArg ProxyState.pendingResponses same).symm
      have outgoing_after : after.outgoingIds = state.outgoingIds :=
        (congrArg ProxyState.outgoingIds same).symm
      have before : ∀ other call', after.call other = some call' →
          ∃ call, state.call other = some call ∧ call'.phase = call.phase := by
        intro other call' found'
        rw [call_after] at found'
        split at found'
        next here =>
          subst here
          cases found'
          exact ⟨call, found, rfl⟩
        next => exact ⟨call', found', rfl⟩
      apply Registered.mk
      case unique =>
        intro first second left right id foundLeft foundRight ownLeft ownRight
        obtain ⟨left', foundLeft', sameLeft⟩ := before first left foundLeft
        obtain ⟨right', foundRight', sameRight⟩ := before second right foundRight
        rw [Call.id?, sameLeft] at ownLeft
        rw [Call.id?, sameRight] at ownRight
        exact registered.unique first second left' right' id foundLeft' foundRight' ownLeft ownRight
      case pending =>
        intro id other
        rw [pending_after, call_after]
        by_cases answered : id = message.id
        · subst answered
          rw [AList.lookup_erase]
          constructor
          · intro impossible
            cases impossible
          · intro waiting
            obtain ⟨call', found', own', unsent'⟩ := waiting
            split at found'
            next =>
              cases found'
              cases unsent'
            next different => exact absurd (registered.unique caller other call call' _ found found' own own') different
        · rw [AList.lookup_erase_ne answered, registered.pending]
          split
          next here =>
            subst here
            constructor
            · intro waiting
              obtain ⟨call', found', own', _⟩ := waiting
              rw [found] at found'
              cases found'
              rw [own] at own'
              cases own'
              exact absurd rfl answered
            · intro waiting
              obtain ⟨call', found', _, unsent'⟩ := waiting
              cases found'
              cases unsent'
          next => exact Iff.rfl
      case queued =>
        rw [handed_concat_nothing labels rfl, outgoing_after]
        intro id member
        obtain ⟨other, call', found', own'⟩ := registered.queued id member
        rw [Call.queuedId?] at own'
        by_cases here : caller = other
        · subst here
          rw [found] at found'
          cases found'
          exact ⟨caller, { call with sent := some message.intoResult }, by rw [call_after, if_pos rfl], own'⟩
        · exact ⟨other, call', by rw [call_after, if_neg here, found'], own'⟩
      case once =>
        rw [handed_concat_nothing labels rfl, outgoing_after]
        exact registered.once
      case sent =>
        intro other call' reply found' sent
        rw [call_after] at found'
        split at found'
        next =>
          cases found'
          cases sent
          exact ⟨message, List.mem_append_right _ List.mem_cons_self, own, rfl⟩
        next =>
          obtain ⟨message', member, own'⟩ := registered.sent other call' reply found' sent
          exact ⟨message', List.mem_append_left _ member, own'⟩
      case returns =>
        intro other
        rw [returnsTo_concat, registered.returns, call_after]
        split
        next here =>
          subst here
          rw [found]
          simp [Label.returnsTo]
        next => simp [Label.returnsTo]
      case answered =>
        intro other call' request reply found' answer
        rw [call_after] at found'
        split at found'
        next =>
          cases found'
          have sent := registered.answered caller call request reply found answer
          rw [unsent] at sent
          cases sent
        next => exact registered.answered other call' request reply found' answer

end Preservation

/-! ## Runs -/

attribute [local simp] Phase.request? Phase.queued? Phase.outcomes Label.handed Label.returnsTo in
theorem registered_step {labels : List Label} {label : Label} {state next : ProxyState}
    (registered : Registered labels state) (step : Step state label next) :
    Registered (labels ++ [label]) next := by
  cases step with
  | call => exact registered_label (registered_addCall registered) rfl fun _ => rfl
  | refuse found phase _ => apply registered_setPhase registered found <;> simp [phase]
  | check found phase _ => apply registered_setPhase registered found <;> simp [phase]
  | join found phase _ => apply registered_setPhase registered found <;> simp [phase]
  | start found phase _ =>
      apply registered_setPhase (registered_flags registered state.isShutdown true) found <;> simp [phase]
  | bind found phase => apply registered_setPhase registered found <;> simp [phase]
  | bindFailed found phase =>
      apply registered_setPhase (registered_flags registered state.isShutdown false) found <;> simp [phase]
  | storePending found phase fresh => exact registered_storePending registered found phase fresh
  | storeOutgoing found phase => exact registered_storeOutgoing registered found phase
  | receive found phase sent => apply registered_setPhase registered found <;> simp [phase, sent]
  | timeOut found phase unsent => apply registered_setPhase registered found <;> simp [phase]
  | poll => exact registered_poll registered
  | respond message => exact registered_handleResponse registered message
  | shutdown =>
      exact registered_label (registered_flags registered true state.isStarted) rfl fun _ => rfl

theorem registered_of_run {trace : List (ProxyState × Label)} {state : ProxyState}
    (run : Run (Traced Step) {} trace state) : Registered (trace.map Prod.snd) state := by
  induction run with
  | nil => exact registered_init
  | snoc _ last before =>
      rw [List.map_append]
      exact registered_step before last.2

/-! ## What requests leave behind -/

/-- No request that has returned is in the queue or has a pending sender. -/
def Cleared (state : ProxyState) : Prop :=
  ∀ caller call request outcome, state.call caller = some call →
    call.phase = .returned (some request) outcome →
      state.pendingResponses.lookup request.id = none ∧ request.id ∉ state.outgoingIds

/-- No request times out, and the answer that a caller takes is one to a request that the
browser was handed. -/
def Clean (before : ProxyState) : Label → Prop
  | .returns _ .timeout => False
  | .returns caller (.answer _) => ∀ call request, before.call caller = some call →
      call.phase = .waiting request → request.id ∉ before.outgoingIds
  | _ => True

/-- `Cleared`, seen from the callers. -/
def Settled (state : ProxyState) : Prop :=
  ∀ caller call request outcome, state.call caller = some call →
    call.phase = .returned (some request) outcome → call.sent ≠ none ∧ request.id ∉ state.outgoingIds

theorem id?_returned {call : Call} {request : RequestData} {outcome : Outcome}
    (phase : call.phase = .returned (some request) outcome) : call.id? = some request.id := by
  rw [Call.id?, phase]
  rfl

theorem cleared_iff_settled {labels : List Label} {state : ProxyState}
    (registered : Registered labels state) : Cleared state ↔ Settled state := by
  refine forall_congr' fun caller => forall_congr' fun call => forall_congr' fun request =>
    forall_congr' fun outcome => imp_congr_right fun found => imp_congr_right fun phase =>
      and_congr_left fun _ => ?_
  have own := id?_returned phase
  constructor
  · intro absent unsent
    have present := (registered.pending request.id caller).mpr ⟨call, found, own, unsent⟩
    rw [absent] at present
    cases present
  · intro sent
    cases owner : state.pendingResponses.lookup request.id with
    | none => rfl
    | some other =>
        obtain ⟨call', found', own', unsent⟩ := (registered.pending request.id other).mp owner
        cases registered.unique other caller call' call request.id found' found own' own
        rw [found] at found'
        cases found'
        exact absurd unsent sent

theorem settled_setPhase {state : ProxyState} (settled : Settled state) {caller : Nat} {call : Call}
    (found : state.call caller = some call) {phase : Phase}
    (own : ∀ request outcome, phase = .returned (some request) outcome →
      call.sent ≠ none ∧ request.id ∉ state.outgoingIds) : Settled (state.setPhase caller phase) := by
  intro other call' request outcome found' returned
  rw [call_setPhase] at found'
  split at found'
  next same =>
    subst same
    rw [found] at found'
    cases found'
    exact own request outcome returned
  next => exact settled other call' request outcome found' returned

theorem settled_storeOutgoing {labels : List Label} {state : ProxyState}
    (registered : Registered labels state) (settled : Settled state) {caller : Nat} {call : Call}
    (found : state.call caller = some call) {request : RequestData} (phase : call.phase = .stored request) :
    Settled ((state.storeOutgoingRequest request).setPhase caller (.waiting request)) := by
  intro other call' request' outcome found' returned
  rw [call_setPhase] at found'
  split at found'
  next same =>
    subst same
    change (state.call caller).map _ = _ at found'
    rw [found] at found'
    cases found'
    cases returned
  next different =>
    obtain ⟨sent, absent⟩ := settled other call' request' outcome found' returned
    refine ⟨sent, ?_⟩
    change request'.id ∉ (state.outgoingRequests ++ [request]).map RequestData.id
    rw [List.map_append, List.mem_append, not_or]
    refine ⟨absent, ?_⟩
    intro member
    have own : call.id? = some request'.id := by
      rw [Call.id?, phase, List.mem_singleton.mp member]
      rfl
    exact different (registered.unique caller other call call' _ found found' own (id?_returned returned))

theorem settled_handleResponse {state : ProxyState} (settled : Settled state) (message : Message) :
    Settled (state.handleResponse message) := by
  unfold handleResponse
  cases state.pendingResponses.lookup message.id with
  | none => exact settled
  | some caller =>
      intro other call' request outcome found' returned
      rw [ProxyState.call, List.getElem?_modify] at found'
      cases found : state.call other with
      | none =>
          rw [ProxyState.call] at found
          rw [found] at found'
          split at found' <;> cases found'
      | some call =>
          have before := found
          rw [ProxyState.call] at found
          rw [found] at found'
          split at found'
          next =>
            cases found'
            exact ⟨nofun, (settled other call request outcome before returned).2⟩
          next =>
            cases found'
            exact settled other call request outcome before returned

theorem settled_step {labels : List Label} {label : Label} {state next : ProxyState}
    (registered : Registered labels state) (settled : Settled state) (clean : Clean state label)
    (step : Step state label next) : Settled next := by
  cases step with
  | call =>
      intro other call' request outcome found' returned
      rw [call_addCall] at found'
      split at found'
      next =>
        cases found'
        cases returned
      next => exact settled other call' request outcome found' returned
  | refuse found | check found | join found | bind found =>
      exact settled_setPhase settled found nofun
  | @start caller call found | @bindFailed caller call found => exact @settled_setPhase _ settled caller call found _ nofun
  | @storePending caller call request found phase fresh =>
      exact @settled_setPhase (state.storePendingResponse request.id caller) settled caller call found _ nofun
  | storeOutgoing found phase => exact settled_storeOutgoing registered settled found phase
  | @receive caller call request reply found phase sent =>
      apply settled_setPhase settled found
      intro request' outcome same
      cases same
      exact ⟨by rw [sent]; exact nofun, clean call request found phase⟩
  | timeOut => exact clean.elim
  | poll =>
      intro other call' request outcome found' returned
      exact ⟨(settled other call' request outcome found' returned).1, List.not_mem_nil⟩
  | respond message => exact settled_handleResponse settled message
  | shutdown => exact settled

theorem clean_of_cleared {labels : List Label} {label : Label} {state next : ProxyState}
    (registered : Registered labels state) (step : Step state label next) (cleared : Cleared next) :
    Clean state label := by
  cases step with
  | @receive caller call request reply found phase sent =>
      intro call' request' found' phase'
      rw [found] at found'
      cases found'
      rw [phase] at phase'
      cases phase'
      have returned : (state.setPhase caller (.returned (some request) (.answer reply))).call caller =
          some { call with phase := .returned (some request) (.answer reply) } := by
        rw [call_setPhase, if_pos rfl, found]
        rfl
      exact (cleared caller _ request _ returned rfl).2
  | @timeOut caller call request found phase unsent =>
      have returned : (state.setPhase caller (.returned (some request) .timeout)).call caller =
          some { call with phase := .returned (some request) .timeout } := by
        rw [call_setPhase, if_pos rfl, found]
        rfl
      have own : call.id? = some request.id := by
        rw [Call.id?, phase]
        rfl
      have present := (registered.pending request.id caller).mpr ⟨call, found, own, unsent⟩
      have absent : state.pendingResponses.lookup request.id = none := (cleared caller _ request _ returned rfl).1
      rw [absent] at present
      cases present
  | _ => trivial

/-- Callers get at most one answer, the one with the ID of their request; and the browser
is handed no ID twice. -/
structure Answered (labels : List Label) (state : ProxyState) : Prop where
  once : ∀ caller, (returnsTo caller labels).length ≤ 1
  own : ∀ caller reply, .answer reply ∈ returnsTo caller labels → ∃ call request message,
    state.call caller = some call ∧ call.phase = .returned (some request) (.answer reply) ∧
      .responds message ∈ labels ∧ message.id = request.id ∧ message.intoResult = reply
  handed : (handed labels).Nodup

theorem answered_of_registered {labels : List Label} {state : ProxyState}
    (registered : Registered labels state) : Answered labels state where
  once := by
    intro caller
    rw [registered.returns]
    cases state.call caller with
    | none => exact Nat.zero_le _
    | some call => exact call.phase.length_outcomes_le
  own := by
    intro caller reply member
    rw [registered.returns] at member
    cases found : state.call caller with
    | none =>
        rw [found] at member
        cases member
    | some call =>
        rw [found] at member
        change Outcome.answer reply ∈ call.phase.outcomes at member
        cases phase : call.phase with
        | returned request outcome =>
            rw [phase] at member
            cases List.mem_singleton.mp member
            have sent := registered.answered caller call request reply found phase
            obtain ⟨message, responded, own, result⟩ := registered.sent caller call reply found sent
            rw [Call.id?, phase] at own
            obtain ⟨request, rfl, same⟩ := Option.map_eq_some_iff.mp own
            exact ⟨call, request, message, rfl, phase, responded, same.symm, result⟩
        | _ =>
            rw [phase] at member
            cases member
  handed := (List.nodup_append.mp registered.once).1

/-- In every run the answers go where they belong. In those of its states and no others
that no request has left anything in, all steps are clean. -/
theorem requests_registered {trace : List (ProxyState × Label)} {state : ProxyState}
    (run : Run (Traced Step) {} trace state) :
    Answered (trace.map Prod.snd) state ∧
      (((∀ entry ∈ trace, Cleared entry.1) ∧ Cleared state) ↔
        ∀ entry ∈ trace, Clean entry.1 entry.2) := by
  refine ⟨answered_of_registered (registered_of_run run), ?_⟩
  induction run with
  | nil =>
      constructor
      · exact fun _ => nofun
      · refine fun _ => ⟨nofun, ?_⟩
        intro caller call request outcome found
        cases found
  | @snoc trace middle finish label before last ih =>
      obtain ⟨same, step⟩ := last
      have registered := registered_of_run before
      simp only [List.forall_mem_append, List.forall_mem_singleton, same]
      constructor
      · intro ⟨earlier, cleared⟩
        exact ⟨ih.mp earlier, clean_of_cleared registered step cleared⟩
      · intro ⟨earlier, clean⟩
        obtain ⟨before', cleared⟩ := ih.mpr earlier
        have settled := settled_step registered ((cleared_iff_settled registered).mp cleared) clean step
        exact ⟨⟨before', cleared⟩, (cleared_iff_settled (registered_step registered step)).mpr settled⟩

def sampleRequest : RequestData where
  id := 1
  method := .getPublicKey
  params := .object []

/-- One caller waits, and the browser has not asked yet. -/
def sampleWaiting : ProxyState where
  isStarted := true
  outgoingRequests := [sampleRequest]
  pendingResponses := (∅ : AList fun _ : Uuid => Nat).insert 1 0
  calls := [{ phase := .waiting sampleRequest }]

theorem sampleWaiting_run : ∃ trace, Run (Traced Step) {} trace sampleWaiting ∧
    ∀ entry ∈ trace, Clean entry.1 entry.2 := by
  have fresh : ∀ other call, ProxyState.call
      { isStarted := true, calls := [{ phase := .started }] } other = some call →
        call.id? ≠ some sampleRequest.id := by
    intro other call found
    cases other with
    | zero =>
        cases found
        exact nofun
    | succ other => cases found
  have called := (@Run.nil _ _ (Traced Step) {}).trace .call
  have checked := called.trace (@Step.check _ 0 _ rfl rfl rfl)
  have begun := checked.trace (@Step.start _ 0 _ rfl rfl rfl)
  have bound := begun.trace (@Step.bind _ 0 _ rfl rfl)
  have pending := bound.trace (@Step.storePending _ 0 _ sampleRequest rfl rfl fresh)
  have waiting := pending.trace (@Step.storeOutgoing _ 0 _ _ rfl rfl)
  refine ⟨_, waiting, ?_⟩
  simp [Clean]

def sampleMessage : Message where
  id := 1
  error := none
  result := some (.string "key")

/-- The browser asks, answers, and the caller takes the answer. -/
theorem requests_registered_answer : ∃ trace state, Run (Traced Step) {} trace state ∧
    state.calls.length = 1 ∧ Cleared state := by
  obtain ⟨_, waiting, clean⟩ := sampleWaiting_run
  have polled := waiting.trace .poll
  have answered := polled.trace (.respond sampleMessage)
  have returned := answered.trace (@Step.receive _ 0 _ _ _ rfl rfl rfl)
  refine ⟨_, _, returned, rfl, ((requests_registered returned).2.mpr ?_).2⟩
  simp only [List.forall_mem_append, List.forall_mem_singleton]
  refine ⟨⟨⟨clean, trivial⟩, trivial⟩, ?_⟩
  exact fun _ _ _ _ => List.not_mem_nil

/-- A caller that times out leaves its request in the queue and its sender in the map. -/
theorem requests_left_behind : ∃ trace state, Run (Traced Step) {} trace state ∧ ¬ Cleared state := by
  obtain ⟨_, waiting, _⟩ := sampleWaiting_run
  have returned := waiting.trace (@Step.timeOut _ 0 _ _ rfl rfl rfl)
  refine ⟨_, _, returned, fun cleared => ?_⟩
  have absent := (cleared 0 _ sampleRequest _ rfl rfl).2
  exact absent List.mem_cons_self

end RustNostr.BrowserSignerProxy
