import Mathlib
import RustNostr.NostrSdk.LocalRelay.Stages

/-!
# Gift wraps reach their recipients

With `auth_dm` and without a query policy, what a session learns of gift wraps,
over every run of client messages and live events.
-/

set_option autoImplicit false

namespace RustNostr.NostrSdk.LocalRelay

open Library Transaction Handler

variable {ν : Type}

def IsGiftWrap (event : Event) : Prop := event.kind.asU16 = Kind.giftWrap.asU16

instance (event : Event) : Decidable (IsGiftWrap event) :=
  inferInstanceAs (Decidable (_ = _))

/-- A `p` tag of the event carries the public key. -/
def AddressedTo (externals : Externals) (event : Event) (publicKey : PublicKey) : Prop :=
  ∃ tag ∈ event.tags, tag.singleLetterTag = some .lowercaseP ∧
    tag.content = some (externals.hexEncode publicKey.val)

/-- The session has sent an AUTH event of the public key, and it was accepted. -/
def Authenticated (history : List (Input × List Output)) (publicKey : PublicKey) : Prop :=
  ∃ label ∈ history, ∃ event messageSize surroundings,
    label.1 = .text (.auth event) messageSize surroundings ∧ event.pubkey = publicKey ∧
      { message := .ok event.id true "" } ∈ label.2

/-- A gift wrap only goes to a session that has authenticated as its recipient. -/
def MayLearn (externals : Externals) (history : List (Input × List Output)) (event : Event) : Prop :=
  IsGiftWrap event → ∃ publicKey, Authenticated history publicKey ∧
    AddressedTo externals event publicKey

namespace Database

/-- The gift wraps among the answers have the kinds and tags that were asked
for. -/
structure AnswersMatch (database : Database) : Prop where
  query : ∀ index filter events, database.query index filter = .ok events →
    ∀ event ∈ events.values, IsGiftWrap event →
      filter.kindMatch event = true ∧ filter.tagMatch event = true
  count : ∀ filter events, database.count filter = .ok events →
    ∀ event ∈ events, IsGiftWrap event →
      filter.kindMatch event = true ∧ filter.tagMatch event = true
  negentropyItems : ∀ filter events, database.negentropyItems filter = .ok events →
    ∀ event ∈ events, IsGiftWrap event →
      filter.kindMatch event = true ∧ filter.tagMatch event = true

end Database

namespace Input

/-- The filters that a message asks to be served by. -/
def filters : Input → List Filter
  | text (.req _ filters) _ _ => filters
  | text (.count _ filter) _ _ => [filter]
  | text (.negOpen _ filter _) _ _ => [filter]
  | _ => []

def AnswersMatch : Input → Prop
  | text _ _ surroundings => surroundings.database.AnswersMatch
  | _ => True

end Input

namespace InnerLocalRelay

variable (relay : InnerLocalRelay ν)

/-- The kinds of the filter are present but empty, and its `#p` is not the
session's own public key alone. -/
def AsksWithEmptyKinds (session : Session ν) (filter : Filter) : Prop :=
  filter.kinds.any SortedSet.isEmpty = true ∧
    ∀ publicKey, session.nip42.publicKey = some publicKey →
      relay.isAddressedTo filter publicKey = false

/-- Turns that take up no message asking with empty kinds. -/
def KindlyTurn (connection : Connection ν) (label : Input × List Output)
    (connection' : Connection ν) : Prop :=
  relay.Turn connection label connection' ∧
    ∀ filter ∈ label.1.filters, ¬ relay.AsksWithEmptyKinds connection.session filter

end InnerLocalRelay

section Filters

variable {relay : InnerLocalRelay ν} {history : List (Input × List Output)}

/-- All gift wraps that the kinds and tags of a filter select may be learned. -/
def Guarded (externals : Externals) (history : List (Input × List Output)) (filter : Filter) :
    Prop :=
  ∀ event, filter.kindMatch event = true → filter.tagMatch event = true →
    MayLearn externals history event

theorem addressedTo_of_tagMatch {filter : Filter} {publicKey : PublicKey} {event : Event}
    (addressed : relay.isAddressedTo filter publicKey = true)
    (selects : filter.tagMatch event = true) :
    AddressedTo relay.externals event publicKey := by
  unfold InnerLocalRelay.isAddressedTo at addressed
  cases tags : filter.genericTags.get? .lowercaseP with
  | none => simp [tags] at addressed
  | some publicKeys =>
      simp only [tags, Bool.and_eq_true, decide_eq_true_eq, List.contains_iff_mem] at addressed
      obtain ⟨single, own⟩ := addressed
      have entry := SortedTable.get?_eq_some.mp tags
      have nonempty : filter.genericTags.entries.isEmpty = false := by
        simpa using List.ne_nil_of_mem entry
      simp only [Filter.tagMatch, nonempty, Bool.false_eq_true, if_false] at selects
      split at selects
      · cases selects
      · obtain ⟨value, member, carried⟩ :=
          List.any_eq_true.mp (List.all_eq_true.mp selects _ entry)
        have only : value = relay.externals.hexEncode publicKey.val := by
          have size : (SortedSet.elems publicKeys).length = 1 := by
            simpa [SortedSet.elems, SortedTable.len] using single
          obtain ⟨element, elements⟩ := List.length_eq_one_iff.mp size
          rw [elements, List.mem_singleton] at member own
          rw [member, own]
        subst only
        rw [List.contains_iff_mem, List.mem_filterMap] at carried
        obtain ⟨tag, tagMember, found⟩ := carried
        refine ⟨tag, tagMember, ?_⟩
        cases name : tag.singleLetterTag with
        | none => simp [name] at found
        | some letter =>
            cases content : tag.content with
            | none => simp [name, content] at found
            | some text =>
                simp only [name, content, Option.bind_some, Option.map_some, Option.some.injEq,
                  Prod.mk.injEq] at found
                simp [found]

theorem isGiftWrapFilter_of_kindMatch {filter : Filter} {event : Event}
    (kinds : filter.kinds.any SortedSet.isEmpty = false) (giftWrap : IsGiftWrap event)
    (selects : filter.kindMatch event = true) :
    InnerLocalRelay.isGiftWrapFilter filter = true := by
  unfold InnerLocalRelay.isGiftWrapFilter
  cases present : filter.kinds with
  | none => rfl
  | some set =>
      simp only [present, Option.any_some] at kinds
      have giftWrap : event.kind.asU16 = Kind.giftWrap.asU16 := giftWrap
      simpa only [Filter.kindMatch, Filter.setMatch, present, kinds, Bool.false_or, giftWrap]
        using selects

/-- What an allowed filter selects may be learned, unless it asks with empty
kinds. -/
theorem guarded_of_allowed {session : Session ν} {filters : List Filter} {filter : Filter}
    (authDm : relay.authDm = true)
    (own : ∀ publicKey, session.nip42.publicKey = some publicKey → Authenticated history publicKey)
    (allowed : relay.giftWrapQueryAccess session filters = .allowed) (member : filter ∈ filters)
    (kindly : ¬ relay.AsksWithEmptyKinds session filter) :
    Guarded relay.externals history filter := by
  intro event kindSelects tagSelects giftWrap
  have authorized : ∀ publicKey, session.nip42.publicKey = some publicKey →
      relay.isAddressedTo filter publicKey = true → ∃ publicKey,
        Authenticated history publicKey ∧ AddressedTo relay.externals event publicKey :=
    fun publicKey current addressed =>
      ⟨publicKey, own publicKey current, addressedTo_of_tagMatch addressed tagSelects⟩
  cases kinds : filter.kinds.any SortedSet.isEmpty with
  | true =>
      unfold InnerLocalRelay.AsksWithEmptyKinds at kindly
      push Not at kindly
      obtain ⟨publicKey, current, addressed⟩ := kindly kinds
      exact authorized publicKey current (by simpa using addressed)
  | false =>
      have asks := isGiftWrapFilter_of_kindMatch kinds giftWrap kindSelects
      have listed : filter ∈ filters.filter InnerLocalRelay.isGiftWrapFilter :=
        List.mem_filter.mpr ⟨member, asks⟩
      simp only [InnerLocalRelay.giftWrapQueryAccess, authDm, Bool.not_true, Bool.false_eq_true,
        if_false] at allowed
      cases current : session.nip42.publicKey with
      | none =>
          have nonempty : (filters.filter InnerLocalRelay.isGiftWrapFilter).isEmpty = false := by
            simpa using List.ne_nil_of_mem listed
          simp [current, nonempty] at allowed
      | some publicKey =>
          simp only [current] at allowed
          split at allowed
          · next addressed =>
              exact authorized publicKey current (List.all_eq_true.mp addressed filter listed)
          · cases allowed

end Filters

/-! ## What a session may hold and tell -/

structure Safe (externals : Externals) (history : List (Input × List Output))
    (session : Session ν) : Prop where
  own : ∀ publicKey, session.nip42.publicKey = some publicKey → Authenticated history publicKey
  subscriptions : ∀ id subscription, session.subscriptions.get? id = some subscription →
    ∀ filter ∈ subscription.filters, Guarded externals history filter
  negentropy : ∀ id subscription, session.negentropySubscription.get? id = some subscription →
    ∀ event ∈ subscription.storage, MayLearn externals history event

def Discreet (externals : Externals) (history : List (Input × List Output))
    (outputs : List Output) : Prop :=
  ∀ output ∈ outputs, ∀ event ∈ output.discloses, MayLearn externals history event

structure Keeps (externals : Externals) (history : List (Input × List Output))
    (publicKey : Option PublicKey) (conversation : Conversation ν) : Prop where
  safe : Safe externals history conversation.session
  discreet : Discreet externals history conversation.outputs
  publicKey : conversation.session.nip42.publicKey = publicKey

section Stages

variable {externals : Externals} {history : List (Input × List Output)}
  {publicKey : Option PublicKey} {α : Type}

theorem Discreet.add {outputs : List Output} {output : Output}
    (discreet : Discreet externals history outputs)
    (learnable : ∀ event ∈ output.discloses, MayLearn externals history event) :
    Discreet externals history (outputs ++ [output]) := by
  intro other member
  cases List.mem_append.mp member with
  | inl before => exact discreet other before
  | inr here =>
      cases List.mem_singleton.mp here
      exact learnable

theorem sendDisclosing_keeps {message : RelayMessage} {events : List Event}
    (learnable : ∀ event ∈ events, MayLearn externals history event) :
    Preserves (Keeps externals history publicKey)
      (sendDisclosing message events : Handler ν Unit) := by
  apply Preserves.modify
  intro conversation keeps
  exact ⟨keeps.safe, keeps.discreet.add learnable, keeps.publicKey⟩

theorem quiet_keeps :
    Quiet (fun _ => True) (Keeps externals history publicKey : Conversation ν → Prop) where
  tell _ _ _ keeps := ⟨keeps.safe, keeps.discreet.add (by simp), keeps.publicKey⟩
  challenge _ _ keeps :=
    ⟨⟨keeps.safe.own, keeps.safe.subscriptions, keeps.safe.negentropy⟩,
      keeps.discreet.add (by simp), keeps.publicKey⟩
  broadcast _ _ keeps := ⟨keeps.safe, keeps.discreet, keeps.publicKey⟩

theorem getSession_establishes :
    Establishes (Keeps externals history publicKey) (getSession : Handler ν (Session ν))
      fun session => Safe externals history session ∧ session.nip42.publicKey = publicKey := by
  intro conversation keeps
  refine ⟨keeps, fun session found => ?_⟩
  cases found
  exact ⟨keeps.safe, keeps.publicKey⟩

theorem setSession_keeps {session : Session ν} (safe : Safe externals history session)
    (same : session.nip42.publicKey = publicKey) :
    Preserves (Keeps externals history publicKey) (setSession session : Handler ν Unit) := by
  apply Preserves.modify
  intro conversation keeps
  exact ⟨safe, keeps.discreet, same⟩

theorem propagate_establishes (answer : Except Error α) :
    Establishes (Keeps externals history publicKey) (propagate answer : Handler ν α)
      fun value => answer = .ok value := by
  intro conversation keeps
  cases answer with
  | ok value => exact ⟨keeps, fun other same => by cases same; rfl⟩
  | error error => exact ⟨keeps, fun other same => by cases same⟩

namespace InnerLocalRelay

variable (relay : InnerLocalRelay ν) (surroundings : Surroundings)

/-! ## REQ and COUNT -/

variable {relay surroundings}

/-- The filters that a session asks with, when no turn asks with empty kinds. -/
def Kindly (relay : InnerLocalRelay ν) (publicKey : Option PublicKey) (filters : List Filter) :
    Prop :=
  ∀ session : Session ν, session.nip42.publicKey = publicKey →
    ∀ filter ∈ filters, ¬ relay.AsksWithEmptyKinds session filter

theorem authorizeFilters_establishes {filters : List Filter} {refusal : String → RelayMessage}
    (authDm : relay.authDm = true) (kindly : relay.Kindly publicKey filters) :
    Establishes (Keeps relay.externals history publicKey)
      (relay.authorizeFilters surroundings filters refusal)
      fun _ => ∀ filter ∈ filters, Guarded relay.externals history filter := by
  apply Establishes.bind getSession_establishes
  intro session known conversation keeps
  obtain ⟨safe, same⟩ := known
  obtain ⟨kept, allowed⟩ := quiet_keeps.answerAccess_establishes surroundings (fun _ => trivial)
    (relay.giftWrapQueryAccess session filters) conversation keeps
  exact ⟨kept, fun value returned filter member =>
    guarded_of_allowed authDm safe.own (allowed value returned) member
      (kindly session same filter member)⟩

theorem admitQuery_establishes {filter : Filter} {refusal : String → RelayMessage}
    (noPolicy : relay.queryPolicy = none) :
    Establishes (Keeps externals history publicKey) (relay.admitQuery filter refusal)
      fun admitted => admitted = filter := by
  unfold admitQuery
  rw [noPolicy]
  exact Establishes.pure rfl

theorem guarded_limitFilter {filter limited : Filter}
    (guarded : Guarded externals history filter)
    (limits : relay.limitFilter filter = some limited) : Guarded externals history limited := by
  unfold limitFilter at limits
  split at limits
  · cases limits
    exact guarded
  · split at limits
    · cases limits
    · cases limits
      exact guarded
  · cases limits
    exact guarded

theorem limitFilters_establishes {id : SubscriptionId} {filters : List Filter}
    (guarded : ∀ filter ∈ filters, Guarded externals history filter) :
    Establishes (Keeps externals history publicKey) (relay.limitFilters id filters)
      fun limited => ∀ filter ∈ limited, Guarded externals history filter := by
  apply Establishes.mapM
  intro filter member
  cases limits : relay.limitFilter filter with
  | some limited => exact Establishes.pure (guarded_limitFilter (guarded filter member) limits)
  | none =>
      intro conversation keeps
      exact ⟨quiet_keeps.reply trivial conversation keeps, fun _ returned => by cases returned⟩

theorem mem_insert {events : EventSet} {event other : Event}
    (member : other ∈ (events.insert event).values) : other = event ∨ other ∈ events.values := by
  obtain ⟨key, found⟩ := SortedTable.mem_values.mp member
  rw [EventSet.insert, SortedTable.get?_putNew] at found
  split at found
  · cases present : events.get? event.orderingKey with
    | none =>
        rw [present] at found
        cases found
        exact .inl rfl
    | some kept =>
        rw [present] at found
        cases found
        exact .inr (SortedTable.mem_values.mpr ⟨_, present⟩)
  · exact .inr (SortedTable.mem_values.mpr ⟨_, found⟩)

theorem mem_foldl_insert {events : EventSet} {added : List Event} {other : Event}
    (member : other ∈ (added.foldl EventSet.insert events).values) :
    other ∈ added ∨ other ∈ events.values := by
  induction added generalizing events with
  | nil => exact .inr member
  | cons event added ih =>
      cases ih member with
      | inl later => exact .inl (List.mem_cons_of_mem _ later)
      | inr here =>
          cases mem_insert here with
          | inl same => exact .inl (same ▸ List.mem_cons_self)
          | inr before => exact .inr before

theorem queryAll_mayLearn {database : Database} {filters : List Filter} {events : EventSet}
    (answers : database.AnswersMatch)
    (guarded : ∀ filter ∈ filters, Guarded externals history filter)
    (queried : queryAll database filters = .ok events) :
    ∀ event ∈ events.values, MayLearn externals history event := by
  refine foldlM_keeps (fun events : EventSet => ∀ event ∈ events.values,
    MayLearn externals history event) ?_ ?_ queried
  · intro events indexed next member before stepped
    obtain ⟨filter, index⟩ := indexed
    have listed : filter ∈ filters := (List.mem_zipIdx' member).2 ▸ List.getElem_mem _
    cases answer : database.query index filter with
    | error error => simp [answer, bind, Except.bind] at stepped
    | ok answered =>
        simp only [answer, bind, Except.bind, pure, Except.pure, Except.ok.injEq] at stepped
        subst stepped
        intro event found
        cases mem_foldl_insert found with
        | inr earlier => exact before event earlier
        | inl here =>
            intro giftWrap
            obtain ⟨kinds, tags⟩ := answers.query index filter answered answer event here giftWrap
            exact guarded filter listed event kinds tags giftWrap
  · intro event member
    cases member

theorem storedEvents_mayLearn {filters : List Filter} {events : EventSet}
    (answers : surroundings.database.AnswersMatch)
    (guarded : ∀ filter ∈ filters, Guarded externals history filter)
    (stored : relay.storedEvents surroundings filters = .ok events) :
    ∀ event ∈ events.values, MayLearn externals history event := by
  unfold storedEvents at stored
  split at stored
  · cases stored
    intro event member giftWrap
    cases mem_foldl_insert member with
    | inr absurd => cases absurd
    | inl made =>
        obtain ⟨origin, _, same⟩ := List.mem_map.mp made
        subst same
        cases (show (1 : UInt16) = 1059 from giftWrap)
  · exact queryAll_mayLearn answers guarded stored

theorem keepSubscription_keeps {id : SubscriptionId} {filters : List Filter}
    {requestSize found : Nat} (guarded : ∀ filter ∈ filters, Guarded externals history filter) :
    Preserves (Keeps externals history publicKey)
      (keepSubscription id filters requestSize found : Handler ν Unit) := by
  apply Preserves.ite (quiet_keeps.send trivial)
  apply Establishes.bind_preserves getSession_establishes
  intro session known
  obtain ⟨safe, same⟩ := known
  refine setSession_keeps ⟨safe.own, fun other subscription present => ?_, safe.negentropy⟩ same
  simp only [Session.insertSubscription, SortedTable.get?_put] at present
  split at present
  · cases present
    exact guarded
  · exact safe.subscriptions other subscription present

theorem serveReq_keeps {id : SubscriptionId} {filters : List Filter} {requestSize : Nat}
    (answers : surroundings.database.AnswersMatch)
    (guarded : ∀ filter ∈ filters, Guarded externals history filter) :
    Preserves (Keeps externals history publicKey)
      (relay.serveReq surroundings id filters requestSize) := by
  apply Establishes.bind_preserves (limitFilters_establishes guarded)
  intro limited guarded
  apply Establishes.bind_preserves (propagate_establishes _)
  intro events stored
  have mayLearn := storedEvents_mayLearn answers guarded stored
  refine Preserves.bind (Preserves.forM fun event member => sendDisclosing_keeps ?_) ?_
  · intro other same
    cases List.mem_singleton.mp same
    exact mayLearn event (List.mem_of_mem_filter member)
  · intro _
    exact Preserves.bind (quiet_keeps.send trivial) fun _ => keepSubscription_keeps guarded

theorem handleReq_keeps {id : SubscriptionId} {filters : List Filter} {requestSize : Nat}
    (authDm : relay.authDm = true) (noPolicy : relay.queryPolicy = none)
    (answers : surroundings.database.AnswersMatch) (kindly : relay.Kindly publicKey filters) :
    Preserves (Keeps relay.externals history publicKey)
      (relay.handleReq surroundings id filters requestSize) := by
  apply Preserves.bind
    (quiet_keeps.admitReq relay surroundings (fun _ => trivial) filters requestSize)
  intro _
  have admitted : ∀ filter ∈ filters, Establishes (Keeps relay.externals history publicKey)
      (relay.admitQuery filter (.closed id)) fun admitted => admitted ∈ filters := by
    intro filter member conversation keeps
    obtain ⟨kept, same⟩ := admitQuery_establishes noPolicy conversation keeps
    exact ⟨kept, fun value returned => same value returned ▸ member⟩
  apply Establishes.bind_preserves (Establishes.mapM admitted)
  intro filters' listed
  have kindly' : relay.Kindly publicKey filters' :=
    fun session same filter member => kindly session same filter (listed filter member)
  apply Establishes.bind_preserves (authorizeFilters_establishes authDm kindly')
  intro _ guarded
  exact serveReq_keeps answers guarded

theorem handleCount_keeps {id : SubscriptionId} {filter : Filter}
    (authDm : relay.authDm = true) (noPolicy : relay.queryPolicy = none)
    (answers : surroundings.database.AnswersMatch) (kindly : relay.Kindly publicKey [filter]) :
    Preserves (Keeps relay.externals history publicKey)
      (relay.handleCount surroundings id filter) := by
  apply Preserves.bind (quiet_keeps.replyIf trivial)
  intro _
  apply Preserves.bind (quiet_keeps.checkReadAuth relay surroundings fun _ => trivial)
  intro _
  apply Establishes.bind_preserves (admitQuery_establishes noPolicy)
  intro _ same
  subst same
  apply Establishes.bind_preserves (authorizeFilters_establishes authDm kindly)
  intro _ guarded
  apply Establishes.bind_preserves (propagate_establishes _)
  intro counted answer
  apply sendDisclosing_keeps
  intro event member giftWrap
  obtain ⟨kinds, tags⟩ := answers.count _ counted answer event member giftWrap
  exact guarded _ List.mem_cons_self event kinds tags giftWrap

/-! ## Negentropy -/

variable {id : SubscriptionId} {abandon : Session ν → Session ν}

/-- Giving a reconciliation up leaves the session as it may be. -/
def Abandons (externals : Externals) (history : List (Input × List Output))
    (abandon : Session ν → Session ν) : Prop :=
  ∀ session, Safe externals history session → Safe externals history (abandon session) ∧
    (abandon session).nip42 = session.nip42

theorem abandons_id : Abandons externals history (fun session : Session ν => session) :=
  fun _ safe => ⟨safe, rfl⟩

theorem safe_removeNegentropy {session : Session ν} (safe : Safe externals history session) :
    Safe externals history (removeNegentropy id session) := by
  refine ⟨safe.own, safe.subscriptions, fun other subscription present => ?_⟩
  simp only [removeNegentropy, SortedTable.get?_delete] at present
  split at present
  · cases present
  · exact safe.negentropy other subscription present

theorem abandons_removeNegentropy :
    Abandons externals history (removeNegentropy id : Session ν → Session ν) :=
  fun _ safe => ⟨safe_removeNegentropy safe, rfl⟩

theorem decodeMessage_keeps {message : String} (abandons : Abandons externals history abandon) :
    Preserves (Keeps externals history publicKey) (relay.decodeMessage id message abandon) := by
  unfold decodeMessage
  split
  · exact Preserves.pure _
  · apply Establishes.bind_preserves getSession_establishes
    intro session known
    obtain ⟨safe, same⟩ := known
    obtain ⟨safe', nip42⟩ := abandons session safe
    exact Preserves.bind (setSession_keeps safe' (nip42 ▸ same)) fun _ => quiet_keeps.reply trivial

theorem reconcile_keeps {storage : List Event} {state : ν} {message : Bytes}
    (abandons : Abandons externals history abandon)
    (learnable : ∀ event ∈ storage, MayLearn externals history event) :
    Preserves (Keeps externals history publicKey)
      (relay.reconcile id storage state message abandon) := by
  apply Establishes.bind_preserves getSession_establishes
  intro session known
  obtain ⟨safe, same⟩ := known
  split
  · obtain ⟨safe', nip42⟩ := abandons session safe
    exact Preserves.bind (setSession_keeps safe' (nip42 ▸ same)) fun _ => quiet_keeps.send trivial
  · next answer state' _ =>
      apply Preserves.bind (sendDisclosing_keeps learnable)
      intro _
      refine setSession_keeps ⟨safe.own, safe.subscriptions, fun other subscription present => ?_⟩
        same
      simp only [SortedTable.get?_put] at present
      split at present
      · cases present
        exact learnable
      · exact safe.negentropy other subscription present

theorem openReconciliation_keeps {filter : Filter} {initialMessage : Bytes}
    (answers : surroundings.database.AnswersMatch) (guarded : Guarded externals history filter) :
    Preserves (Keeps externals history publicKey)
      (relay.openReconciliation surroundings id filter initialMessage) := by
  apply Establishes.bind_preserves getSession_establishes
  intro session _
  apply Establishes.bind_preserves (propagate_establishes _)
  intro items answer
  apply Preserves.bind (quiet_keeps.replyIf trivial)
  intro _
  apply Establishes.bind_preserves (propagate_establishes _)
  intro state _
  apply reconcile_keeps abandons_id
  intro event member giftWrap
  obtain ⟨kinds, tags⟩ := answers.negentropyItems _ items answer event member giftWrap
  exact guarded event kinds tags giftWrap

theorem handleNegOpen_keeps {filter : Filter} {initialMessage : String}
    (authDm : relay.authDm = true) (noPolicy : relay.queryPolicy = none)
    (answers : surroundings.database.AnswersMatch) (kindly : relay.Kindly publicKey [filter]) :
    Preserves (Keeps relay.externals history publicKey)
      (relay.handleNegOpen surroundings id filter initialMessage) := by
  apply Preserves.bind (quiet_keeps.admitNegOpen relay surroundings fun _ => trivial)
  intro _
  apply Establishes.bind_preserves (admitQuery_establishes noPolicy)
  intro _ same
  subst same
  apply Establishes.bind_preserves (authorizeFilters_establishes authDm kindly)
  intro _ guarded
  apply Preserves.bind (decodeMessage_keeps abandons_id)
  intro _
  exact openReconciliation_keeps answers (guarded _ List.mem_cons_self)

theorem handleNegMsg_keeps {message : String} :
    Preserves (Keeps externals history publicKey)
      (relay.handleNegMsg surroundings id message) := by
  apply Preserves.bind (quiet_keeps.replyIf trivial)
  intro _
  apply Preserves.bind (decodeMessage_keeps abandons_removeNegentropy)
  intro bytes
  apply Establishes.bind_preserves getSession_establishes
  intro session known
  obtain ⟨safe, _⟩ := known
  cases present : session.negentropySubscription.get? id with
  | none => exact quiet_keeps.send trivial
  | some subscription =>
      exact reconcile_keeps abandons_removeNegentropy (safe.negentropy id subscription present)

theorem safe_removeSubscription {session : Session ν} (safe : Safe externals history session) :
    Safe externals history (session.removeSubscription id) ∧
      (session.removeSubscription id).nip42 = session.nip42 := by
  unfold Session.removeSubscription
  split
  · refine ⟨⟨safe.own, fun other subscription present => ?_, safe.negentropy⟩, rfl⟩
    simp only [SortedTable.get?_delete] at present
    split at present
    · cases present
    · exact safe.subscriptions other subscription present
  · exact ⟨safe, rfl⟩

/-- What changes a session as the relay may, without asking it for anything. -/
theorem changeSession_keeps {change : Session ν → Session ν}
    (changes : Abandons externals history change) :
    Preserves (Keeps externals history publicKey) (do
      let session ← getSession
      setSession (change session) : Handler ν Unit) := by
  apply Establishes.bind_preserves getSession_establishes
  intro session known
  obtain ⟨safe, same⟩ := known
  obtain ⟨safe', nip42⟩ := changes session safe
  exact setSession_keeps safe' (nip42 ▸ same)

/-! ## AUTH -/

/-- After an AUTH event the session is as before, or authenticated by it. -/
structure Answered (externals : Externals) (history : List (Input × List Output)) (event : Event)
    (conversation : Conversation ν) : Prop where
  own : ∀ publicKey, conversation.session.nip42.publicKey = some publicKey →
    Authenticated history publicKey ∨
      (event.pubkey = publicKey ∧ { message := .ok event.id true "" } ∈ conversation.outputs)
  subscriptions : ∀ id subscription,
    conversation.session.subscriptions.get? id = some subscription →
      ∀ filter ∈ subscription.filters, Guarded externals history filter
  negentropy : ∀ id subscription,
    conversation.session.negentropySubscription.get? id = some subscription →
      ∀ event ∈ subscription.storage, MayLearn externals history event
  discreet : Discreet externals history conversation.outputs

theorem answered_of_keeps {event : Event} {conversation : Conversation ν}
    (keeps : Keeps externals history publicKey conversation) :
    Answered externals history event conversation :=
  ⟨fun publicKey own => .inl (keeps.safe.own publicKey own), keeps.safe.subscriptions,
    keeps.safe.negentropy, keeps.discreet⟩

theorem answerAuth_cases (relay : InnerLocalRelay ν) (surroundings : Surroundings) (session : Session ν) (event : Event) :
    (∃ message, relay.answerAuth surroundings session event = (session, message)) ∨
      (relay.answerAuth surroundings session event).1.nip42.publicKey = some event.pubkey ∧
        (relay.answerAuth surroundings session event).2 = .ok event.id true "" := by
  cases attempt : session.nip42.answeredChallenge relay.externals relay.crypto event
      relay.authRelayUrl surroundings.now with
  | error error =>
      exact .inl ⟨okFalse event .authRequired error, by
        simp [answerAuth, Nip42Session.checkChallenge, attempt]⟩
  | ok challenge =>
      exact .inr (by simp [answerAuth, Nip42Session.checkChallenge, attempt])

theorem answerAuth_rest (relay : InnerLocalRelay ν) (surroundings : Surroundings) (session : Session ν) (event : Event) :
    (relay.answerAuth surroundings session event).1.subscriptions = session.subscriptions ∧
      (relay.answerAuth surroundings session event).1.negentropySubscription =
        session.negentropySubscription := by
  unfold answerAuth
  split <;> exact ⟨rfl, rfl⟩

theorem handleAuth_answered (relay : InnerLocalRelay ν) (surroundings : Surroundings)
    {event : Event} :
    Triple (Keeps externals history publicKey) (relay.handleAuth surroundings event)
      fun _ => Answered externals history event := by
  unfold handleAuth
  refine Preserves.then_triple (quiet_keeps.replyIf trivial) (fun _ _ => answered_of_keeps) ?_
  intro _ conversation keeps
  obtain ⟨safe, discreet, _⟩ := keeps
  obtain ⟨subscriptions, negentropy⟩ :=
    answerAuth_rest relay surroundings conversation.session event
  have told : Discreet externals history (conversation.outputs ++
      [{ message := (relay.answerAuth surroundings conversation.session event).2 }]) :=
    discreet.add (by simp)
  refine ⟨fun publicKey own => ?_, ?_, ?_, told⟩
  · cases answerAuth_cases relay surroundings conversation.session event with
    | inl unchanged =>
        obtain ⟨message, same⟩ := unchanged
        have own : (relay.answerAuth surroundings conversation.session event).1.nip42.publicKey =
          some publicKey := own
        rw [same] at own
        exact .inl (safe.own publicKey own)
    | inr accepted =>
        obtain ⟨current, message⟩ := accepted
        have same : event.pubkey = publicKey := Option.some.inj (current.symm.trans own)
        exact .inr ⟨same, List.mem_append_right _ (by simp [message])⟩
  · intro id subscription present
    exact safe.subscriptions id subscription (subscriptions ▸ present)
  · intro id subscription present
    exact safe.negentropy id subscription (negentropy ▸ present)

end InnerLocalRelay

end Stages

/-! ## Runs -/

section Runs

variable {externals : Externals} {history : List (Input × List Output)}
  {label : Input × List Output}

theorem Authenticated.later {publicKey : PublicKey} (authenticated : Authenticated history publicKey) :
    Authenticated (history ++ [label]) publicKey := by
  obtain ⟨earlier, member, accepted⟩ := authenticated
  exact ⟨earlier, List.mem_append_left _ member, accepted⟩

theorem MayLearn.later {event : Event} (mayLearn : MayLearn externals history event) :
    MayLearn externals (history ++ [label]) event := by
  intro giftWrap
  obtain ⟨publicKey, authenticated, addressed⟩ := mayLearn giftWrap
  exact ⟨publicKey, authenticated.later, addressed⟩

theorem Guarded.later {filter : Filter} (guarded : Guarded externals history filter) :
    Guarded externals (history ++ [label]) filter :=
  fun event kinds tags => (guarded event kinds tags).later

theorem Safe.later {session : Session ν} (safe : Safe externals history session) :
    Safe externals (history ++ [label]) session where
  own publicKey current := (safe.own publicKey current).later
  subscriptions id subscription present filter member :=
    (safe.subscriptions id subscription present filter member).later
  negentropy id subscription present event member :=
    (safe.negentropy id subscription present event member).later

theorem safe_empty : Safe externals history ({} : Session ν) where
  own _ current := by cases current
  subscriptions _ _ present := by cases present
  negentropy _ _ present := by cases present

variable {relay : InnerLocalRelay ν} {connection connection' : Connection ν}

theorem sendLive_discreet {event : Event} (safe : Safe externals history connection.session) :
    Discreet externals history (InnerLocalRelay.sendLive connection.session event) := by
  intro output member other disclosed
  obtain ⟨entry, listed, same⟩ := List.mem_map.mp member
  subst same
  cases List.mem_singleton.mp disclosed
  obtain ⟨present, wanted⟩ := List.mem_filter.mp listed
  obtain ⟨filter, filterMember, selects⟩ := List.any_eq_true.mp wanted
  have guarded := safe.subscriptions entry.1 entry.2 (SortedTable.get?_eq_some.mpr present) filter
    filterMember
  simp only [Filter.matchEvent, Bool.not_true, Bool.false_or, Bool.and_eq_true] at selects
  exact guarded event selects.1.1.1.1.2 selects.1.2

/-- What a message other than AUTH changes and tells. -/
theorem handleClientMsg_keeps {message : ClientMessage} {messageSize : Nat}
    {surroundings : Surroundings} {publicKey : Option PublicKey} (authDm : relay.authDm = true)
    (noPolicy : relay.queryPolicy = none) (answers : surroundings.database.AnswersMatch)
    (kindly : relay.Kindly publicKey (Input.text message messageSize surroundings).filters)
    (notAuth : ∀ event, message ≠ .auth event) :
    Preserves (Keeps relay.externals history publicKey)
      (relay.handleClientMsg surroundings message messageSize) := by
  cases message with
  | event event => exact quiet_keeps.handleEvent relay surroundings (fun _ _ => trivial) messageSize
  | req id filters => exact InnerLocalRelay.handleReq_keeps authDm noPolicy answers kindly
  | count id filter => exact InnerLocalRelay.handleCount_keeps authDm noPolicy answers kindly
  | close id =>
      exact InnerLocalRelay.changeSession_keeps fun _ safe =>
        InnerLocalRelay.safe_removeSubscription safe
  | auth event => exact absurd rfl (notAuth event)
  | negOpen id filter initialMessage =>
      exact InnerLocalRelay.handleNegOpen_keeps authDm noPolicy answers kindly
  | negMsg id message => exact InnerLocalRelay.handleNegMsg_keeps
  | negClose id =>
      exact InnerLocalRelay.changeSession_keeps InnerLocalRelay.abandons_removeNegentropy

theorem turn_safe (authDm : relay.authDm = true) (noPolicy : relay.queryPolicy = none)
    (turn : relay.KindlyTurn connection label connection') (answers : label.1.AnswersMatch)
    (safe : Safe relay.externals history connection.session) :
    Safe relay.externals (history ++ [label]) connection'.session ∧
      Discreet relay.externals history label.2 := by
  obtain ⟨⟨_, told, after⟩, kindly⟩ := turn
  obtain ⟨input, outputs⟩ := label
  have told : outputs = (relay.handleWebsocket connection input).outputs := told
  subst told after
  cases input with
  | text message messageSize surroundings =>
      have keeps : Keeps relay.externals history connection.session.nip42.publicKey
          ({ session := connection.session } : Conversation ν) :=
        ⟨safe, fun _ member => (by cases member), rfl⟩
      have kindly : relay.Kindly connection.session.nip42.publicKey
          (Input.text message messageSize surroundings).filters := by
        intro session same filter member asks
        apply kindly filter member
        exact ⟨asks.1, fun publicKey current => asks.2 publicKey (same.trans current)⟩
      by_cases auth : ∃ event, message = .auth event
      · obtain ⟨event, same⟩ := auth
        subst same
        obtain ⟨own, subscriptions, negentropy, discreet⟩ :=
          InnerLocalRelay.handleAuth_answered relay surroundings _ keeps
        refine ⟨⟨fun publicKey current => ?_, ?_, ?_⟩, discreet⟩
        · cases own publicKey current with
          | inl before => exact before.later
          | inr now => exact ⟨_, List.mem_append_right _ (List.mem_singleton_self _), event,
              messageSize, surroundings, rfl, now⟩
        · intro id subscription present filter member
          exact (subscriptions id subscription present filter member).later
        · intro id subscription present event member
          exact (negentropy id subscription present event member).later
      · obtain ⟨safe', discreet, _⟩ := handleClientMsg_keeps authDm noPolicy answers kindly
          (fun event same => auth ⟨event, same⟩) _ keeps
        exact ⟨safe'.later, discreet⟩
  | malformed => exact ⟨safe.later, by simp [Discreet, InnerLocalRelay.handleWebsocket]⟩
  | binary => exact ⟨safe.later, by simp [Discreet, InnerLocalRelay.handleWebsocket]⟩
  | control => exact ⟨safe.later, by simp [Discreet, InnerLocalRelay.handleWebsocket]⟩
  | tooManyMessages => exact ⟨safe.later, by simp [Discreet, InnerLocalRelay.handleWebsocket]⟩
  | shutdown => exact ⟨safe.later, by simp [Discreet, InnerLocalRelay.handleWebsocket]⟩
  | live event => exact ⟨safe.later, sendLive_discreet safe⟩
  | lagged skipped =>
      refine ⟨⟨safe.later.own, fun _ _ present => (by cases present), safe.later.negentropy⟩, ?_⟩
      intro output member event disclosed
      obtain ⟨entry, _, same⟩ := List.mem_map.mp member
      subst same
      cases disclosed

/-- In every run of a connection without messages that ask with empty kinds,
whatever is sent tells of a gift wrap only if the session has authenticated
before as the public key in one of its `p` tags. -/
theorem run_giftWraps (relay : InnerLocalRelay ν) (authDm : relay.authDm = true)
    (noPolicy : relay.queryPolicy = none) (history : List (Input × List Output))
    (connection : Connection ν) (run : Run relay.KindlyTurn {} history connection)
    (answers : ∀ label ∈ history, label.1.AnswersMatch) :
    ∀ before label after, history = before ++ label :: after →
      Discreet relay.externals before label.2 := by
  have whole : Safe relay.externals history connection.session ∧
      ∀ before label after, history = before ++ label :: after →
        Discreet relay.externals before label.2 := by
    induction run with
    | nil => exact ⟨safe_empty, fun before label after absurd => by simp at absurd⟩
    | @snoc history middle finish last run turn ih =>
        obtain ⟨safe, discreet⟩ := ih fun label member => answers label (List.mem_append_left _ member)
        obtain ⟨safe', tells⟩ := turn_safe authDm noPolicy turn (answers last (by simp)) safe
        refine ⟨safe', fun before label after parts => ?_⟩
        cases List.eq_nil_or_concat after with
        | inl none =>
            subst none
            obtain ⟨same, here⟩ := List.append_inj' parts rfl
            cases here
            exact same ▸ tells
        | inr more =>
            obtain ⟨earlier, final, split⟩ := more
            rw [split, List.concat_eq_append, ← List.cons_append, ← List.append_assoc] at parts
            exact discreet before label earlier (List.append_inj' parts rfl).1
  exact whole.2

end Runs

/-! ## A filter with empty kinds -/

namespace Database

/-- The answers of a memory database with the given events, to filters that it
looks up event by event. -/
def memory (events : List Event) : Database :=
  let select (filter : Filter) : List Event :=
    let matching := (EventSet.ofList events).values.filter fun event => filter.matchEvent event {}
    (filter.limit).elim matching matching.take
  { checkId := fun id => .ok (if events.any fun event => event.id = id then .saved else .notExistent)
    saveEvent := fun _ => .ok .success
    query := fun _ filter => .ok (EventSet.ofList (select filter))
    count := fun filter => .ok (select filter)
    negentropyItems := fun filter => .ok (select filter) }

theorem memory_answersMatch (events : List Event) : (memory events).AnswersMatch := by
  have selected : ∀ (filter : Filter) (event : Event),
      event ∈ (filter.limit).elim
        ((EventSet.ofList events).values.filter fun event => filter.matchEvent event {})
        ((EventSet.ofList events).values.filter fun event => filter.matchEvent event {}).take →
      filter.kindMatch event = true ∧ filter.tagMatch event = true := by
    intro filter event member
    have listed : event ∈
        (EventSet.ofList events).values.filter fun event => filter.matchEvent event {} := by
      cases limit : filter.limit with
      | none => simpa [limit] using member
      | some limit' => exact List.mem_of_mem_take (by simpa [limit] using member)
    have selects := (List.mem_filter.mp listed).2
    simp only [Filter.matchEvent, Bool.not_true, Bool.false_or, Bool.and_eq_true] at selects
    exact ⟨selects.1.1.1.1.2, selects.1.2⟩
  constructor
  · intro _ filter answer answered event member _
    cases answered
    cases InnerLocalRelay.mem_foldl_insert member with
    | inl member => exact selected filter event member
    | inr absurd => cases absurd
  · intro filter answer answered event member _
    cases answered
    exact selected filter event member
  · intro filter answer answered event member _
    cases answered
    exact selected filter event member

end Database

def sampleRelay : InnerLocalRelay Unit where
  externals := ⟨fun _ => none, Json.lowercaseHex, fun _ => none⟩
  crypto := ⟨fun _ => .replicate 32 0, fun _ _ _ => false⟩
  local_ := ⟨fun _ => none, fun _ => none, fun _ => .ok (), fun _ _ => none⟩
  url := ⟨"ws://127.0.0.1:8080"⟩
  maxEventSize := 70000
  maxSubidLength := 250
  maxFiltersPerReq := 20
  maxSubscriptionBytes := 65536
  maxNegentropyItems := 100000
  kindsBlacklist := [13, 9734, 22242, 24242, 27235]
  authDm := true

def sampleGiftWrap : Event where
  id := .replicate 32 1
  pubkey := .replicate 32 2
  createdAt := 1700000000
  kind := .giftWrap
  tags := [⟨["p", Json.lowercaseHex (List.replicate 32 3)], by simp⟩]
  content := ""
  sig := .replicate 64 4

def sampleSurroundings : Surroundings where
  database := .memory [sampleGiftWrap]
  limited := false
  now := 1700000001
  challenge := "challenge"
  randomEvents := []

def sampleReq (kinds : SortedSet UInt16) : Input :=
  .text (.req "s" [{ kinds := some kinds }]) 40 sampleSurroundings

def sampleCount (kinds : SortedSet UInt16) : Input :=
  .text (.count "c" { kinds := some kinds }) 40 sampleSurroundings

/-- The inputs one by one, each with what is sent for it. -/
def sampleHistory (connection : Connection Unit) : List Input → List (Input × List Output)
  | [] => []
  | input :: rest =>
      (input, (sampleRelay.handleWebsocket connection input).outputs) ::
        sampleHistory (sampleRelay.handleWebsocket connection input).connection rest

theorem run_giftWraps_textNotes : Discreet sampleRelay.externals []
    (sampleRelay.handleWebsocket {} (sampleReq (SortedSet.insert .empty 1))).outputs :=
  run_giftWraps sampleRelay rfl rfl (sampleHistory {} [sampleReq (SortedSet.insert .empty 1)]) _
    (Run.nil.snoc ⟨⟨rfl, rfl, rfl⟩, fun filter member asks => by
      cases List.mem_singleton.mp member
      exact absurd asks.1 (by decide)⟩)
    (fun label member => by
      cases List.mem_singleton.mp member
      exact Database.memory_answersMatch _) [] _ [] rfl

def emptyKindsHistory : List (Input × List Output) :=
  sampleHistory {} [sampleReq .empty, .live sampleGiftWrap, sampleCount .empty]

/-- A session that has not authenticated is sent the stored gift wrap, then a
live one, and is told how many there are. -/
theorem run_emptyKinds_tells :
    (∃ connection, Run sampleRelay.Turn {} emptyKindsHistory connection) ∧
      sampleRelay.authDm = true ∧ sampleRelay.queryPolicy.isNone = true ∧
      emptyKindsHistory.map Prod.snd =
        [[{ message := .event "s" sampleGiftWrap, discloses := [sampleGiftWrap] },
            { message := .endOfStoredEvents "s" }],
          [{ message := .event "s" sampleGiftWrap, discloses := [sampleGiftWrap] }],
          [{ message := .count "c" 1, discloses := [sampleGiftWrap] }]] ∧
      IsGiftWrap sampleGiftWrap ∧
      ¬ MayLearn sampleRelay.externals emptyKindsHistory sampleGiftWrap := by
  have outputs : emptyKindsHistory.map Prod.snd =
      [[{ message := .event "s" sampleGiftWrap, discloses := [sampleGiftWrap] },
          { message := .endOfStoredEvents "s" }],
        [{ message := .event "s" sampleGiftWrap, discloses := [sampleGiftWrap] }],
        [{ message := .count "c" 1, discloses := [sampleGiftWrap] }]] := by decide +kernel
  have unauthenticated : ¬ MayLearn sampleRelay.externals emptyKindsHistory sampleGiftWrap := by
    intro mayLearn
    obtain ⟨publicKey, ⟨label, member, event, messageSize, surroundings, auth, _⟩, _⟩ := mayLearn rfl
    have asked : label.1 = sampleReq .empty ∨ label.1 = .live sampleGiftWrap ∨
        label.1 = sampleCount .empty := by
      simpa [emptyKindsHistory, sampleHistory] using List.mem_map_of_mem (f := Prod.fst) member
    rw [auth] at asked
    simp [sampleReq, sampleCount] at asked
  refine ⟨⟨_, ((Run.nil.snoc ⟨rfl, rfl, rfl⟩).snoc ⟨?_, rfl, rfl⟩).snoc ⟨?_, rfl, rfl⟩⟩, rfl, rfl,
    outputs, rfl, unauthenticated⟩
  · decide +kernel
  · decide +kernel

end RustNostr.NostrSdk.LocalRelay
