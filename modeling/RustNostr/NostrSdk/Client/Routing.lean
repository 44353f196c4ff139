import Mathlib
import RustNostr.Library.Fallible
import RustNostr.NostrSdk.Client.SendEvent
import RustNostr.NostrSdk.Gossip.BreakDown

/-!
# Where an event goes

An event is handed to the relays that its policy is for and to no others, all of them at once
and only when every one is in the pool. What is reported of them is what each has answered.
-/

set_option autoImplicit false

namespace RustNostr.NostrSdk.Client

open Library NostrGossip Gossip Interaction

abbrev ClientLog := List (Sigma ClientAnswer)

/-- The gossip store has answered the selection with the relay, for the key. -/
def Named (log : ClientLog) (publicKey : PublicKey) (selection : BestRelaySelection) (allowed : GossipAllowedRelays)
    (url : RelayUrl) : Prop :=
  ∃ relays : SortedSet RelayUrl, ⟨.getBestRelays publicKey selection allowed, .ok relays⟩ ∈ log ∧ url ∈ relays.elems

/-- The pool has listed the relay among those that are written to. -/
def Writable (log : ClientLog) (url : RelayUrl) : Prop :=
  ∃ relays : SortedSet RelayUrl, ⟨.writeRelayUrls, relays⟩ ∈ log ∧ url ∈ relays.elems

section Routes

variable (externals : Externals) (client : Client) (crate : UrlCrate) (event : Event) (call : SendEvent)
  (log : ClientLog) (url : RelayUrl)

/-- A relay for private messages of one of the receivers. -/
def Inbox : Prop :=
  ∃ key ∈ Tags.publicKeys externals event.tags,
    Named log key (.privateMessage client.limits.nip17Relays) client.allowed url

/-- A relay of the author or, but for a contact list, of one that the event mentions, or one
that the client writes to. -/
def Public : Prop :=
  Named log event.pubkey client.outboxSelection client.allowed url ∨
    (event.kind ≠ .contactList ∧ ∃ key ∈ Tags.publicKeys externals event.tags,
      Named log key client.inboxSelection client.allowed url) ∨
    Writable log url

/-- The relays that the policy is for, by what has been answered. -/
def Routed : Prop :=
  match call.policy, client.gossip with
  | none, true | some .toNip65, true => Public externals client call.event log url
  | some .toNip17, true =>
      if call.event.kind = .giftWrap then Inbox externals client call.event log url
      else Public externals client call.event log url
  | some .toNip17, false | some .toNip65, false => False
  | some (.to list), _ => ∃ argument ∈ list, argument.tryIntoRelayUrl crate = .ok url
  | some .broadcast, _ | none, false => Writable log url

end Routes

/-! ## Lookups -/

def isLookup : ClientCall → Bool
  | .getBestRelays _ _ _ | .writeRelayUrls => true
  | _ => false

section Lookups

variable {externals : Externals} {client : Client} {crate : UrlCrate} {event : Event} {call : SendEvent}
  {publicKeys : List PublicKey} {selection : BestRelaySelection} {allowed : GossipAllowedRelays}
  {log other : ClientLog} {url : RelayUrl}

/-- Both logs hold the same lookups. -/
def SameLookups (log other : ClientLog) : Prop :=
  ∀ entry, isLookup entry.1 = true → (entry ∈ log ↔ entry ∈ other)

theorem sameLookups_behind {front : ClientLog} (before : ∀ entry ∈ front, isLookup entry.1 = false) :
    SameLookups (front ++ log) log := by
  intro entry lookup
  have absent : entry ∉ front := fun member => by simp [before entry member] at lookup
  simp [absent]

theorem sameLookups_ahead {back : ClientLog} (after : ∀ entry ∈ back, isLookup entry.1 = false) :
    SameLookups (log ++ back) log := by
  intro entry lookup
  have absent : entry ∉ back := fun member => by simp [after entry member] at lookup
  simp [absent]

theorem SameLookups.trans {last : ClientLog} (first : SameLookups log other) (second : SameLookups other last) :
    SameLookups log last :=
  fun entry lookup => (first entry lookup).trans (second entry lookup)

theorem SameLookups.named (same : SameLookups log other) {key : PublicKey} :
    Named log key selection allowed url ↔ Named other key selection allowed url := by
  exact exists_congr fun _ => and_congr_left fun _ => same _ rfl

theorem SameLookups.writable (same : SameLookups log other) : Writable log url ↔ Writable other url := by
  exact exists_congr fun _ => and_congr_left fun _ => same _ rfl

theorem SameLookups.routed (same : SameLookups log other) :
    Routed externals client crate call log url ↔ Routed externals client crate call other url := by
  simp only [Routed, Public, Inbox, same.named, same.writable]

theorem returns_getRelays {relays : SortedSet RelayUrl}
    (returns : (getRelays publicKeys selection allowed).Returns log (.ok relays)) :
    (∀ entry ∈ log, ∃ key ∈ publicKeys, ∃ found : SortedSet RelayUrl,
      entry = ⟨.getBestRelays key selection allowed, .ok found⟩ ∧ ∀ url ∈ found.elems, url ∈ relays.elems) ∧
    ∀ url ∈ relays.elems, ∃ key ∈ publicKeys, Named log key selection allowed url := by
  refine foldlM_invariant (fun past log (relays : SortedSet RelayUrl) =>
    (∀ entry ∈ log, ∃ key ∈ past, ∃ found : SortedSet RelayUrl,
      entry = ⟨.getBestRelays key selection allowed, .ok found⟩ ∧ ∀ url ∈ found.elems, url ∈ relays.elems) ∧
    ∀ url ∈ relays.elems, ∃ key ∈ past, Named log key selection allowed url) ?_ ?_ returns
  · rintro past key log relays more after ⟨listed, named⟩ turned
    obtain ⟨found, front, back, rfl, told, rfl, same⟩ := returns_bind_ok.mp turned
    obtain ⟨_, rfl, heard⟩ := returns_call.mp (returns_orFail.mp told)
    cases heard
    cases same
    refine ⟨fun entry member => ?_, fun url member => ?_⟩
    · rcases List.mem_append.mp member with old | new
      · obtain ⟨other, before, others, rfl, kept⟩ := listed entry old
        exact ⟨other, List.mem_append_left _ before, others, rfl, fun url member =>
          mem_elems_extend.mpr (.inl (kept url member))⟩
      · obtain rfl : entry = _ := by simpa using new
        exact ⟨key, by simp, found, rfl, fun url member => mem_elems_extend.mpr (.inr member)⟩
    · rcases mem_elems_extend.mp member with old | new
      · obtain ⟨other, before, others, told, inside⟩ := named url old
        exact ⟨other, List.mem_append_left _ before, others, List.mem_append_left _ told, inside⟩
      · exact ⟨key, by simp, found, by simp, new⟩
  · simp [SortedSet.mem_elems]

end Lookups

/-! ## The pool -/

def isSend : ClientCall → Bool
  | .sendEvents _ _ => true
  | _ => false

section Pool

variable {urls : SortedSet RelayUrl} {event : Event} {waitPolicy : InnerAckPolicy} {okTimeout authTimeout : Nat}
  {log : ClientLog}

theorem find_unknown {pool : RelayPool} {targets : List RelayUrl} :
    (targets.find? fun url => (pool.relays.get? url).isNone) = none ↔
      ∀ url ∈ targets, (pool.relays.get? url).isSome := by
  simp [List.find?_eq_none, Option.isSome_iff_ne_none]

theorem asks_poolSendEvent {targets : List RelayUrl} {send : RelaySend}
    (asks : (poolSendEvent urls event waitPolicy okTimeout authTimeout).Asks log (.sendEvents targets send)) :
    urls.isEmpty = false ∧ targets = urls.elems ∧ send = ⟨event, waitPolicy = .all, okTimeout, authTimeout⟩ ∧
      ∃ pool : RelayPool, log = [⟨.readRelays, pool⟩] ∧ ∀ url ∈ targets, (pool.relays.get? url).isSome := by
  unfold poolSendEvent at asks
  split at asks
  next => exact asks.elim
  next some_ =>
    rcases asks_bind.mp asks with first | ⟨pool, front, back, rfl, locked, later⟩
    · cases (asks_call.mp first).2
    · obtain ⟨_, rfl, same⟩ := returns_call.mp locked
      cases same
      cases unknown : urls.elems.find? fun url => (pool.relays.get? url).isNone with
      | some url =>
          simp only [unknown] at later
          exact later.elim
      | none =>
          simp only [unknown] at later
          rcases asks_bind.mp later with now | ⟨_, _, _, _, _, none_⟩
          · obtain ⟨rfl, same⟩ := asks_call.mp now
            cases same
            exact ⟨by simpa using some_, rfl, rfl, pool, rfl, find_unknown.mp unknown⟩
          · exact none_.elim

theorem returns_poolSendEvent {outcome : Except Error SendEventOutput}
    (returns : (poolSendEvent urls event waitPolicy okTimeout authTimeout).Returns log outcome) :
    (∃ error, outcome = .error error ∧ ∀ entry ∈ log, isSend entry.1 = false) ∨
      ∃ (before : ClientLog) (send : RelaySend) (results : ClientAnswer (.sendEvents urls.elems send)),
        log = before ++ [⟨.sendEvents urls.elems send, results⟩] ∧
          outcome = .ok (results.val.foldl collect { value := event.id }) := by
  unfold poolSendEvent at returns
  split at returns
  next =>
    obtain ⟨rfl, rfl⟩ := returns
    exact .inl ⟨_, rfl, by simp⟩
  next =>
    obtain ⟨pool, rest, rfl, later⟩ := returns
    cases unknown : urls.elems.find? fun url => (pool.relays.get? url).isNone with
    | some url =>
        simp only [ok_bind, unknown] at later
        obtain ⟨rfl, rfl⟩ := later
        exact .inl ⟨_, rfl, by simp [isSend]⟩
    | none =>
        simp only [ok_bind, unknown] at later
        obtain ⟨results, _, rfl, rfl, rfl⟩ := later
        exact .inr ⟨[⟨.readRelays, pool⟩], _, results, rfl, rfl⟩

end Pool

/-! ## Routes -/

section Prepared

variable {externals : Externals} {client : Client} {crate : UrlCrate} {event : Event} {call : SendEvent}
  {log : ClientLog} {urls : SortedSet RelayUrl}

theorem onlyAsks_ensureGossipPublicKeysFresh (keys : SortedSet PublicKey × List GossipListKind) :
    (ensureGossipPublicKeysFresh keys).OnlyAsks fun asked => isLookup asked = false ∧ isSend asked = false :=
  .orFail (.call ⟨rfl, rfl⟩)

theorem onlyAsks_addGossipRelays (relays : SortedSet RelayUrl) :
    (addGossipRelays relays).OnlyAsks fun asked => isLookup asked = false ∧ isSend asked = false := by
  refine .foldlM (fun _ _ => ?_) _ _
  exact .bind (.orFail (.call ⟨rfl, rfl⟩)) fun _ => trivial

theorem onlyAsks_getRelays (publicKeys : List PublicKey) (selection : BestRelaySelection)
    (allowed : GossipAllowedRelays) :
    (getRelays publicKeys selection allowed).OnlyAsks fun asked => isSend asked = false := by
  refine .foldlM (fun _ _ => ?_) _ _
  exact .bind (.orFail (.call rfl)) fun _ => trivial

theorem onlyAsks_gossipPrepareUrls (externals : Externals) (client : Client) (event : Event) (isNip17 : Bool) :
    (gossipPrepareUrls externals client event isNip17).OnlyAsks fun asked => isSend asked = false := by
  have added : ∀ relays, (addGossipRelays relays).OnlyAsks fun asked => isSend asked = false := fun relays =>
    (onlyAsks_addGossipRelays relays).mono fun _ quiet => quiet.2
  refine .bind ((onlyAsks_ensureGossipPublicKeysFresh _).mono fun _ quiet => quiet.2) fun _ => ?_
  split
  next =>
    refine (onlyAsks_getRelays _ _ _).bind fun relays => ?_
    split
    next => trivial
    next => exact (added relays).bind fun _ => trivial
  next =>
    refine .bind (.orFail (.call rfl)) fun outbox => .bind ?_ fun relays => .bind (added relays) fun _ => ?_
    · unfold extendWithInbox
      split
      next => trivial
      next => exact .bind (onlyAsks_getRelays _ _ _) fun _ => trivial
    · exact .bind (.call rfl) fun _ => trivial

theorem onlyAsks_route : (route externals client crate call).OnlyAsks fun asked => isSend asked = false := by
  unfold route
  split
  next => exact onlyAsks_gossipPrepareUrls _ _ _ _
  next => exact onlyAsks_gossipPrepareUrls _ _ _ _
  next => exact onlyAsks_gossipPrepareUrls _ _ _ _
  next => trivial
  next => trivial
  next => exact .ofExcept _
  next => exact .call rfl
  next => exact .call rfl

/-- While the store stands still, the resolver returns what it returns of the store alone. -/
theorem getRelays_runWith (store : Store) (allowed : GossipAllowedRelays) (selection : BestRelaySelection)
    (answers : (call : ClientCall) → ClientAnswer call)
    (still : ∀ key, answers (.getBestRelays key selection allowed) = store.getBestRelays key selection allowed)
    (publicKeys : List PublicKey) :
    ((getRelays publicKeys selection allowed).runWith answers).2 = Gossip.getRelays store allowed publicKeys selection := by
  unfold getRelays Gossip.getRelays
  generalize (SortedTable.empty : SortedSet RelayUrl) = start
  induction publicKeys generalizing start with
  | nil => rfl
  | cons key keys ih =>
    have told : ((Interaction.orFail (Interaction.call (ClientCall.getBestRelays key selection allowed)) :
        ClientProgram (SortedSet RelayUrl)).runWith answers).2 = store.getBestRelays key selection allowed := by
      rw [← still key]
      exact outcome_ofExcept answers _
    simp only [List.foldlM_cons, bind_eq, outcome_bind] at ih ⊢
    simp only [told, ih]
    rfl

/-- Private messages go to the relays of the receivers, and to no others. -/
theorem inbox_of_gossipPrepareUrls (giftWrap : event.kind = .giftWrap)
    (returns : (gossipPrepareUrls externals client event true).Returns log (.ok urls)) (url : RelayUrl) :
    url ∈ urls.elems ↔ Inbox externals client event log url := by
  obtain ⟨_, front, back, rfl, fresh, prepared⟩ := returns_bind_ok.mp returns
  rw [if_pos ⟨rfl, giftWrap⟩] at prepared
  obtain ⟨relays, found, rest, rfl, looked, finished⟩ := returns_bind_ok.mp prepared
  split at finished
  next => cases finished.2
  next =>
    obtain ⟨_, added, _, rfl, adding, rfl, same⟩ := returns_bind_ok.mp finished
    cases same
    have before : ∀ entry ∈ front, isLookup entry.1 = false := fun entry member =>
      ((onlyAsks_ensureGossipPublicKeysFresh _).of_returns fresh entry member).1
    have after : ∀ entry ∈ added, isLookup entry.1 = false := fun entry member =>
      ((onlyAsks_addGossipRelays _).of_returns adding entry member).1
    have same : SameLookups (front ++ (found ++ (added ++ []))) found :=
      (sameLookups_behind before).trans (sameLookups_ahead (by simpa using after))
    obtain ⟨listed, named⟩ := returns_getRelays looked
    simp only [Inbox, same.named]
    constructor
    · exact named url
    · rintro ⟨key, _, others, told, inside⟩
      obtain ⟨_, _, _, entry, kept⟩ := listed _ told
      cases entry
      exact kept url inside

theorem returns_extendWithInbox {outbox relays : SortedSet RelayUrl}
    (returns : (extendWithInbox externals client event outbox).Returns log (.ok relays)) :
    (∀ entry ∈ log, ∃ key, ∃ found : SortedSet RelayUrl,
      entry = ⟨.getBestRelays key client.inboxSelection client.allowed, .ok found⟩ ∧
        ∀ url ∈ found.elems, url ∈ relays.elems) ∧
    (∀ url ∈ outbox.elems, url ∈ relays.elems) ∧
    ∀ url ∈ relays.elems, url ∈ outbox.elems ∨ event.kind ≠ .contactList ∧
      ∃ key ∈ Tags.publicKeys externals event.tags, Named log key client.inboxSelection client.allowed url := by
  unfold extendWithInbox at returns
  split at returns
  next =>
    obtain ⟨rfl, same⟩ := returns
    cases same
    exact ⟨by simp, fun _ member => member, fun _ member => .inl member⟩
  next other =>
    obtain ⟨inbox, found, _, rfl, looked, rfl, same⟩ := returns_bind_ok.mp returns
    cases same
    obtain ⟨listed, named⟩ := returns_getRelays looked
    simp only [mem_elems_extend, List.append_nil]
    refine ⟨fun entry member => ?_, fun url member => .inl member, fun url member => ?_⟩
    · obtain ⟨key, _, others, rfl, kept⟩ := listed entry member
      exact ⟨key, others, rfl, fun url inside => .inr (kept url inside)⟩
    · exact member.imp_right fun new => ⟨other, named url new⟩

theorem Public.named_or_writable {url : RelayUrl} (wanted : Public externals client event log url) :
    (∃ key selection, Named log key selection client.allowed url) ∨ Writable log url := by
  rcases wanted with own | ⟨_, key, _, named⟩ | written
  · exact .inl ⟨_, _, own⟩
  · exact .inl ⟨key, _, named⟩
  · exact .inr written

theorem lookup_cases {front found added : ClientLog} {told last entry : Sigma ClientAnswer}
    (before : ∀ entry ∈ front, isLookup entry.1 = false ∧ isSend entry.1 = false)
    (after : ∀ entry ∈ added, isLookup entry.1 = false ∧ isSend entry.1 = false) (lookup : isLookup entry.1 = true)
    (member : entry ∈ front ++ ([told] ++ (found ++ (added ++ ([last] ++ []))))) :
    entry = told ∨ entry ∈ found ∨ entry = last := by
  simp only [List.mem_append, List.mem_singleton, List.append_nil] at member
  rcases member with quiet | same | asked | quiet | same
  · simp [(before entry quiet).1] at lookup
  · exact .inl same
  · exact .inr (.inl asked)
  · simp [(after entry quiet).1] at lookup
  · exact .inr (.inr same)

/-- Everything else goes to the relays of the author and of those that it mentions, and to
those that the client writes to. -/
theorem public_of_gossipPrepareUrls {isNip17 : Bool} (other : ¬ (isNip17 = true ∧ event.kind = .giftWrap))
    (returns : (gossipPrepareUrls externals client event isNip17).Returns log (.ok urls)) (url : RelayUrl) :
    url ∈ urls.elems ↔ Public externals client event log url := by
  obtain ⟨_, front, _, rfl, fresh, prepared⟩ := returns_bind_ok.mp returns
  rw [if_neg other] at prepared
  obtain ⟨outbox, told, _, rfl, answered, extended⟩ := returns_bind_ok.mp prepared
  obtain ⟨_, rfl, same⟩ := returns_call.mp (returns_orFail.mp answered)
  cases same
  obtain ⟨relays, found, _, rfl, looked, ending⟩ := returns_bind_ok.mp extended
  obtain ⟨_, added, _, rfl, adding, listing⟩ := returns_bind_ok.mp ending
  obtain ⟨written, _, _, rfl, listed, rfl, same⟩ := returns_bind_ok.mp listing
  obtain ⟨_, rfl, heard⟩ := returns_call.mp listed
  cases heard
  cases same
  obtain ⟨answers, kept, named⟩ := returns_extendWithInbox looked
  have before := (onlyAsks_ensureGossipPublicKeysFresh _).of_returns fresh
  have after := (onlyAsks_addGossipRelays relays).of_returns adding
  rw [mem_elems_extend]
  constructor
  · rintro (member | member)
    · rcases named url member with own | ⟨wide, key, mentioned, others, answer, inside⟩
      · exact .inl ⟨outbox, by simp, own⟩
      · exact .inr (.inl ⟨wide, key, mentioned, others, by simp [answer], inside⟩)
    · exact .inr (.inr ⟨written, by simp, member⟩)
  · intro wanted
    rcases wanted.named_or_writable with ⟨key, selection, others, answer, inside⟩ | ⟨others, answer, inside⟩
    · rcases lookup_cases before after rfl answer with same | asked | same
      · cases same
        exact .inl (kept url inside)
      · obtain ⟨_, _, same, all⟩ := answers _ asked
        cases same
        exact .inl (all url inside)
      · cases same
    · rcases lookup_cases before after rfl answer with same | asked | same
      · cases same
      · obtain ⟨_, _, same, _⟩ := answers _ asked
        cases same
      · cases same
        exact .inr inside

theorem writable_of_call (returns : (Interaction.call ClientCall.writeRelayUrls :
      ClientProgram (SortedSet RelayUrl)).Returns log (.ok urls)) (url : RelayUrl) :
    url ∈ urls.elems ↔ Writable log url := by
  obtain ⟨_, rfl, heard⟩ := returns_call.mp returns
  cases heard
  constructor
  · exact fun member => ⟨urls, by simp, member⟩
  · rintro ⟨others, answer, inside⟩
    obtain rfl : others = urls := by simpa using answer
    exact inside

theorem listed_of_to {list : List RelayUrlArg} (returns : (Interaction.ofExcept ((list.mapM
      (RelayUrlArg.tryIntoRelayUrl crate)).map SortedSet.ofList) : ClientProgram (SortedSet RelayUrl)).Returns log
    (.ok urls)) (url : RelayUrl) :
    url ∈ urls.elems ↔ ∃ argument ∈ list, argument.tryIntoRelayUrl crate = .ok url := by
  obtain ⟨_, parsed⟩ := returns_ofExcept.mp returns
  cases all : list.mapM (RelayUrlArg.tryIntoRelayUrl crate) with
  | error error =>
    rw [all] at parsed
    cases parsed
  | ok results =>
    rw [all] at parsed
    cases parsed
    rw [mem_elems_ofList]
    exact mem_of_mapM_ok all url

theorem routed_of_route (returns : (route externals client crate call).Returns log (.ok urls)) (url : RelayUrl) :
    url ∈ urls.elems ↔ Routed externals client crate call log url := by
  unfold Routed
  unfold route at returns
  cases policy : call.policy with
  | none =>
    cases gossip : client.gossip <;> simp only [policy, gossip] at returns ⊢
    · exact writable_of_call returns url
    · exact public_of_gossipPrepareUrls (by simp) returns url
  | some policy' =>
    cases policy' with
    | broadcast =>
      cases gossip : client.gossip <;> simp only [policy, gossip] at returns ⊢ <;> exact writable_of_call returns url
    | «to» list =>
      cases gossip : client.gossip <;> simp only [policy, gossip] at returns ⊢ <;> exact listed_of_to returns url
    | toNip17 =>
      cases gossip : client.gossip with
      | false =>
        simp only [policy, gossip] at returns
        cases returns.2
      | true =>
        simp only [policy, gossip] at returns ⊢
        split
        next giftWrap => exact inbox_of_gossipPrepareUrls giftWrap returns url
        next other => exact public_of_gossipPrepareUrls (by simp [other]) returns url
    | toNip65 =>
      cases gossip : client.gossip with
      | false =>
        simp only [policy, gossip] at returns
        cases returns.2
      | true =>
        simp only [policy, gossip] at returns ⊢
        exact public_of_gossipPrepareUrls (by simp) returns url

end Prepared

/-! ## What is reported -/

section Reports

/-- The relays that have answered are in the output, each with its answer. -/
theorem collect_results {start : EventId} {results : List (RelayUrl × Except Error EventSendStatus)}
    (once : (results.map Prod.fst).Nodup) (output : SendEventOutput)
    (collected : output = results.foldl collect { value := start }) :
    output.value = start ∧
      (∀ url status, output.success.get? url = some status ↔ (url, .ok status) ∈ results) ∧
      ∀ url text, output.failed.get? url = some text ↔ ∃ error, (url, .error error) ∈ results ∧ error.message = text := by
  induction results using List.reverseRecOn generalizing output with
  | nil =>
    subst collected
    simp
  | append_singleton results last ih =>
    obtain ⟨url, result⟩ := last
    rw [List.map_append, List.nodup_append] at once
    obtain ⟨before, _, new⟩ := once
    have absent : ∀ result, (url, result) ∉ results := fun result member =>
      new url (List.mem_map_of_mem (f := Prod.fst) member) url (by simp) rfl
    obtain ⟨value, succeeded, failed⟩ := ih before _ rfl
    rw [List.foldl_append] at collected
    subst collected
    cases result with
    | ok status =>
      refine ⟨value, fun other given => ?_, fun other text => by simp [collect, failed]⟩
      simp only [List.foldl_cons, List.foldl_nil, collect, SortedTable.get?_put]
      split
      next same =>
        subst same
        simp [absent, eq_comm]
      next different => simp [succeeded, different]
    | error error =>
      refine ⟨value, fun other given => by simp [collect, succeeded], fun other text => ?_⟩
      simp only [List.foldl_cons, List.foldl_nil, collect, SortedTable.get?_put]
      split
      next same =>
        subst same
        simp [absent]
      next different => simp [failed, different]

theorem eq_of_once {results : List (RelayUrl × Except Error EventSendStatus)} (once : (results.map Prod.fst).Nodup)
    {url : RelayUrl} {left right : Except Error EventSendStatus} (first : (url, left) ∈ results)
    (second : (url, right) ∈ results) : left = right :=
  congrArg Prod.snd (List.inj_on_of_nodup_map once first second rfl)

end Reports

/-! ## Sending -/

section Sending

variable {externals : Externals} {client : Client} {crypto : Crypto} {crate : UrlCrate} {call : SendEvent}
  {log : ClientLog}

theorem onlyAsks_saveEvent (call : SendEvent) :
    (saveEvent call).OnlyAsks fun asked => isLookup asked = false ∧ isSend asked = false := by
  unfold saveEvent
  split
  next => exact .orFail (.call ⟨rfl, rfl⟩)
  next => trivial

theorem onlyAsks_processEvent (client : Client) (call : SendEvent) :
    (processEvent client call).OnlyAsks fun asked => isLookup asked = false ∧ isSend asked = false := by
  unfold processEvent
  split
  next => exact .orFail (.call ⟨rfl, rfl⟩)
  next => trivial

/-- All that comes before the pool sends. -/
def prepare (externals : Externals) (client : Client) (crypto : Crypto) (crate : UrlCrate) (call : SendEvent) :
    ClientProgram (SortedSet RelayUrl) := do
  Interaction.ofExcept ((call.event.verify externals crypto).mapError .ofVerifyError)
  saveEvent call
  processEvent client call
  route externals client crate call

theorem sendEvent_eq : sendEvent externals client crypto crate call =
    (prepare externals client crypto crate call).bind fun urls =>
      poolSendEvent urls call.event call.ackPolicy call.waitForOkTimeout call.waitForAuthenticationTimeout := by
  simp only [sendEvent, prepare, bind_eq, bind_assoc]

theorem onlyAsks_prepare :
    (prepare externals client crypto crate call).OnlyAsks fun asked => isSend asked = false := by
  refine .bind (.ofExcept _) fun _ => .bind ?_ fun _ => .bind ?_ fun _ => onlyAsks_route
  · exact (onlyAsks_saveEvent call).mono fun _ quiet => quiet.2
  · exact (onlyAsks_processEvent client call).mono fun _ quiet => quiet.2

theorem returns_prepare {urls : SortedSet RelayUrl}
    (returns : (prepare externals client crypto crate call).Returns log (.ok urls)) :
    call.event.Verified externals crypto ∧
      ∀ url, url ∈ urls.elems ↔ Routed externals client crate call log url := by
  obtain ⟨_, _, _, rfl, checked, saving⟩ := returns_bind_ok.mp returns
  obtain ⟨rfl, verified⟩ := returns_ofExcept.mp checked
  obtain ⟨_, saved, _, rfl, saves, processing⟩ := returns_bind_ok.mp saving
  obtain ⟨_, processed, routes, rfl, processes, routing⟩ := returns_bind_ok.mp processing
  refine ⟨Event.verify_ok_iff.mp (mapError_ok.mp verified.symm), fun url => ?_⟩
  have first : SameLookups (saved ++ (processed ++ routes)) (processed ++ routes) :=
    sameLookups_behind fun entry member => ((onlyAsks_saveEvent call).of_returns saves entry member).1
  have second : SameLookups (processed ++ routes) routes :=
    sameLookups_behind fun entry member => ((onlyAsks_processEvent client call).of_returns processes entry member).1
  rw [List.nil_append, (first.trans second).routed]
  exact routed_of_route routing url

/-- An event that does not verify has no effect at all. -/
theorem prepare_unverified (altered : ¬ call.event.Verified externals crypto) {outcome : Except Error (SortedSet RelayUrl)}
    (returns : (prepare externals client crypto crate call).Returns log outcome) : log = [] := by
  unfold prepare at returns
  cases verified : call.event.verify externals crypto with
  | ok result => exact absurd (Event.verify_ok_iff.mp verified) altered
  | error error =>
    rw [verified] at returns
    exact returns.1

/-- The event is handed out once, after all else has been asked, and only if it verifies: to
the relays that the policy is for, each of them in the pool, and to no others. -/
theorem sendEvent_handsOut {targets : List RelayUrl} {send : RelaySend}
    (asks : (sendEvent externals client crypto crate call).Asks log (.sendEvents targets send)) :
    call.event.Verified externals crypto ∧ send.event = call.event ∧ targets ≠ [] ∧ targets.Nodup ∧
      (∀ url, url ∈ targets ↔ Routed externals client crate call log url) ∧
      (∃ pool : RelayPool, log.getLast? = some ⟨.readRelays, pool⟩ ∧
        ∀ url ∈ targets, (pool.relays.get? url).isSome) ∧
      ∀ entry ∈ log, isSend entry.1 = false := by
  rw [sendEvent_eq] at asks
  rcases asks_bind.mp asks with early | ⟨urls, front, back, rfl, prepared, sending⟩
  · cases onlyAsks_prepare.of_asks early
  · obtain ⟨verified, routed⟩ := returns_prepare prepared
    obtain ⟨some_, rfl, rfl, pool, rfl, known⟩ := asks_poolSendEvent sending
    have same : SameLookups (front ++ [⟨.readRelays, pool⟩]) front := sameLookups_ahead (by simp [isLookup])
    refine ⟨verified, rfl, ?_, urls.elems_nodup, fun url => ?_, ⟨pool, by simp, known⟩, ?_⟩
    · intro nothing
      have : urls.entries = [] := List.map_eq_nil_iff.mp nothing
      simp [SortedSet.isEmpty, this] at some_
    · rw [same.routed]
      exact routed url
    · intro entry member
      rcases List.mem_append.mp member with old | new
      · exact onlyAsks_prepare.of_returns prepared entry old
      · obtain rfl : entry = _ := by simpa using new
        rfl

/-- An output tells of every relay that was handed the event what it has answered, once, and of
no other relay. An error means that no relay was handed the event, and nothing else was done
either if the event does not verify. -/
theorem sendEvent_reports {outcome : Except Error SendEventOutput}
    (returns : (sendEvent externals client crypto crate call).Returns log outcome) :
    (∃ error, outcome = .error error ∧ (∀ entry ∈ log, isSend entry.1 = false) ∧
      (¬ call.event.Verified externals crypto → log = [])) ∨
    ∃ (before : ClientLog) (targets : List RelayUrl) (send : RelaySend)
      (results : ClientAnswer (.sendEvents targets send)) (output : SendEventOutput),
      outcome = .ok output ∧ log = before ++ [⟨.sendEvents targets send, results⟩] ∧ output.value = call.event.id ∧
        (∀ url, url ∈ targets ↔ (output.success.get? url).isSome ∨ (output.failed.get? url).isSome) ∧
        (∀ url, ¬ ((output.success.get? url).isSome ∧ (output.failed.get? url).isSome)) ∧
        (∀ url status, output.success.get? url = some status ↔ (url, .ok status) ∈ results.val) ∧
        ∀ url text, output.failed.get? url = some text ↔
          ∃ error, (url, .error error) ∈ results.val ∧ error.message = text := by
  rw [sendEvent_eq] at returns
  have altered : ¬ call.event.Verified externals crypto → log = [] := by
    intro altered
    rcases returns_bind.mp returns with ⟨_, _, prepared⟩ | ⟨_, _, _, _, prepared, _⟩
    · exact prepare_unverified altered prepared
    · exact absurd (returns_prepare prepared).1 altered
  rcases returns_bind.mp returns with ⟨error, rfl, prepared⟩ | ⟨urls, front, back, rfl, prepared, sending⟩
  · exact .inl ⟨error, rfl, onlyAsks_prepare.of_returns prepared, altered⟩
  · have quiet := onlyAsks_prepare.of_returns prepared
    rcases returns_poolSendEvent sending with ⟨error, rfl, silent⟩ | ⟨before, send, results, rfl, rfl⟩
    · refine .inl ⟨error, rfl, fun entry member => ?_, altered⟩
      exact (List.mem_append.mp member).elim (quiet entry) (silent entry)
    · have once : (results.val.map Prod.fst).Nodup := results.property.nodup_iff.mpr urls.elems_nodup
      obtain ⟨value, succeeded, failed⟩ := collect_results once _ rfl
      refine .inr ⟨front ++ before, urls.elems, send, results, _, rfl, by simp, value, fun url => ?_, fun url => ?_,
        succeeded, failed⟩
      · rw [← results.property.mem_iff, Option.isSome_iff_exists, Option.isSome_iff_exists]
        simp only [succeeded, failed, List.mem_map, Prod.exists, exists_and_right, exists_eq_right]
        constructor
        · rintro ⟨answer, member⟩
          cases answer with
          | ok status => exact .inl ⟨status, member⟩
          | error error => exact .inr ⟨_, error, member, rfl⟩
        · rintro (⟨status, member⟩ | ⟨_, error, member, _⟩)
          · exact ⟨_, member⟩
          · exact ⟨_, member⟩
      · rw [Option.isSome_iff_exists, Option.isSome_iff_exists]
        rintro ⟨⟨status, success⟩, text, failure⟩
        obtain ⟨error, told, _⟩ := (failed url text).mp failure
        cases eq_of_once once ((succeeded url status).mp success) told

end Sending

/-! ## A private message -/

def sampleExternals : Externals where
  hexDecode _ := some (.replicate 32 2)
  hexEncode _ := ""
  relayUrlParse text := some ⟨text⟩

def sampleCrypto : Crypto where
  sha256 _ := .replicate 32 0
  verifySchnorr _ _ _ := true

def sampleCrate : UrlCrate where
  parse := .ok
  scheme _ := "wss"

def inboxRelay : RelayUrl := ⟨"wss://inbox.example.com/"⟩

def sampleWrap : Event where
  id := .replicate 32 0
  pubkey := .replicate 32 1
  createdAt := 0
  kind := .giftWrap
  tags := [⟨["p", "receiver"], List.cons_ne_nil _ _⟩]
  content := ""
  sig := .replicate 64 0

/-- The store names one relay for private messages, and the client writes to another. -/
def sampleAnswers : (call : ClientCall) → ClientAnswer call
  | .saveEvent _ | .process _ | .ensureGossipPublicKeysFresh _ _ => .ok ()
  | .getBestRelays _ _ _ => .ok (.ofList [inboxRelay])
  | .addRelay _ => .ok true
  | .writeRelayUrls => .ofList [⟨"wss://write.example.com/"⟩]
  | .readRelays => { relays := SortedTable.empty.put inboxRelay .gossip }
  | .sendEvents urls _ => ⟨urls.map fun url => (url, .ok .sent), by simp [Function.comp_def]⟩

def sampleClient : Client where
  gossip := true

def sampleCall : SendEvent where
  event := sampleWrap
  policy := some .toNip17

def sampleProgram : ClientProgram SendEventOutput :=
  sendEvent sampleExternals sampleClient sampleCrypto sampleCrate sampleCall

theorem sendEvent_handsOut_inbox : ∃ log send,
    sampleProgram.Asks log (.sendEvents [inboxRelay] send) ∧
      ∀ url, url ∈ [inboxRelay] ↔ Routed sampleExternals sampleClient sampleCrate sampleCall log url := by
  have split : (sampleProgram.runWith sampleAnswers).1 = (sampleProgram.runWith sampleAnswers).1.dropLast ++
      [⟨.sendEvents [inboxRelay] ⟨sampleWrap, true, 10000, 10000⟩, sampleAnswers _⟩] := rfl
  have asks := asks_of_returns (returns_runWith sampleAnswers sampleProgram) split
  exact ⟨_, _, asks, (sendEvent_handsOut asks).2.2.2.2.1⟩

theorem sendEvent_reports_inbox : ∃ (targets : List RelayUrl) (output : SendEventOutput),
    (sampleProgram.runWith sampleAnswers).2 = .ok output ∧
      ∀ url, url ∈ targets ↔ (output.success.get? url).isSome ∨ (output.failed.get? url).isSome := by
  rcases sendEvent_reports (returns_runWith sampleAnswers sampleProgram) with
    ⟨_, failed, _⟩ | ⟨_, targets, _, _, output, told, _, _, listed, _⟩
  · cases failed
  · exact ⟨targets, output, told, listed⟩

end RustNostr.NostrSdk.Client
