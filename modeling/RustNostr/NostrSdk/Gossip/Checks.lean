import Mathlib
import RustNostr.NostrSdk.Gossip.SubFilters
import RustNostr.NostrSdk.Gossip.Updater

/-!
# What a refresh marks as checked

A key and a list kind should be marked as checked only if a relay answered for them. The
updater marks all kinds of a key together, as soon as it has a list of one of them.
-/

set_option autoImplicit false

namespace RustNostr.NostrSdk.Gossip

open Library NostrGossip

/-! ## What relays answer -/

/-- The filter asks for the list. -/
structure Covers (filter : Filter) (key : PublicKey) (kind : GossipListKind) : Prop where
  author : HasAuthor filter key
  kind : ∃ kinds, filter.kinds = some kinds ∧ kind.toEventKind.asU16 ∈ kinds.elems

/-- The event is such a list of the key. -/
structure IsList (key : PublicKey) (kind : GossipListKind) (event : Event) : Prop where
  author : event.pubkey = key
  kind : event.kind.asU16 = kind.toEventKind.asU16

namespace ListRequest

def Completed (request : ListRequest) : Prop :=
  ∃ url, (url, RelayStreamEvent.completed) ∈ request.stream

def Delivers (request : ListRequest) (event : Event) : Prop :=
  event ∈ deliveredEvents request.stream

end ListRequest

/-- A relay completed a request for the list, or delivered one. -/
def Refresh.Answers (run : Refresh) (key : PublicKey) (kind : GossipListKind) : Prop :=
  ∃ request ∈ run.requests, (request.Completed ∧ ∃ filter ∈ request.filters, Covers filter key kind) ∨
    ∃ event, request.Delivers event ∧ IsList key kind event

/-- As above, or a relay delivered a list during the sync. -/
def Obtained (run : Refresh) (output : SyncOutput) (key : PublicKey) (kind : GossipListKind) : Prop :=
  (∃ event ∈ output.received, IsList key kind event) ∨ run.Answers key kind

section

variable {gossipKinds : List GossipListKind} {keys : List PublicKey} {key : PublicKey} {kind : GossipListKind}

theorem toEventKind_injective {left right : GossipListKind}
    (same : left.toEventKind.asU16 = right.toEventKind.asU16) : left = right := by
  cases left with
  | nip17 =>
      cases right with
      | nip17 => rfl
      | nip65 => exact absurd same (by decide)
  | nip65 =>
      cases right with
      | nip17 => exact absurd same (by decide)
      | nip65 => rfl

theorem mem_listKinds {number : UInt16} :
    number ∈ (SortedSet.ofList (gossipKinds.map fun kind => kind.toEventKind.asU16)).elems ↔
      ∃ kind ∈ gossipKinds, kind.toEventKind.asU16 = number := by
  rw [mem_elems_ofList, List.mem_map]

theorem covers_listsFilter : Covers (listsFilter gossipKinds keys) key kind ↔ key ∈ keys ∧ kind ∈ gossipKinds := by
  constructor
  · intro ⟨⟨authors, isAuthors, author⟩, kinds, isKinds, number⟩
    cases isAuthors
    cases isKinds
    obtain ⟨other, asked, same⟩ := mem_listKinds.mp number
    exact ⟨mem_elems_ofList.mp author, toEventKind_injective same ▸ asked⟩
  · intro ⟨author, asked⟩
    exact ⟨⟨_, rfl, mem_elems_ofList.mpr author⟩, _, rfl, mem_listKinds.mpr ⟨kind, asked, rfl⟩⟩

theorem mem_updateFetchAttempts {author : PublicKey} :
    (key, kind) ∈ updateFetchAttempts gossipKinds author ↔ author = key ∧ kind ∈ gossipKinds := by
  simp only [updateFetchAttempts, List.mem_map, Prod.mk.injEq]
  constructor
  · intro ⟨_, asked, author, same⟩
    exact ⟨author, same ▸ asked⟩
  · intro ⟨author, asked⟩
    exact ⟨kind, asked, author, rfl⟩

theorem mem_markGossipPublicKeysChecked :
    (key, kind) ∈ markGossipPublicKeysChecked gossipKinds keys ↔ key ∈ keys ∧ kind ∈ gossipKinds := by
  simp only [markGossipPublicKeysChecked, List.mem_flatMap, mem_updateFetchAttempts]
  constructor
  · intro ⟨_, found, same, asked⟩
    exact ⟨same ▸ found, asked⟩
  · intro ⟨found, asked⟩
    exact ⟨key, found, rfl, asked⟩

/-- All kinds are marked for the author of an event. -/
theorem mem_marksOfAuthors {events : List Event} :
    (key, kind) ∈ events.flatMap (fun event => updateFetchAttempts gossipKinds event.pubkey) ↔
      ∃ event ∈ events, event.pubkey = key ∧ kind ∈ gossipKinds := by
  simp only [List.mem_flatMap, mem_updateFetchAttempts]

theorem mem_removeAuthors {stored : List Event} :
    key ∈ removeAuthors stored keys ↔ key ∈ keys ∧ ∀ event ∈ stored, event.pubkey ≠ key := by
  simp only [removeAuthors, List.mem_filter, List.mem_map, decide_eq_true_eq, not_exists, not_and, ne_eq]

theorem removeAuthors_removeAuthors {stored : List Event} :
    removeAuthors stored (removeAuthors stored keys) = removeAuthors stored keys := by
  rw [removeAuthors, removeAuthors, List.filter_filter]
  simp only [Bool.and_self]

/-! ## The parts of a run -/

variable {calls : UpdaterCalls} {output : SyncOutput} {stored : List Event} {outdated : List PublicKey}

theorem author_of_stored {event : Event} (some_ : key ∈ keys)
    (found : event ∈ storedEvents calls gossipKinds keys) : event.pubkey ∈ keys := by
  obtain ⟨authors, _⟩ := matchEvent_iff.mp (List.mem_filter.mp found).2
  have nonempty : (SortedSet.ofList keys).isEmpty = false := by
    rw [Bool.eq_false_iff]
    intro empty
    have member : key ∈ (SortedSet.ofList keys).elems := mem_elems_ofList.mpr some_
    rw [SortedSet.elems, List.isEmpty_iff.mp empty] at member
    cases member
  exact mem_elems_ofList.mp (Filter.setMatch_iff.mp authors _ rfl nonempty)

theorem Refresh.mem_andThen_marked {first next : Refresh} {mark : PublicKey × GossipListKind} :
    mark ∈ (first.andThen next).marked ↔ mark ∈ first.marked ∨ (first.result = .ok () ∧ mark ∈ next.marked) := by
  unfold Refresh.andThen
  cases first.result with
  | error error => simp
  | ok => simp

theorem Refresh.mem_andThen_requests {first next : Refresh} {request : ListRequest} :
    request ∈ (first.andThen next).requests ↔
      request ∈ first.requests ∨ (first.result = .ok () ∧ request ∈ next.requests) := by
  unfold Refresh.andThen
  cases first.result with
  | error error => simp
  | ok => simp

/-- What is delivered for newer lists is marked, in all kinds. -/
theorem mem_fetchChunksFrom_marked {start : Nat} {parts : List (List Filter)} :
    (key, kind) ∈ (fetchChunksFrom calls gossipKinds output start parts).marked ↔
      ∃ request ∈ (fetchChunksFrom calls gossipKinds output start parts).requests, ∃ event,
        request.Delivers event ∧ event.pubkey = key ∧ kind ∈ gossipKinds := by
  induction parts generalizing start with
  | nil => simp [fetchChunksFrom]
  | cons chunk rest ih =>
      rw [fetchChunksFrom]
      split
      next => simp
      next stream answered =>
        simp only [Refresh.mem_andThen_marked, Refresh.mem_andThen_requests, true_and, ih, mem_marksOfAuthors,
          List.mem_singleton, or_and_right, exists_or, exists_eq_left]
        rfl

theorem filters_of_fetchChunksFrom {start : Nat} {parts : List (List Filter)} {request : ListRequest}
    (sent : request ∈ (fetchChunksFrom calls gossipKinds output start parts).requests) :
    request.filters ∈ parts := by
  induction parts generalizing start with
  | nil => cases sent
  | cons chunk rest ih =>
      rw [fetchChunksFrom] at sent
      split at sent
      next => cases sent
      next stream answered =>
        rw [Refresh.mem_andThen_requests] at sent
        cases sent with
        | inl this =>
            rw [List.mem_singleton.mp this]
            exact List.mem_cons_self
        | inr later => exact List.mem_cons_of_mem _ (ih later.2)

theorem mem_of_mem_chunks {α : Type} {size : Nat} {elements part : List α} {element : α}
    (chunk : part ∈ chunks size elements) (member : element ∈ part) : element ∈ elements := by
  obtain ⟨index, _, same⟩ := List.mem_map.mp chunk
  rw [← same] at member
  exact List.mem_of_mem_drop (List.mem_of_mem_take member)

/-- The newer lists that are asked for are those of stored events. -/
theorem covers_newerFilter {event : Event} (covers : Covers (newerFilter event) key kind) : IsList key kind event := by
  obtain ⟨⟨authors, isAuthors, author⟩, kinds, isKinds, number⟩ := covers
  cases isAuthors
  cases isKinds
  have sameAuthor : key ∈ [event.pubkey] := author
  have sameKind : kind.toEventKind.asU16 ∈ [event.kind.asU16] := number
  exact ⟨(List.mem_singleton.mp sameAuthor).symm, (List.mem_singleton.mp sameKind).symm⟩

theorem stored_of_newer {request : ListRequest} {filter : Filter}
    (sent : request ∈ (fetchNewerGossipListsFromFailedRelays calls gossipKinds output stored).requests)
    (member : filter ∈ request.filters) (covers : Covers filter key kind) :
    ∃ event ∈ stored, IsList key kind event := by
  have newer := mem_of_mem_chunks (filters_of_fetchChunksFrom sent) member
  obtain ⟨event, found, same⟩ := List.mem_map.mp newer
  subst same
  exact ⟨event, (List.mem_filter.mp found).1, covers_newerFilter covers⟩

/-- A relay answered the request for the missing lists. -/
theorem completesFetch_iff {stream : EventStream} {filters : List Filter} :
    (stream.any fun item => item.2.completesFetch) = true ↔
      (∃ event, (ListRequest.mk filters stream).Delivers event) ∨ (ListRequest.mk filters stream).Completed := by
  rw [List.any_eq_true]
  constructor
  · intro ⟨⟨url, item⟩, found, completes⟩
    cases item with
    | event event => exact .inl ⟨event, List.mem_filterMap.mpr ⟨_, found, rfl⟩⟩
    | completed => exact .inr ⟨url, found⟩
    | error error => cases completes
    | limitReached => cases completes
  · intro answered
    cases answered with
    | inl delivered =>
        obtain ⟨event, delivered⟩ := delivered
        obtain ⟨⟨url, item⟩, found, isEvent⟩ := List.mem_filterMap.mp delivered
        cases item <;> cases isEvent
        exact ⟨_, found, rfl⟩
    | inr completed =>
        obtain ⟨url, found⟩ := completed
        exact ⟨_, found, rfl⟩

/-- The missing keys are marked, for all kinds. -/
def MarksMissing (calls : UpdaterCalls) (gossipKinds : List GossipListKind) (output : SyncOutput)
    (stored : List Event) (missing : List PublicKey) : Prop :=
  (output.failed = [] ∧ output.success ≠ []) ∨
    (output.failed ≠ [] ∧
      (fetchNewerGossipListsFromFailedRelays calls gossipKinds output stored).result = .ok () ∧
      ∃ request ∈ (fetchMissingGossipListsFromFailedRelays calls gossipKinds output stored missing).requests,
        output.success ≠ [] ∨ (∃ event, request.Delivers event) ∨ request.Completed)

theorem mem_fetchMissing_marked {missing : List PublicKey} :
    (key, kind) ∈ (fetchMissingGossipListsFromFailedRelays calls gossipKinds output stored missing).marked ↔
      key ∈ missing ∧ kind ∈ gossipKinds ∧
        ∃ request ∈ (fetchMissingGossipListsFromFailedRelays calls gossipKinds output stored missing).requests,
          output.success ≠ [] ∨ (∃ event, request.Delivers event) ∨ request.Completed := by
  unfold fetchMissingGossipListsFromFailedRelays
  dsimp only
  split
  next => simp
  next stream answered =>
    have checked : (!output.success.isEmpty || stream.any fun item => item.2.completesFetch) = true ↔
        output.success ≠ [] ∨ (∃ event, (ListRequest.mk [listsFilter gossipKinds missing] stream).Delivers event) ∨
          (ListRequest.mk [listsFilter gossipKinds missing] stream).Completed := by
      rw [Bool.or_eq_true, completesFetch_iff, Bool.not_eq_true', List.isEmpty_eq_false_iff]
    simp only [List.mem_singleton, exists_eq_left]
    rw [← checked]
    split
    next marks => simp only [marks, mem_markGossipPublicKeysChecked, and_true]
    next unmarked => simp [unmarked]

theorem filters_of_fetchMissing {missing : List PublicKey} {request : ListRequest}
    (sent : request ∈ (fetchMissingGossipListsFromFailedRelays calls gossipKinds output stored missing).requests) :
    request.filters = [listsFilter gossipKinds missing] := by
  unfold fetchMissingGossipListsFromFailedRelays at sent
  dsimp only at sent
  split at sent
  next => cases sent
  next => rw [List.mem_singleton.mp sent]

theorem mem_checkMissing_marked :
    (key, kind) ∈ (checkMissing calls gossipKinds outdated output stored).marked ↔ kind ∈ gossipKinds ∧
      ((output.failed ≠ [] ∧
          ∃ request ∈ (fetchNewerGossipListsFromFailedRelays calls gossipKinds output stored).requests, ∃ event,
            request.Delivers event ∧ event.pubkey = key) ∨
        (key ∈ missingPublicKeys stored outdated ∧
          MarksMissing calls gossipKinds output stored (missingPublicKeys stored outdated))) := by
  unfold checkMissing MarksMissing
  dsimp only
  have again : removeAuthors stored (missingPublicKeys stored outdated) = missingPublicKeys stored outdated :=
    removeAuthors_removeAuthors
  rw [again]
  by_cases failed : output.failed = []
  · simp only [failed, List.isEmpty_nil, if_true, ne_eq, not_true_eq_false, false_and, false_or, true_and, or_false]
    split
    next both =>
      rw [Bool.and_eq_true, Bool.not_eq_true', Bool.not_eq_true', List.isEmpty_eq_false_iff,
        List.isEmpty_eq_false_iff] at both
      rw [mem_markGossipPublicKeysChecked]
      exact ⟨fun ⟨missing, asked⟩ => ⟨asked, missing, both.2⟩, fun ⟨asked, missing, _⟩ => ⟨missing, asked⟩⟩
    next neither =>
      constructor
      · exact nofun
      · intro ⟨_, missing, success⟩
        refine absurd ?_ neither
        rw [Bool.and_eq_true, Bool.not_eq_true', Bool.not_eq_true', List.isEmpty_eq_false_iff,
          List.isEmpty_eq_false_iff]
        exact ⟨List.ne_nil_of_mem missing, success⟩
  · rw [if_neg (by simpa using failed), Refresh.mem_andThen_marked]
    simp only [failed, false_and, false_or, ne_eq, not_false_eq_true, true_and]
    have newer : (key, kind) ∈ (fetchNewerGossipListsFromFailedRelays calls gossipKinds output stored).marked ↔
        kind ∈ gossipKinds ∧
          ∃ request ∈ (fetchNewerGossipListsFromFailedRelays calls gossipKinds output stored).requests, ∃ event,
            request.Delivers event ∧ event.pubkey = key := by
      rw [fetchNewerGossipListsFromFailedRelays, mem_fetchChunksFrom_marked]
      constructor
      · intro ⟨request, sent, event, delivered, author, asked⟩
        exact ⟨asked, request, sent, event, delivered, author⟩
      · intro ⟨asked, request, sent, event, delivered, author⟩
        exact ⟨request, sent, event, delivered, author, asked⟩
    rw [newer]
    split
    next none =>
      have nobody : key ∉ missingPublicKeys stored outdated := by
        rw [List.isEmpty_iff.mp none]
        exact List.not_mem_nil
      simp only [List.not_mem_nil, and_false, or_false, nobody, false_and]
    next =>
      rw [mem_fetchMissing_marked]
      constructor
      · intro marked
        cases marked with
        | inl newer => exact ⟨newer.1, .inl newer.2⟩
        | inr both =>
            obtain ⟨completed, missing, asked, answered⟩ := both
            exact ⟨asked, .inr ⟨missing, completed, answered⟩⟩
      · intro ⟨asked, marked⟩
        cases marked with
        | inl newer => exact .inl ⟨asked, newer⟩
        | inr both =>
            obtain ⟨missing, completed, answered⟩ := both
            exact .inr ⟨completed, missing, asked, answered⟩

theorem requests_checkMissing {request : ListRequest}
    (sent : request ∈ (checkMissing calls gossipKinds outdated output stored).requests) :
    request ∈ (fetchNewerGossipListsFromFailedRelays calls gossipKinds output stored).requests ∨
      request ∈ (fetchMissingGossipListsFromFailedRelays calls gossipKinds output stored
        (missingPublicKeys stored outdated)).requests := by
  unfold checkMissing at sent
  dsimp only at sent
  have again : removeAuthors stored (missingPublicKeys stored outdated) = missingPublicKeys stored outdated :=
    removeAuthors_removeAuthors
  rw [again] at sent
  split at sent
  next =>
    split at sent
    next => cases sent
    next => cases sent
  next =>
    rw [Refresh.mem_andThen_requests] at sent
    cases sent with
    | inl newer => exact .inl newer
    | inr missing =>
        obtain ⟨_, missing⟩ := missing
        split at missing
        next => cases missing
        next => exact .inr missing

theorem missing_mem_requests {request : ListRequest} (failed : output.failed ≠ [])
    (newer : (fetchNewerGossipListsFromFailedRelays calls gossipKinds output stored).result = .ok ())
    (missing : key ∈ missingPublicKeys stored outdated)
    (sent : request ∈ (fetchMissingGossipListsFromFailedRelays calls gossipKinds output stored
      (missingPublicKeys stored outdated)).requests) :
    request ∈ (checkMissing calls gossipKinds outdated output stored).requests := by
  unfold checkMissing
  dsimp only
  have again : removeAuthors stored (missingPublicKeys stored outdated) = missingPublicKeys stored outdated :=
    removeAuthors_removeAuthors
  rw [if_neg (by simpa using failed), Refresh.mem_andThen_requests, again,
    if_neg (by simpa using List.ne_nil_of_mem missing)]
  exact .inr ⟨newer, sent⟩

end

/-! ## The marks of a run -/

section

variable (calls : UpdaterCalls) (publicKeys : List PublicKey) (gossipKinds : List GossipListKind)

/-- The filter of the sync. -/
def syncFilter : Filter := listsFilter gossipKinds (outdatedPublicKeys calls publicKeys gossipKinds)

/-- The lists in the database of the keys that are outdated. -/
def knownLists : List Event := storedEvents calls gossipKinds (outdatedPublicKeys calls publicKeys gossipKinds)

def unknownKeys : List PublicKey :=
  missingPublicKeys (knownLists calls publicKeys gossipKinds) (outdatedPublicKeys calls publicKeys gossipKinds)

/-- In the run, a relay completed the sync or a request that covers the key and the kind,
or it delivered such a list. -/
def Answered (key : PublicKey) (kind : GossipListKind) : Prop :=
  ∃ output, calls.sync (syncFilter calls publicKeys gossipKinds) = .ok output ∧
    ((output.success ≠ [] ∧ Covers (syncFilter calls publicKeys gossipKinds) key kind) ∨
      Obtained (syncGossipPublicKeys calls publicKeys gossipKinds) output key kind)

/-- What is marked was answered for, and nothing is marked where no relay answers; and
where no relay completed the sync, the list of a kind that is missing is asked for also if
that of another kind is known. -/
structure ChecksAnswered : Prop where
  marked : ∀ key kind, (key, kind) ∈ (syncGossipPublicKeys calls publicKeys gossipKinds).marked →
    Answered calls publicKeys gossipKinds key kind
  unanswered : (∀ key kind, ¬ Answered calls publicKeys gossipKinds key kind) →
    (syncGossipPublicKeys calls publicKeys gossipKinds).marked = []
  asked : ∀ output, calls.sync (syncFilter calls publicKeys gossipKinds) = .ok output → output.success = [] →
    output.failed ≠ [] → ∀ key ∈ outdatedPublicKeys calls publicKeys gossipKinds, ∀ kind ∈ gossipKinds,
    ∀ known ∈ knownLists calls publicKeys gossipKinds, known.pubkey = key →
    (∀ event ∈ knownLists calls publicKeys gossipKinds, ¬ IsList key kind event) →
    ∃ request ∈ (syncGossipPublicKeys calls publicKeys gossipKinds).requests,
      ∃ filter ∈ request.filters, Covers filter key kind

/-- The newer lists that the relays of the failed syncs are asked for. -/
def newerRequests (output : SyncOutput) : Refresh :=
  fetchNewerGossipListsFromFailedRelays calls gossipKinds output (knownLists calls publicKeys gossipKinds)

/-- The request for the missing lists. -/
def missingRequests (output : SyncOutput) : Refresh :=
  fetchMissingGossipListsFromFailedRelays calls gossipKinds output (knownLists calls publicKeys gossipKinds)
    (unknownKeys calls publicKeys gossipKinds)

/-- What a run has to get from the relays. -/
structure AnswersSuffice (output : SyncOutput) : Prop where
  /-- A key with a known or a newer list is answered for in all kinds. -/
  lists : ∀ event, event ∈ knownLists calls publicKeys gossipKinds ∨
      (output.failed ≠ [] ∧ ∃ request ∈ (newerRequests calls publicKeys gossipKinds output).requests,
        request.Delivers event) →
    ∀ kind ∈ gossipKinds,
      (output.success ≠ [] ∧ event.pubkey ∈ outdatedPublicKeys calls publicKeys gossipKinds) ∨
      Obtained (syncGossipPublicKeys calls publicKeys gossipKinds) output event.pubkey kind
  /-- A request for missing lists that delivers one but does not complete delivers all. -/
  missing : output.success = [] → output.failed ≠ [] →
    (newerRequests calls publicKeys gossipKinds output).result = .ok () →
    ∀ request ∈ (missingRequests calls publicKeys gossipKinds output).requests, ∀ event,
    request.Delivers event → ¬ request.Completed →
    ∀ key ∈ unknownKeys calls publicKeys gossipKinds, ∀ kind ∈ gossipKinds,
    Obtained (syncGossipPublicKeys calls publicKeys gossipKinds) output key kind
  /-- A key with a known list has one of every kind. -/
  kinds : output.success = [] → output.failed ≠ [] →
    ∀ event ∈ knownLists calls publicKeys gossipKinds, ∀ kind ∈ gossipKinds,
    ∃ other ∈ knownLists calls publicKeys gossipKinds, IsList event.pubkey kind other

variable {calls publicKeys gossipKinds}

theorem unmarked_of_unanswered
    (marked : ∀ key kind, (key, kind) ∈ (syncGossipPublicKeys calls publicKeys gossipKinds).marked →
      Answered calls publicKeys gossipKinds key kind)
    (unanswered : ∀ key kind, ¬ Answered calls publicKeys gossipKinds key kind) :
    (syncGossipPublicKeys calls publicKeys gossipKinds).marked = [] :=
  List.eq_nil_iff_forall_not_mem.mpr fun mark found => unanswered mark.1 mark.2 (marked mark.1 mark.2 found)

theorem syncGossipPublicKeys_nothing (none : outdatedPublicKeys calls publicKeys gossipKinds = []) :
    syncGossipPublicKeys calls publicKeys gossipKinds = {} := by
  unfold syncGossipPublicKeys
  dsimp only
  split
  next => rfl
  next =>
    split
    next => rfl
    next => rw [none, List.isEmpty_nil, if_pos rfl]

theorem syncGossipPublicKeys_eq {key : PublicKey} (outdated : key ∈ outdatedPublicKeys calls publicKeys gossipKinds) :
    syncGossipPublicKeys calls publicKeys gossipKinds =
      match calls.sync (syncFilter calls publicKeys gossipKinds) with
      | .error error => { result := .error error }
      | .ok output =>
          { marked := (knownLists calls publicKeys gossipKinds).flatMap fun event =>
              updateFetchAttempts gossipKinds event.pubkey : Refresh }.andThen
            (checkMissing calls gossipKinds (outdatedPublicKeys calls publicKeys gossipKinds) output
              (knownLists calls publicKeys gossipKinds)) := by
  have first : key ∈ computeGossipUpdateCandidates calls.firstStatus publicKeys gossipKinds :=
    List.mem_of_mem_filter outdated
  have given : key ∈ publicKeys := List.mem_of_mem_filter first
  unfold syncGossipPublicKeys
  dsimp only
  rw [if_neg (by simpa using List.ne_nil_of_mem given), if_neg (by simpa using List.ne_nil_of_mem first),
    if_neg (by simpa using List.ne_nil_of_mem outdated)]
  rfl

section

variable {output : SyncOutput} {key other : PublicKey} {kind : GossipListKind}
  (outdated : other ∈ outdatedPublicKeys calls publicKeys gossipKinds)
  (synced : calls.sync (syncFilter calls publicKeys gossipKinds) = .ok output)

include outdated synced

theorem requests_syncGossipPublicKeys : (syncGossipPublicKeys calls publicKeys gossipKinds).requests =
    (checkMissing calls gossipKinds (outdatedPublicKeys calls publicKeys gossipKinds) output
      (knownLists calls publicKeys gossipKinds)).requests := by
  rw [syncGossipPublicKeys_eq outdated, synced]
  rfl

/-- Three kinds of keys are marked, in all kinds of lists. -/
theorem mem_marked_iff : (key, kind) ∈ (syncGossipPublicKeys calls publicKeys gossipKinds).marked ↔
    kind ∈ gossipKinds ∧
      ((∃ event ∈ knownLists calls publicKeys gossipKinds, event.pubkey = key) ∨
        (output.failed ≠ [] ∧ ∃ request ∈ (newerRequests calls publicKeys gossipKinds output).requests, ∃ event,
          request.Delivers event ∧ event.pubkey = key) ∨
        (key ∈ unknownKeys calls publicKeys gossipKinds ∧
          MarksMissing calls gossipKinds output (knownLists calls publicKeys gossipKinds)
            (unknownKeys calls publicKeys gossipKinds))) := by
  rw [syncGossipPublicKeys_eq outdated, synced]
  dsimp only
  rw [Refresh.mem_andThen_marked, mem_marksOfAuthors, mem_checkMissing_marked]
  constructor
  · intro marked
    cases marked with
    | inl stored =>
        obtain ⟨event, found, author, asked⟩ := stored
        exact ⟨asked, .inl ⟨event, found, author⟩⟩
    | inr later => exact ⟨later.2.1, .inr later.2.2⟩
  · intro ⟨asked, marked⟩
    cases marked with
    | inl stored =>
        obtain ⟨event, found, author⟩ := stored
        exact .inl ⟨event, found, author, asked⟩
    | inr later => exact .inr ⟨rfl, asked, later⟩

theorem answered_of_answersSuffice (suffices_ : AnswersSuffice calls publicKeys gossipKinds output)
    (marked : (key, kind) ∈ (syncGossipPublicKeys calls publicKeys gossipKinds).marked) :
    Answered calls publicKeys gossipKinds key kind := by
  obtain ⟨asked, cases_⟩ := (mem_marked_iff outdated synced).mp marked
  refine ⟨output, synced, ?_⟩
  have answered : ∀ event, event.pubkey = key →
      (event ∈ knownLists calls publicKeys gossipKinds ∨
        (output.failed ≠ [] ∧ ∃ request ∈ (newerRequests calls publicKeys gossipKinds output).requests,
          request.Delivers event)) →
      (output.success ≠ [] ∧ Covers (syncFilter calls publicKeys gossipKinds) key kind) ∨
        Obtained (syncGossipPublicKeys calls publicKeys gossipKinds) output key kind := by
    intro event author seen
    subst author
    exact (suffices_.lists event seen kind asked).imp_left
      fun ⟨success, known⟩ => ⟨success, covers_listsFilter.mpr ⟨known, asked⟩⟩
  cases cases_ with
  | inl stored =>
      obtain ⟨event, found, author⟩ := stored
      exact answered event author (.inl found)
  | inr later =>
      cases later with
      | inl newer =>
          obtain ⟨failed, request, sent, event, delivered, author⟩ := newer
          exact answered event author (.inr ⟨failed, request, sent, delivered⟩)
      | inr unknown =>
          obtain ⟨unknown, marks⟩ := unknown
          have key_outdated := (mem_removeAuthors.mp unknown).1
          by_cases success : output.success = []
          · right
            cases marks with
            | inl completed => exact absurd success completed.2
            | inr fetched =>
                obtain ⟨failed, newer, request, sent, answer⟩ := fetched
                by_cases completed : request.Completed
                · right
                  refine ⟨request, ?_, .inl ⟨completed, listsFilter gossipKinds
                    (unknownKeys calls publicKeys gossipKinds), ?_, covers_listsFilter.mpr ⟨unknown, asked⟩⟩⟩
                  · rw [requests_syncGossipPublicKeys outdated synced]
                    exact missing_mem_requests failed newer unknown sent
                  · rw [filters_of_fetchMissing sent]
                    exact List.mem_singleton_self _
                · obtain ⟨event, delivered⟩ :=
                    (answer.resolve_left (not_not.mpr success)).resolve_right completed
                  exact suffices_.missing success failed newer request sent event delivered completed key unknown
                    kind asked
          · exact .inl ⟨success, covers_listsFilter.mpr ⟨key_outdated, asked⟩⟩

theorem checksAnswered_of_answersSuffice (suffices_ : AnswersSuffice calls publicKeys gossipKinds output) :
    ChecksAnswered calls publicKeys gossipKinds where
  marked _ _ := answered_of_answersSuffice outdated synced suffices_
  unanswered := unmarked_of_unanswered fun _ _ => answered_of_answersSuffice outdated synced suffices_
  asked output' synced' success failed key _ kind asked known found author missing := by
    have same : output = output' := Except.ok.inj (synced.symm.trans synced')
    subst same
    obtain ⟨other, stored, list⟩ := suffices_.kinds success failed known found kind asked
    exact absurd (author ▸ list) (missing other stored)

theorem answersSuffice_of_checksAnswered (answered : ChecksAnswered calls publicKeys gossipKinds) :
    AnswersSuffice calls publicKeys gossipKinds output where
  lists event seen kind asked := by
    have marked : (event.pubkey, kind) ∈ (syncGossipPublicKeys calls publicKeys gossipKinds).marked := by
      refine (mem_marked_iff outdated synced).mpr ⟨asked, ?_⟩
      cases seen with
      | inl found => exact .inl ⟨event, found, rfl⟩
      | inr newer =>
          obtain ⟨failed, request, sent, delivered⟩ := newer
          exact .inr (.inl ⟨failed, request, sent, event, delivered, rfl⟩)
    obtain ⟨output', synced', answer⟩ := answered.marked _ _ marked
    have same : output = output' := Except.ok.inj (synced.symm.trans synced')
    subst same
    exact answer.imp_left fun ⟨success, covers⟩ => ⟨success, (covers_listsFilter.mp covers).1⟩
  missing success failed newer request sent event delivered _ key unknown kind asked := by
    have marked : (key, kind) ∈ (syncGossipPublicKeys calls publicKeys gossipKinds).marked :=
      (mem_marked_iff outdated synced).mpr ⟨asked, .inr (.inr ⟨unknown,
        .inr ⟨failed, newer, request, sent, .inr (.inl ⟨event, delivered⟩)⟩⟩)⟩
    obtain ⟨output', synced', answer⟩ := answered.marked _ _ marked
    have same : output = output' := Except.ok.inj (synced.symm.trans synced')
    subst same
    exact answer.resolve_left fun completed => completed.1 success
  kinds success failed event found kind asked := by
    by_contra none_
    have missing : ∀ other ∈ knownLists calls publicKeys gossipKinds, ¬ IsList event.pubkey kind other :=
      fun other stored list => none_ ⟨other, stored, list⟩
    obtain ⟨request, sent, filter, member, covers⟩ := answered.asked output synced success failed event.pubkey
      (author_of_stored outdated found) kind asked event found rfl missing
    rw [requests_syncGossipPublicKeys outdated synced] at sent
    cases requests_checkMissing sent with
    | inl newer =>
        obtain ⟨other, stored, list⟩ := stored_of_newer newer member covers
        exact missing other stored list
    | inr lost =>
        rw [filters_of_fetchMissing lost, List.mem_singleton] at member
        subst member
        exact (mem_removeAuthors.mp (covers_listsFilter.mp covers).1).2 event found rfl

end

/-- A run marks only what a relay answered for, and asks for the missing kinds, if and
only if no key is outdated, or the answers of the relays suffice. -/
theorem syncGossipPublicKeys_answered_iff (calls : UpdaterCalls) (publicKeys : List PublicKey)
    (gossipKinds : List GossipListKind) : ChecksAnswered calls publicKeys gossipKinds ↔
      outdatedPublicKeys calls publicKeys gossipKinds = [] ∨
        ∀ output, calls.sync (syncFilter calls publicKeys gossipKinds) = .ok output →
          AnswersSuffice calls publicKeys gossipKinds output := by
  constructor
  · intro answered
    by_cases none : outdatedPublicKeys calls publicKeys gossipKinds = []
    · exact .inl none
    · obtain ⟨key, outdated⟩ := List.exists_mem_of_ne_nil _ none
      exact .inr fun output synced => answersSuffice_of_checksAnswered outdated synced answered
  · intro condition
    cases nobody : outdatedPublicKeys calls publicKeys gossipKinds with
    | nil =>
        have nothing := syncGossipPublicKeys_nothing nobody
        refine ⟨fun key kind marked => ?_, fun _ => nothing ▸ rfl, fun _ _ _ _ key outdated => ?_⟩
        · rw [nothing] at marked
          cases marked
        · rw [nobody] at outdated
          cases outdated
    | cons key rest =>
        have outdated : key ∈ outdatedPublicKeys calls publicKeys gossipKinds := by
          rw [nobody]
          exact List.mem_cons_self
        have suffices_ := condition.resolve_left (List.ne_nil_of_mem outdated)
        cases synced : calls.sync (syncFilter calls publicKeys gossipKinds) with
        | ok output => exact checksAnswered_of_answersSuffice outdated synced (suffices_ output synced)
        | error error =>
            have nothing : (syncGossipPublicKeys calls publicKeys gossipKinds).marked = [] := by
              rw [syncGossipPublicKeys_eq outdated, synced]
            refine ⟨fun key kind marked => ?_, fun _ => nothing, fun output synced' => ?_⟩
            · rw [nothing] at marked
              cases marked
            · rw [synced] at synced'
              cases synced'

end

/-! ## Every relay fails -/

namespace Checks

def sampleAuthor : PublicKey := .replicate 32 1

/-- A list of NIP-65, in the database. -/
def sampleList : Event where
  id := .replicate 32 2
  pubkey := sampleAuthor
  createdAt := 1700000000
  kind := .fromU16 10002
  tags := []
  content := ""
  sig := .replicate 64 3

def sampleRelay : RelayUrl := ⟨"wss://relay.example"⟩

/-- The one relay cannot be reached. -/
def failingCalls : UpdaterCalls where
  firstStatus _ _ := .missing
  secondStatus _ _ := .missing
  sync _ := .ok ⟨[], [sampleRelay], [], []⟩
  database := [sampleList]
  streamEvents _ _ := .ok [(sampleRelay, .error ⟨.other, "timeout"⟩)]
  fetchChunks := 10

end Checks

open Checks in
/-- Both kinds are marked. -/
theorem syncGossipPublicKeys_unanswered :
    ¬ ∀ key kind, (key, kind) ∈ (syncGossipPublicKeys failingCalls [sampleAuthor] [.nip65, .nip17]).marked →
      Answered failingCalls [sampleAuthor] [.nip65, .nip17] key kind := by
  intro answered
  have marked : (sampleAuthor, .nip17) ∈
      (syncGossipPublicKeys failingCalls [sampleAuthor] [.nip65, .nip17]).marked := by
    decide
  have requests : (syncGossipPublicKeys failingCalls [sampleAuthor] [.nip65, .nip17]).requests =
      [⟨[newerFilter sampleList], [(sampleRelay, .error ⟨.other, "timeout"⟩)]⟩] := by
    rfl
  obtain ⟨output, synced, answer⟩ := answered sampleAuthor .nip17 marked
  cases synced
  cases answer with
  | inl completed => exact completed.1 rfl
  | inr obtained =>
      cases obtained with
      | inl received =>
          obtain ⟨event, none, _⟩ := received
          cases none
      | inr answers =>
          obtain ⟨request, sent, answer⟩ := answers
          rw [requests, List.mem_singleton] at sent
          subst sent
          cases answer with
          | inl completed =>
              obtain ⟨⟨url, item⟩, _⟩ := completed
              simp at item
          | inr delivered =>
              obtain ⟨event, none, _⟩ := delivered
              cases none

end RustNostr.NostrSdk.Gossip
