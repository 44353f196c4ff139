import Mathlib
import RustNostr.NostrMemory.Rejections

/-!
# Deletion requests

What an accepted request takes out of the store and keeps out of it, against the
events that it names: those of its author whose ID it carries, or whose
coordinate it carries and which are not newer.
-/

set_option autoImplicit false

namespace RustNostr.NostrMemory.MemoryStore

open Library

variable {externals : Externals} {capped : CappedSet EventKey Event} {store : MemoryStore}
  {request target : Event}

/-- The coordinate is the event's own. -/
def Names (coordinate : Coordinate) (target : Event) : Prop :=
  ∃ own, target.coordinate = some own ∧ coordinateKey own = coordinateKey coordinate

def NamesSome (coordinates : List Coordinate) (target : Event) : Prop :=
  ∃ coordinate ∈ coordinates, Names coordinate target

def FindsSome (coordinates : List Coordinate) (target : Event) : Prop :=
  ∃ coordinate ∈ coordinates, Finds coordinate target

/-- The request names the event. -/
def NamedBy (externals : Externals) (request target : Event) : Prop :=
  target.pubkey = request.pubkey ∧
    (target.id ∈ Tags.eventIds externals request.tags ∨
      NamesSome (Tags.coordinates externals request.tags) target ∧
        target.createdAt ≤ request.createdAt)

/-- The request removes the stored events that it names and no others, and an
event that it names does not get into the store after it. -/
structure DeletesNamed (externals : Externals) (capped : CappedSet EventKey Event)
    (store : MemoryStore) (request : Event) (now : Timestamp) : Prop where
  removes : ∀ target, store.Holds target →
    (¬ (store.kept externals request).Holds target ↔ NamedBy externals request target)
  refuses : ∀ target later, NamedBy externals request target →
    let after := (store.indexEvent externals capped request now).2
    (after.indexEvent externals capped target later).1 ≠ .success ∧
      ¬ (after.indexEvent externals capped target later).2.Holds target

/-- Each ID of the request is that of a stored event that is not newer, or is
deleted already; and of its author's stored events that are not newer and not
named by ID, the lookups reach those whose coordinate the request carries. -/
structure ReachesNamed (externals : Externals) (store : MemoryStore) (request : Event) : Prop where
  ids : ∀ id ∈ Tags.eventIds externals request.tags, store.isDeleted id = true ∨
    ∃ target, store.Holds target ∧ target.id = id ∧ target.createdAt ≤ request.createdAt
  coordinates : ∀ target, store.Holds target → target.pubkey = request.pubkey →
    target.createdAt ≤ request.createdAt → target.id ∉ Tags.eventIds externals request.tags →
    (FindsSome (Tags.coordinates externals request.tags) target ↔
      NamesSome (Tags.coordinates externals request.tags) target)

/-! ## Accepted requests -/

/-- Nothing that an accepted request names belongs to another author. -/
structure Owned (externals : Externals) (store : MemoryStore) (request : Event) : Prop where
  targets : ∀ id ∈ Tags.eventIds externals request.tags, store.ownTarget request id = true
  coordinates : ∀ coordinate ∈ Tags.coordinates externals request.tags,
    coordinate.publicKey = request.pubkey

theorem owned_of_accepted (requested : store.isDeletionRequest request = true)
    (accepted : (store.prepare externals request).status = .success) :
    Owned externals store request := by
  rw [prepare_deletion requested, checkEventIds_eq, checkCoordinates_eq] at accepted
  simp only [orInvalid] at accepted
  split at accepted
  next coordinates =>
    split at accepted
    next targets =>
      constructor
      · exact List.all_eq_true.mp targets
      · intro coordinate member
        exact of_decide_eq_true (List.all_eq_true.mp coordinates coordinate member)
    next => cases accepted
  next => cases accepted

theorem Owned.removes_iff (owned : Owned externals store request) (valid : store.Valid)
    (requested : store.isDeletionRequest request = true) (held : store.Holds target) :
    store.Removes externals request target ↔ target.createdAt ≤ request.createdAt ∧
      (target.id ∈ Tags.eventIds externals request.tags ∨
        FindsSome (Tags.coordinates externals request.tags) target) := by
  have all_ids : (Tags.eventIds externals request.tags).takeWhile (store.ownTarget request) =
      Tags.eventIds externals request.tags := List.takeWhile_eq_self_iff.mpr owned.targets
  have all_coordinates : ownCoordinates request (Tags.coordinates externals request.tags) =
      Tags.coordinates externals request.tags :=
    List.takeWhile_eq_self_iff.mpr fun coordinate member =>
      decide_eq_true (owned.coordinates coordinate member)
  rw [removes_deletion requested, valid.describes.mem_erasedIds, all_ids, all_coordinates]
  constructor
  · rintro (⟨member, other, there, same, older⟩ | ⟨coordinate, member, found, older⟩)
    · rw [valid.describes.eq_of_id there held same] at older
      exact ⟨older, .inl member⟩
    · exact ⟨older, .inr ⟨coordinate, member, found⟩⟩
  · rintro ⟨older, member | ⟨coordinate, member, found⟩⟩
    · exact .inl ⟨member, target, held, rfl, older⟩
    · exact .inr ⟨coordinate, member, found, older⟩

theorem pubkey_of_finds {coordinate : Coordinate} (found : Finds coordinate target) :
    target.pubkey = coordinate.publicKey := by
  unfold Finds at found
  split at found
  · exact (addressOf_eq_some.mp found).2.2.1
  · exact (kindAuthor_inj.mp found).2

theorem Owned.pubkey_of_finds (owned : Owned externals store request)
    (found : FindsSome (Tags.coordinates externals request.tags) target) :
    target.pubkey = request.pubkey := by
  obtain ⟨coordinate, member, found⟩ := found
  exact (MemoryStore.pubkey_of_finds found).trans (owned.coordinates coordinate member)

theorem Owned.pubkey_of_id (owned : Owned externals store request) (valid : store.Valid)
    (held : store.Holds target) (member : target.id ∈ Tags.eventIds externals request.tags) :
    target.pubkey = request.pubkey := by
  have own := owned.targets target.id member
  rw [ownTarget, (valid.describes.ids target.id target).mpr ⟨held, rfl⟩] at own
  exact of_decide_eq_true own

theorem Valid.kept_holds (valid : store.Valid) {now : Timestamp}
    (unrefused : store.refusal request now = none) (held : store.Holds target) :
    ¬ (store.kept externals request).Holds target ↔ store.Removes externals request target := by
  rw [(valid.kept_describes externals unrefused).holds_iff]
  simp only [held, true_and, not_not]

/-- What is needed of a request that was accepted. -/
structure AcceptedRequest (externals : Externals) (store : MemoryStore) (request : Event)
    (now : Timestamp) : Prop where
  valid : store.Valid
  requested : store.isDeletionRequest request = true
  lasting : request.kind.isEphemeral = false
  unrefused : store.refusal request now = none
  accepted : (store.prepare externals request).status = .success

/-- The store after an accepted request. -/
def after (externals : Externals) (capped : CappedSet EventKey Event) (store : MemoryStore)
    (request : Event) : MemoryStore :=
  (store.kept externals request).insertEvent capped request

section Accepted

variable {now : Timestamp} (request_accepted : AcceptedRequest externals store request now)

include request_accepted

theorem AcceptedRequest.owned : Owned externals store request :=
  owned_of_accepted request_accepted.requested request_accepted.accepted

theorem AcceptedRequest.inserted :
    Inserted (store.kept externals request)
      (fun other => store.Holds other ∧ ¬ store.Removes externals request other) request
      (store.after externals capped request) :=
  (request_accepted.valid.kept_describes externals request_accepted.unrefused).insertEvent capped
    (request_accepted.valid.fresh request_accepted.unrefused request_accepted.accepted)
    (request_accepted.valid.kept externals request_accepted.unrefused).fits

theorem AcceptedRequest.after_holds (held : (store.after externals capped request).Holds target) :
    target = request ∨ store.Holds target ∧ ¬ store.Removes externals request target := by
  cases @AcceptedRequest.inserted externals capped store request now request_accepted with
  | room _ _ describes => exact (describes.holds_iff target).mp held
  | full _ _ _ _ describes => exact ((describes.holds_iff target).mp held).1

theorem AcceptedRequest.marks :
    SameMarks (store.marked externals request) (store.after externals capped request) :=
  (sameMarks_kept externals request_accepted.unrefused).trans (sameMarks_insertEvent _ capped request)

theorem AcceptedRequest.after_isDeleted (id : EventId) :
    (store.after externals capped request).isDeleted id = true ↔
      store.isDeleted id = true ∨
        id ∈ store.erasedIds request (Tags.eventIds externals request.tags) := by
  rw [request_accepted.marks.isDeleted, marked, if_pos request_accepted.requested]
  exact isDeleted_markIds _ id

theorem AcceptedRequest.after_dated {coordinate : Coordinate}
    (member : coordinate ∈ Tags.coordinates externals request.tags) :
    Dated (store.after externals capped request).deletedCoordinates coordinate
      request.createdAt := by
  have owned := request_accepted.owned
  have all_own : ownCoordinates request (Tags.coordinates externals request.tags) =
      Tags.coordinates externals request.tags :=
    List.takeWhile_eq_self_iff.mpr fun coordinate member =>
      decide_eq_true (owned.coordinates coordinate member)
  rw [request_accepted.marks.deletedCoordinates, marked, if_pos request_accepted.requested,
    all_own]
  exact dated_markTimes member store.deletedCoordinates

theorem AcceptedRequest.unnamed (reaches : ReachesNamed externals store request) :
    ¬ NamedBy externals request request := by
  rintro ⟨_, member | ⟨⟨_, _, own, named, _⟩, _⟩⟩
  · cases reaches.ids request.id member with
    | inl deleted =>
        rw [undeleted_of_refusal request_accepted.unrefused] at deleted
        cases deleted
    | inr there =>
        obtain ⟨other, held, same, _⟩ := there
        have unknown := unknown_of_refusal request_accepted.unrefused
        rw [(request_accepted.valid.describes.ids request.id other).mpr ⟨held, same⟩] at unknown
        cases unknown
  · obtain ⟨regular, regular'⟩ := regular_of_isDeletionRequest request_accepted.requested
    simp [Event.coordinate, regular, regular'] at named

/-! ## A request whose lookups reach what it names -/

theorem AcceptedRequest.removes_of_reaches (reaches : ReachesNamed externals store request)
    (held : store.Holds target) :
    ¬ (store.kept externals request).Holds target ↔ NamedBy externals request target := by
  have valid := request_accepted.valid
  have owned := request_accepted.owned
  rw [valid.kept_holds request_accepted.unrefused held,
    owned.removes_iff valid request_accepted.requested held]
  constructor
  · rintro ⟨older, member | found⟩
    · exact ⟨owned.pubkey_of_id valid held member, .inl member⟩
    · have own := owned.pubkey_of_finds found
      by_cases member : target.id ∈ Tags.eventIds externals request.tags
      · exact ⟨own, .inl member⟩
      · exact ⟨own, .inr ⟨(reaches.coordinates target held own older member).mp found, older⟩⟩
  · rintro ⟨own, named⟩
    by_cases member : target.id ∈ Tags.eventIds externals request.tags
    · cases reaches.ids target.id member with
      | inl deleted =>
          rw [valid.undeleted target held] at deleted
          cases deleted
      | inr there =>
          obtain ⟨other, there, same, older⟩ := there
          rw [valid.describes.eq_of_id there held same] at older
          exact ⟨older, .inl member⟩
    · obtain ⟨named, older⟩ := named.resolve_left member
      exact ⟨older, .inr ((reaches.coordinates target held own older member).mpr named)⟩

omit request_accepted in
theorem coordinateDeleted_of_dated {coordinate : Coordinate} {time : Timestamp}
    (dated : Dated store.deletedCoordinates coordinate time) (named : Names coordinate target)
    (older : target.createdAt ≤ time) : store.coordinateDeleted target = true := by
  obtain ⟨own, own_eq, same⟩ := named
  obtain ⟨known, found, later⟩ := dated
  simp only [coordinateDeleted, own_eq, Option.any_some, hasCoordinateBeenDeleted, same, found,
    decide_eq_true_eq]
  exact older.trans later

omit request_accepted in
theorem refused_of_turnedAway {later : Timestamp} (away : store.TurnedAway target later) :
    (store.indexEvent externals capped target later).1 ≠ .success ∧
      (store.indexEvent externals capped target later).2 = store := by
  have outcome := indexEvent_outcome store externals capped target later
  generalize store.indexEvent externals capped target later = result at outcome
  cases outcome with
  | refused => simp
  | rejected lasting unrefused _ | accepted lasting unrefused _ =>
      cases away with
      | inl ephemeral =>
          rw [ephemeral] at lasting
          cases lasting
      | inr refusal => exact absurd unrefused refusal

theorem AcceptedRequest.refuses_of_reaches (reaches : ReachesNamed externals store request)
    (named : NamedBy externals request target) (later : Timestamp) :
    let after := store.after externals capped request
    (after.indexEvent externals capped target later).1 ≠ .success ∧
      ¬ (after.indexEvent externals capped target later).2.Holds target := by
  intro after
  have valid := request_accepted.valid
  have absent : ¬ after.Holds target := by
    intro held
    cases request_accepted.after_holds held with
    | inl here => exact request_accepted.unnamed reaches (here ▸ named)
    | inr there =>
        have gone := (request_accepted.removes_of_reaches reaches there.1).mpr named
        exact there.2 ((valid.kept_holds request_accepted.unrefused there.1).mp gone)
  have away : after.TurnedAway target later := by
    refine .inr fun unrefused => ?_
    obtain ⟨_, undeleted, _, alive, _⟩ := refusal_eq_none.mp unrefused
    obtain ⟨_, member | ⟨⟨coordinate, member, own⟩, older⟩⟩ := named
    · have deleted : after.isDeleted target.id = true := by
        rw [request_accepted.after_isDeleted]
        cases reaches.ids target.id member with
        | inl before => exact .inl before
        | inr there =>
            have own := List.takeWhile_eq_self_iff.mpr request_accepted.owned.targets
            exact .inr ((valid.describes.mem_erasedIds request _ _).mpr ⟨by rwa [own], there⟩)
      rw [deleted] at undeleted
      cases undeleted
    · rw [coordinateDeleted_of_dated (request_accepted.after_dated member) own older] at alive
      cases alive
  obtain ⟨refused, same⟩ := @refused_of_turnedAway externals capped after target later away
  rw [same]
  exact ⟨refused, absent⟩

/-! ## A request that deletes what it names -/

/-- A plain event of the author with this ID. -/
def sampleTarget (request : Event) (id : EventId) : Event where
  id := id
  pubkey := request.pubkey
  createdAt := request.createdAt
  kind := .custom 1
  tags := []
  content := ""
  sig := request.sig

theorem AcceptedRequest.takes_target {id : EventId}
    (unknown : (store.after externals capped request).ids.get? id = none)
    (undeleted : (store.after externals capped request).isDeleted id = false) :
    ((store.after externals capped request).indexEvent externals capped
      (sampleTarget request id) now).1 = .success := by
  have present : (store.after externals capped request).vanishedPublicKeys.get? request.pubkey =
      none := by
    rw [request_accepted.marks.vanishedPublicKeys, marked, if_pos request_accepted.requested]
    exact (refusal_eq_none.mp request_accepted.unrefused).2.2.1
  have unrefused : (store.after externals capped request).refusal (sampleTarget request id) now =
      none := refusal_eq_none.mpr ⟨unknown, undeleted, present, rfl, rfl⟩
  have plain : (store.after externals capped request).isDeletionRequest (sampleTarget request id) =
      false := not_request rfl
  have plain' : (store.after externals capped request).isVanishRequest externals
      (sampleTarget request id) = false := not_vanish rfl
  have prepared : (store.after externals capped request).prepare externals
      (sampleTarget request id) = ⟨.success, [], store.after externals capped request⟩ :=
    prepare_plain rfl rfl plain plain'
  have outcome := indexEvent_outcome (store.after externals capped request) externals capped
    (sampleTarget request id) now
  generalize (store.after externals capped request).indexEvent externals capped
    (sampleTarget request id) now = result at outcome ⊢
  cases outcome with
  | refused refused =>
      cases refused with
      | inl ephemeral => cases ephemeral
      | inr refusal =>
          rw [unrefused] at refusal
          cases refusal
  | rejected _ _ rejected =>
      rw [prepared] at rejected
      cases rejected
  | accepted => rfl

theorem AcceptedRequest.indexEvent_eq :
    store.indexEvent externals capped request now =
      (.success, store.after externals capped request) := by
  have outcome := indexEvent_outcome store externals capped request now
  generalize store.indexEvent externals capped request now = result at outcome ⊢
  cases outcome with
  | refused refused =>
      cases refused with
      | inl ephemeral =>
          rw [request_accepted.lasting] at ephemeral
          cases ephemeral
      | inr refusal =>
          rw [request_accepted.unrefused] at refusal
          cases refusal
  | rejected _ _ rejected =>
      rw [request_accepted.accepted] at rejected
      cases rejected
  | accepted => rfl

theorem AcceptedRequest.after_valid : (store.after externals capped request).Valid := by
  have valid := request_accepted.valid.indexEvent externals capped request now
  rwa [request_accepted.indexEvent_eq] at valid

theorem AcceptedRequest.ids_of_deletes
    (removes : ∀ target, store.Holds target →
      (¬ (store.kept externals request).Holds target ↔ NamedBy externals request target))
    (refuses : ∀ target later, NamedBy externals request target →
      ((store.after externals capped request).indexEvent externals capped target later).1 ≠
          .success ∧
        ¬ ((store.after externals capped request).indexEvent externals capped target
          later).2.Holds target)
    {id : EventId} (member : id ∈ Tags.eventIds externals request.tags) :
    store.isDeleted id = true ∨
      ∃ target, store.Holds target ∧ target.id = id ∧ target.createdAt ≤ request.createdAt := by
  have valid := request_accepted.valid
  have owned := request_accepted.owned
  cases known : store.ids.get? id with
  | some target =>
      obtain ⟨held, rfl⟩ := (valid.describes.ids id target).mp known
      have own := owned.pubkey_of_id valid held member
      have gone := (removes target held).mpr ⟨own, .inl member⟩
      rw [valid.kept_holds request_accepted.unrefused held,
        owned.removes_iff valid request_accepted.requested held] at gone
      exact .inr ⟨target, held, rfl, gone.1⟩
  | none =>
      refine .inl (Classical.byContradiction fun alive => ?_)
      have undeleted : (store.after externals capped request).isDeleted id = false := by
        rw [← Bool.not_eq_true, request_accepted.after_isDeleted, not_or]
        refine ⟨alive, fun erased => ?_⟩
        obtain ⟨_, target, held, same, _⟩ := (valid.describes.mem_erasedIds request _ id).mp erased
        rw [(valid.describes.ids id target).mpr ⟨held, same⟩] at known
        cases known
      have own : ∀ target : Event, target.pubkey = request.pubkey → target.id = id →
          NamedBy externals request target := fun target own same => ⟨own, .inl (same ▸ member)⟩
      cases present : (store.after externals capped request).ids.get? id with
      | none =>
          have taken := request_accepted.takes_target present undeleted
          exact (refuses (sampleTarget request id) now (own _ rfl rfl)).1 taken
      | some other =>
          -- Only the request itself can have come in with this ID.
          obtain ⟨there, same⟩ :=
            (request_accepted.after_valid.describes.ids id other).mp present
          cases request_accepted.after_holds there with
          | inr before =>
              rw [(valid.describes.ids id other).mpr ⟨before.1, same⟩] at known
              cases known
          | inl here =>
              have known_now : (store.after externals capped request).TurnedAway other now := by
                refine .inr fun unrefused => ?_
                have unknown := unknown_of_refusal unrefused
                rw [same, present] at unknown
                cases unknown
              obtain ⟨_, unchanged⟩ := @refused_of_turnedAway externals capped _ _ _ known_now
              have refused := (refuses other now (own other (by rw [here]) same)).2
              rw [unchanged] at refused
              exact refused there

theorem AcceptedRequest.coordinates_of_deletes
    (removes : ∀ target, store.Holds target →
      (¬ (store.kept externals request).Holds target ↔ NamedBy externals request target))
    (held : store.Holds target) (own : target.pubkey = request.pubkey)
    (older : target.createdAt ≤ request.createdAt)
    (unlisted : target.id ∉ Tags.eventIds externals request.tags) :
    FindsSome (Tags.coordinates externals request.tags) target ↔
      NamesSome (Tags.coordinates externals request.tags) target := by
  have valid := request_accepted.valid
  have precise := removes target held
  rw [valid.kept_holds request_accepted.unrefused held, request_accepted.owned.removes_iff valid
    request_accepted.requested held] at precise
  simpa only [NamedBy, own, older, unlisted, false_or, true_and, and_true] using precise

theorem AcceptedRequest.deletesNamed_iff :
    store.DeletesNamed externals capped request now ↔ ReachesNamed externals store request := by
  have indexed : (store.indexEvent externals capped request now).2 =
      store.after externals capped request := by rw [request_accepted.indexEvent_eq]
  constructor
  · rintro ⟨removes, refuses⟩
    rw [indexed] at refuses
    exact ⟨fun id member => request_accepted.ids_of_deletes removes refuses member,
      fun target held own older unlisted =>
        request_accepted.coordinates_of_deletes removes held own older unlisted⟩
  · intro reaches
    refine ⟨fun target held => request_accepted.removes_of_reaches reaches held, ?_⟩
    rw [indexed]
    exact fun target later named => request_accepted.refuses_of_reaches reaches named later

end Accepted

theorem Valid.acceptedRequest (valid : store.Valid) {now : Timestamp}
    (requested : store.isDeletionRequest request = true)
    (success : (store.indexEvent externals capped request now).1 = .success) :
    AcceptedRequest externals store request now := by
  have outcome := indexEvent_outcome store externals capped request now
  generalize store.indexEvent externals capped request now = result at outcome success
  cases outcome with
  | refused | rejected => cases success
  | accepted lasting unrefused accepted =>
      exact ⟨valid, requested, lasting, unrefused, accepted⟩

/-- In every reachable state an accepted deletion request removes what it names,
and keeps it out, if and only if its lookups reach what it names. -/
theorem run_deletesNamed_iff (externals : Externals) (capped : CappedSet EventKey Event)
    (maxEvents : Option ℕ+) (options : MemoryOptions) (operations : List Operation)
    (request : Event) (now : Timestamp)
    (requested : (run externals capped maxEvents options operations).isDeletionRequest request =
      true)
    (success : ((run externals capped maxEvents options operations).indexEvent externals capped
      request now).1 = .success) :
    let store := run externals capped maxEvents options operations
    store.DeletesNamed externals capped request now ↔ ReachesNamed externals store request :=
  ((run_valid maxEvents options operations).acceptedRequest requested success).deletesNamed_iff

/-! ## A request that comes before its target -/

open NostrLmdb.Lmdb (hexId sampleEvent sampleTag)

def sampleNote : Event := sampleEvent 1 10 (.custom 1) []

def sampleNoteRequest : Event := sampleEvent 3 20 .eventDeletion [sampleTag "e" (hexId 1)]

theorem run_deletesNamed_iff_note :
    let store := run hexExternals .popLast none { processNip09 := true } [.index sampleNote 0]
    store.DeletesNamed hexExternals .popLast sampleNoteRequest 0 ↔
      ReachesNamed hexExternals store sampleNoteRequest :=
  run_deletesNamed_iff hexExternals .popLast none { processNip09 := true } [.index sampleNote 0]
    sampleNoteRequest 0 (by decide +kernel) (by decide +kernel)

/-- The note that the accepted request names is taken in after it. -/
theorem run_not_deletesNamed :
    let store := run hexExternals .popLast none { processNip09 := true } []
    store.isDeletionRequest sampleNoteRequest = true ∧
      (store.indexEvent hexExternals .popLast sampleNoteRequest 0).1 = .success ∧
      ¬ store.DeletesNamed hexExternals .popLast sampleNoteRequest 0 := by
  refine ⟨by decide +kernel, by decide +kernel, fun deletes => ?_⟩
  have named : NamedBy hexExternals sampleNoteRequest sampleNote :=
    ⟨rfl, .inl (by decide +kernel)⟩
  exact (deletes.refuses sampleNote 0 named).1 (by decide +kernel)

end RustNostr.NostrMemory.MemoryStore
