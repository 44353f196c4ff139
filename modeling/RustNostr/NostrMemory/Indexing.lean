import Mathlib
import RustNostr.NostrMemory.Lookups

/-!
# What indexing an event removes

The two loops over the tags of a deletion request in closed form, and the stored
events that an incoming event removes.
-/

set_option autoImplicit false

namespace RustNostr.NostrMemory.MemoryStore

open Library

variable {store : MemoryStore} {stored : Event → Prop}

/-! ## The loops of a deletion request -/

/-- A deletion request stops at the ID of a stored event of another author. -/
def ownTarget (store : MemoryStore) (event : Event) (id : EventId) : Bool :=
  (store.ids.get? id).all fun target => target.pubkey = event.pubkey

/-- The stored event that the ID in a deletion request erases. -/
def erased (store : MemoryStore) (event : Event) (id : EventId) : Option EventId :=
  ((store.ids.get? id).filter fun target => target.createdAt ≤ event.createdAt).map Event.id

/-- What the loop over the `e` tags erases before it ends or stops. -/
def erasedIds (store : MemoryStore) (event : Event) (ids : List EventId) : List EventId :=
  (ids.takeWhile (store.ownTarget event)).filterMap (store.erased event)

def markIds (store : MemoryStore) (ids : List EventId) : MemoryStore :=
  { store with deletedIds := ids.foldl SortedSet.insert store.deletedIds }

/-- The coordinates that the loop over the `a` tags handles. -/
def ownCoordinates (event : Event) (coordinates : List Coordinate) : List Coordinate :=
  coordinates.takeWhile fun coordinate => coordinate.publicKey = event.pubkey

def markTimes (time : Timestamp) (coordinates : List Coordinate)
    (times : SortedTable Address Timestamp) : SortedTable Address Timestamp :=
  coordinates.foldl (fun times coordinate =>
    times.put (coordinateKey coordinate)
      (match times.get? (coordinateKey coordinate) with
        | some known => if known < time then time else known
        | none => time)) times

def markCoordinates (store : MemoryStore) (time : Timestamp) (coordinates : List Coordinate) :
    MemoryStore :=
  { store with deletedCoordinates := markTimes time coordinates store.deletedCoordinates }

/-- The status after a loop that may find the request invalid. -/
def orInvalid (valid : Bool) (status : SaveEventStatus) : SaveEventStatus :=
  if valid then status else .rejected .invalidDelete

theorem checkEventIds_eq (event : Event) (ids : List EventId) (state : Indexing) :
    checkEventIds event ids state =
      { status := orInvalid (ids.all (state.store.ownTarget event)) state.status
        toDiscard := state.toDiscard ++ state.store.erasedIds event ids
        store := state.store.markIds (state.store.erasedIds event ids) } := by
  induction ids generalizing state with
  | nil => simp [checkEventIds, erasedIds, markIds, orInvalid]
  | cons id rest ih =>
      unfold checkEventIds
      split
      next unknown =>
        rw [ih]
        simp [erasedIds, ownTarget, erased, unknown]
      next target known =>
        by_cases own : target.pubkey = event.pubkey
        · rw [if_neg (not_not.mpr own)]
          by_cases older : target.createdAt ≤ event.createdAt
          · rw [if_pos older, ih]
            simp only [erasedIds, ownTarget, erased, known, own, older, markIds, List.all_cons,
              Option.all_some, decide_true, Bool.true_and, List.takeWhile_cons, if_true,
              List.filterMap_cons, Option.filter_some, Option.map_some, List.append_assoc,
              List.singleton_append, List.foldl_cons]
            rfl
          · have kept : state.store.erased event id = none := by
              simpa [erased, known] using older
            rw [if_neg older, ih]
            simp [erasedIds, ownTarget, known, own, kept]
        · rw [if_pos own]
          simp [erasedIds, ownTarget, known, own, markIds, orInvalid]

theorem checkCoordinates_eq (event : Event) (coordinates : List Coordinate) (state : Indexing) :
    checkCoordinates event coordinates state =
      { status := orInvalid
          (coordinates.all fun coordinate => coordinate.publicKey = event.pubkey) state.status
        toDiscard := state.toDiscard ++
          (ownCoordinates event coordinates).flatMap fun coordinate =>
            (state.store.queryCoordinate coordinate event.createdAt).map Event.id
        store := state.store.markCoordinates event.createdAt
          (ownCoordinates event coordinates) } := by
  induction coordinates generalizing state with
  | nil => simp [checkCoordinates, ownCoordinates, markCoordinates, markTimes, orInvalid]
  | cons coordinate rest ih =>
      unfold checkCoordinates
      split
      next foreign =>
        simp [ownCoordinates, foreign, markCoordinates, markTimes, orInvalid]
      next own =>
        rw [ih]
        have own := not_not.mp own
        simp only [ownCoordinates, own, List.all_cons, List.takeWhile_cons, decide_true,
          Bool.true_and, if_true, List.flatMap_cons, List.append_assoc, markCoordinates, markTimes,
          markCoordinate, List.foldl_cons]
        rfl

/-! ## What stays when marks are made -/

theorem Describes.markIds (describes : store.Describes stored) (ids : List EventId) :
    (store.markIds ids).Describes stored :=
  { ids := describes.ids, author := describes.author, kindAuthor := describes.kindAuthor,
    address := describes.address, events := describes.events }

theorem Describes.markCoordinates (describes : store.Describes stored) (time : Timestamp)
    (coordinates : List Coordinate) :
    (store.markCoordinates time coordinates).Describes stored :=
  { ids := describes.ids, author := describes.author, kindAuthor := describes.kindAuthor,
    address := describes.address, events := describes.events }

theorem isSome_get?_foldl_insert (ids : List EventId) (set : SortedSet EventId) (id : EventId) :
    ((ids.foldl SortedSet.insert set).get? id).isSome = true ↔
      (set.get? id).isSome = true ∨ id ∈ ids := by
  induction ids generalizing set with
  | nil => simp
  | cons head rest ih =>
      rw [List.foldl_cons, ih, SortedSet.insert, SortedTable.get?_put, List.mem_cons]
      by_cases same : id = head
      · simp [same]
      · simp [same]

theorem isDeleted_markIds (ids : List EventId) (id : EventId) :
    (store.markIds ids).isDeleted id = true ↔ store.isDeleted id = true ∨ id ∈ ids :=
  isSome_get?_foldl_insert ids store.deletedIds id

theorem Describes.mem_erasedIds (describes : store.Describes stored) (event : Event)
    (ids : List EventId) (id : EventId) :
    id ∈ store.erasedIds event ids ↔ id ∈ ids.takeWhile (store.ownTarget event) ∧
      ∃ target, stored target ∧ target.id = id ∧ target.createdAt ≤ event.createdAt := by
  simp only [erasedIds, erased, List.mem_filterMap, Option.map_eq_some_iff,
    Option.filter_eq_some_iff, describes.ids, decide_eq_true_eq]
  constructor
  · rintro ⟨_, member, target, ⟨⟨there, rfl⟩, older⟩, rfl⟩
    exact ⟨member, target, there, .refl _, older⟩
  · rintro ⟨member, target, there, same, older⟩
    exact ⟨id, member, target, ⟨⟨there, same⟩, older⟩, same⟩

/-- The tombstones and settings that removing and inserting events leave alone. -/
structure SameMarks (store store' : MemoryStore) : Prop where
  options : store'.options = store.options
  maxEvents : store'.maxEvents = store.maxEvents
  deletedIds : store'.deletedIds = store.deletedIds
  deletedCoordinates : store'.deletedCoordinates = store.deletedCoordinates
  vanishedPublicKeys : store'.vanishedPublicKeys = store.vanishedPublicKeys

theorem SameMarks.rfl : SameMarks store store := ⟨.refl _, .refl _, .refl _, .refl _, .refl _⟩

theorem SameMarks.trans {first second third : MemoryStore} (left : SameMarks first second)
    (right : SameMarks second third) : SameMarks first third where
  options := right.options.trans left.options
  maxEvents := right.maxEvents.trans left.maxEvents
  deletedIds := right.deletedIds.trans left.deletedIds
  deletedCoordinates := right.deletedCoordinates.trans left.deletedCoordinates
  vanishedPublicKeys := right.vanishedPublicKeys.trans left.vanishedPublicKeys

theorem SameMarks.isDeleted {store' : MemoryStore} (same : SameMarks store store') (id : EventId) :
    store'.isDeleted id = store.isDeleted id := by
  rw [MemoryStore.isDeleted, same.deletedIds, MemoryStore.isDeleted]

theorem sameMarks_discardEvents (store : MemoryStore) (ids : List EventId) :
    SameMarks store (store.discardEvents ids) := by
  induction ids generalizing store with
  | nil => exact .rfl
  | cons id ids ih =>
      refine SameMarks.trans ?_ (ih (store.discardById id))
      unfold discardById
      split
      · exact ⟨.refl _, .refl _, .refl _, .refl _, .refl _⟩
      · exact .rfl

theorem sameMarks_insertEvent (store : MemoryStore) (capped : CappedSet EventKey Event)
    (event : Event) : SameMarks store (store.insertEvent capped event) := by
  unfold insertEvent
  generalize capped.insert store.maxEvents store.events event.orderingKey event = insert
  obtain ⟨inserted, pop, set⟩ := insert
  cases inserted <;> cases pop <;> exact ⟨.refl _, .refl _, .refl _, .refl _, .refl _⟩

/-! ## What an event removes -/

/-- The stored event stays and the incoming one of its kind and author, or of
its address, is rejected. -/
def wins (incoming stored : Event) : Bool :=
  hasEventBeenReplaced stored incoming || stored.id == incoming.id

def SameKindAuthor (event other : Event) : Prop :=
  kindAuthor other.kind.asU16 other.pubkey = kindAuthor event.kind.asU16 event.pubkey

def SameAddress (event other : Event) : Prop :=
  ∃ address, addressOf event = some address ∧ addressOf other = some address

/-- The lookup for a coordinate of a deletion request reaches the event, if it
is old enough. -/
def Finds (coordinate : Coordinate) (other : Event) : Prop :=
  if coordinate.identifier ≠ "" then addressOf other = some (coordinateKey coordinate)
  else kindAuthor other.kind.asU16 other.pubkey =
    kindAuthor coordinate.kind.asU16 coordinate.publicKey

def isDeletionRequest (store : MemoryStore) (event : Event) : Bool :=
  store.options.processNip09 && event.kind == .eventDeletion

def isVanishRequest (store : MemoryStore) (externals : Externals) (event : Event) : Bool :=
  store.options.processNip62 && event.kind == .requestToVanish &&
    Nip62.isValidVanishRequestForRelay externals event.tags store.options.relayUrl

/-- The filters of `handle_request_to_vanish`. -/
def authoredBy (pubkey : PublicKey) : Filter := Filter.new.author pubkey

def giftWrapsFor (externals : Externals) (pubkey : PublicKey) : Filter :=
  (Filter.new.kind .giftWrap).pubkey externals pubkey

/-- Indexing the event removes this stored event before anything is inserted. -/
def Removes (store : MemoryStore) (externals : Externals) (event other : Event) : Prop :=
  if event.kind.isReplaceable then SameKindAuthor event other ∧ wins event other = false
  else if event.kind.isAddressable then SameAddress event other ∧ wins event other = false
  else if store.isDeletionRequest event then
    other.id ∈ store.erasedIds event (Tags.eventIds externals event.tags) ∨
      ∃ coordinate ∈ ownCoordinates event (Tags.coordinates externals event.tags),
        Finds coordinate other ∧ other.createdAt ≤ event.createdAt
  else if store.isVanishRequest externals event then
    other.pubkey = event.pubkey ∨ (giftWrapsFor externals event.pubkey).matchEvent other {} = true
  else False

/-- The store between the removals and the insertion. -/
def kept (store : MemoryStore) (externals : Externals) (event : Event) : MemoryStore :=
  let state := store.prepare externals event
  state.store.discardEvents state.toDiscard

theorem Describes.discardFound (describes : store.Describes stored) (found : List Event)
    (there : ∀ other ∈ found, stored other) :
    (store.discardEvents (found.map Event.id)).Describes
      fun other => stored other ∧ other ∉ found := by
  apply (describes.discardEvents _).congr
  intro other
  simp only [List.mem_map, not_exists, not_and]
  constructor
  · rintro ⟨held, absent⟩
    refine ⟨held, fun member here same => absent ?_⟩
    rw [← describes.eq_of_id (there member here) held same]
    exact here
  · rintro ⟨held, different⟩
    exact ⟨held, fun here => different other here rfl⟩

variable {externals : Externals} {event : Event}

theorem inTime_unbounded (event : Event) :
    store.inTime none none event = !store.isDeleted event.id := by
  simp [inTime]

@[simp] theorem discardEvents_nil (store : MemoryStore) : store.discardEvents [] = store := .refl _

/-- What replacing leaves of the stored events. -/
theorem Describes.replace (describes : store.Describes stored) (event : Event)
    (found : List Event) (there : ∀ other ∈ found, stored other) :
    let state := store.replace event found
    (state.store.discardEvents state.toDiscard).Describes
      fun other => stored other ∧ ¬ (other ∈ found ∧ wins event other = false) := by
  apply (describes.discardFound (found.filter fun other => !wins event other) fun other member =>
    there other (List.mem_of_mem_filter member)).congr
  intro other
  simp only [List.mem_filter, Bool.not_eq_true']

theorem Valid.mem_versions (valid : store.Valid) (event other : Event) :
    other ∈ store.queryByKindAndAuthor { kind := event.kind.asU16, author := event.pubkey } ↔
      store.Holds other ∧ SameKindAuthor event other := by
  rw [valid.describes.mem_queryByKindAndAuthor, inTime_unbounded]
  constructor
  · rintro ⟨held, same, _⟩
    exact ⟨held, same⟩
  · rintro ⟨held, same⟩
    exact ⟨held, same, by rw [valid.undeleted other held]; exact .refl _⟩

theorem Valid.mem_versions_address (valid : store.Valid) {event : Event} {identifier : String}
    (addressable : event.kind.isAddressable = true)
    (named : Tags.identifier event.tags = some identifier) (other : Event) :
    other ∈ (store.queryParamReplaceable
        { kind := event.kind.asU16, author := event.pubkey, identifier }).toList ↔
      store.Holds other ∧ SameAddress event other := by
  have own := addressOf_eq_some.mpr ⟨addressable, .refl _, .refl _, named⟩
  rw [Option.mem_toList, valid.describes.queryParamReplaceable_eq_some,
    inTime_unbounded]
  constructor
  · rintro ⟨held, same, _⟩
    exact ⟨held, _, own, same⟩
  · rintro ⟨held, address, own', same⟩
    rw [own] at own'
    cases own'
    exact ⟨held, same, by rw [valid.undeleted other held]; exact .refl _⟩

theorem Describes.mem_queryCoordinate (describes : store.Describes stored)
    (coordinate : Coordinate) (time : Timestamp) (other : Event) :
    other ∈ store.queryCoordinate coordinate time ↔ stored other ∧ Finds coordinate other ∧
      store.isDeleted other.id = false ∧ other.createdAt ≤ time := by
  have inTime : store.inTime none (some time) other = true ↔
      store.isDeleted other.id = false ∧ other.createdAt ≤ time := by
    simp [MemoryStore.inTime]
  unfold MemoryStore.queryCoordinate Finds
  split
  · rw [Option.mem_toList, describes.queryParamReplaceable_eq_some, inTime]
    exact Iff.rfl
  · rw [describes.mem_queryByKindAndAuthor, inTime]

/-! ## Branch by branch -/

theorem not_request (plain : (event.kind == .eventDeletion) = false) :
    store.isDeletionRequest event = false := by
  rw [isDeletionRequest, plain, Bool.and_false]

theorem not_vanish (plain : (event.kind == .requestToVanish) = false) :
    store.isVanishRequest externals event = false := by
  rw [isVanishRequest, plain, Bool.and_false, Bool.false_and]

theorem regular_of_isDeletionRequest (request : store.isDeletionRequest event = true) :
    event.kind.isReplaceable = false ∧ event.kind.isAddressable = false := by
  rw [← Bool.not_eq_true, ← Bool.not_eq_true]
  constructor
  · intro replaceable
    rw [not_request (Kind.not_special_of_isReplaceable replaceable).1] at request
    cases request
  · intro addressable
    rw [not_request (Kind.not_special_of_isAddressable addressable).1] at request
    cases request

theorem prepare_deletion (request : store.isDeletionRequest event = true) :
    store.prepare externals event =
      checkCoordinates event (Tags.coordinates externals event.tags)
        (checkEventIds event (Tags.eventIds externals event.tags) ⟨.success, [], store⟩) := by
  obtain ⟨regular, regular'⟩ := regular_of_isDeletionRequest request
  unfold isDeletionRequest at request
  simp only [prepare, regular, regular', request, Bool.false_eq_true, if_false, if_true]

theorem Valid.kept_deletion (valid : store.Valid) (request : store.isDeletionRequest event = true) :
    (store.kept externals event).Describes fun other => store.Holds other ∧
      ¬ (other.id ∈ store.erasedIds event (Tags.eventIds externals event.tags) ∨
        ∃ coordinate ∈ ownCoordinates event (Tags.coordinates externals event.tags),
          Finds coordinate other ∧ other.createdAt ≤ event.createdAt) := by
  unfold kept
  rw [prepare_deletion request, checkEventIds_eq, checkCoordinates_eq]
  simp only [List.nil_append]
  generalize erased : store.erasedIds event (Tags.eventIds externals event.tags) = ids
  generalize ownCoordinates event (Tags.coordinates externals event.tags) = coordinates
  have marked := valid.describes.markIds ids
  apply ((marked.markCoordinates event.createdAt coordinates).discardEvents _).congr
  intro other
  simp only [List.mem_append, List.mem_flatMap, List.mem_map, not_or, and_congr_right_iff]
  intro held kept_id
  apply not_congr
  constructor
  · rintro ⟨coordinate, member, found, older⟩
    have undeleted : (store.markIds ids).isDeleted other.id = false := by
      rw [Bool.eq_false_iff, ne_eq, isDeleted_markIds, valid.undeleted other held]
      simp [kept_id]
    exact ⟨coordinate, member, other,
      (marked.mem_queryCoordinate _ _ _).mpr ⟨held, found, undeleted, older⟩, .refl _⟩
  · rintro ⟨coordinate, member, found, here, same⟩
    obtain ⟨there, finds, _, older⟩ := (marked.mem_queryCoordinate _ _ _).mp here
    rw [valid.describes.eq_of_id there held same] at finds older
    exact ⟨coordinate, member, finds, older⟩

theorem authoredBy_pattern (pubkey : PublicKey) :
    QueryPattern.ofFilter (authoredBy pubkey) = .author { author := pubkey } := .refl _

theorem giftWrapsFor_pattern (externals : Externals) (pubkey : PublicKey) :
    QueryPattern.ofFilter (giftWrapsFor externals pubkey) =
      .generic (giftWrapsFor externals pubkey) := .refl _

theorem Describes.query_unlimited (describes : store.Describes stored) {filter : Filter}
    (nonempty : filterIsEmpty filter = false) (range : emptyRange filter = false)
    (unlimited : filter.limit = none) :
    store.query filter = store.queryByPattern (.ofFilter filter) := by
  simp only [describes.query_eq, nonempty, range, unlimited, takeLimit, Bool.false_eq_true,
    if_false]

theorem Valid.mem_query_authoredBy (valid : store.Valid) (pubkey : PublicKey) (other : Event) :
    other ∈ store.query (authoredBy pubkey) ↔ store.Holds other ∧ other.pubkey = pubkey := by
  rw [valid.describes.query_unlimited (.refl _) (.refl _) (.refl _), authoredBy_pattern,
    queryByPattern, valid.describes.mem_queryByAuthor, inTime_unbounded]
  constructor
  · rintro ⟨held, same, _⟩
    exact ⟨held, same⟩
  · rintro ⟨held, same⟩
    exact ⟨held, same, by rw [valid.undeleted other held]; exact .refl _⟩

theorem Describes.mem_query_giftWraps (describes : store.Describes stored)
    (undeleted : ∀ other, stored other → store.isDeleted other.id = false) (pubkey : PublicKey)
    (other : Event) :
    other ∈ store.query (giftWrapsFor externals pubkey) ↔
      stored other ∧ (giftWrapsFor externals pubkey).matchEvent other {} = true := by
  rw [describes.query_unlimited (.refl _) (.refl _) (.refl _), giftWrapsFor_pattern,
    queryByPattern, genericQuery, List.mem_filter, describes.mem_events, and_congr_right_iff]
  intro held
  rw [undeleted other held]
  simp

theorem sameMarks_delete (store : MemoryStore) {filter : Filter}
    (nonempty : filterIsEmpty filter = false) : SameMarks store (store.delete filter) := by
  unfold MemoryStore.delete internalQuery
  rw [nonempty]
  cases emptyRange filter with
  | true => exact sameMarks_discardEvents store _
  | false => exact sameMarks_discardEvents store _

def markVanished (store : MemoryStore) (pubkey : PublicKey) : MemoryStore :=
  { store with vanishedPublicKeys := store.vanishedPublicKeys.insert pubkey }

theorem Valid.markVanished (valid : store.Valid) (pubkey : PublicKey) :
    (store.markVanished pubkey).Valid where
  describes :=
    { ids := valid.describes.ids, author := valid.describes.author,
      kindAuthor := valid.describes.kindAuthor, address := valid.describes.address,
      events := valid.describes.events }
  undeleted := valid.undeleted
  fits := valid.fits

theorem handleRequestToVanish_eq (store : MemoryStore) (externals : Externals) (pubkey : PublicKey) :
    store.handleRequestToVanish externals pubkey =
      ((store.markVanished pubkey).delete (authoredBy pubkey)).delete (giftWrapsFor externals pubkey) := rfl

theorem sameMarks_handleRequestToVanish (store : MemoryStore) (pubkey : PublicKey) :
    SameMarks (store.markVanished pubkey) (store.handleRequestToVanish externals pubkey) := by
  have authored : filterIsEmpty (authoredBy pubkey) = false := .refl _
  have wrapped : filterIsEmpty (giftWrapsFor externals pubkey) = false := .refl _
  rw [handleRequestToVanish_eq]
  exact (sameMarks_delete _ authored).trans (sameMarks_delete _ wrapped)

theorem Valid.handleRequestToVanish (valid : store.Valid) (pubkey : PublicKey) :
    (store.handleRequestToVanish externals pubkey).Describes fun other => store.Holds other ∧
      ¬ (other.pubkey = pubkey ∨ (giftWrapsFor externals pubkey).matchEvent other {} = true) := by
  have marked := valid.markVanished pubkey
  have authored := marked.describes.delete (authoredBy pubkey)
  have undeleted : ∀ other, (store.markVanished pubkey).Holds other ∧
        other ∉ (store.markVanished pubkey).query (authoredBy pubkey) →
      ((store.markVanished pubkey).delete (authoredBy pubkey)).isDeleted other.id = false := by
    rintro other ⟨held, _⟩
    rw [(sameMarks_delete _ (.refl _)).isDeleted]
    exact marked.undeleted other held
  rw [handleRequestToVanish_eq]
  apply (authored.delete (giftWrapsFor externals pubkey)).congr
  intro other
  rw [authored.mem_query_giftWraps undeleted, marked.mem_query_authoredBy]
  constructor
  · rintro ⟨held, left⟩
    obtain ⟨different, unwrapped⟩ := not_or.mp left
    exact ⟨⟨held, fun gone => different gone.2⟩, fun gone => unwrapped gone.2⟩
  · rintro ⟨⟨held, left⟩, left'⟩
    refine ⟨held, not_or.mpr ⟨fun same => left ⟨held, same⟩, fun wrapped => left' ⟨⟨held, left⟩, wrapped⟩⟩⟩

/-- The checks let an event through that is unknown, was never deleted and has
not expired, of an author who has not vanished. -/
theorem refusal_eq_none {now : Timestamp} :
    store.refusal event now = none ↔ store.ids.get? event.id = none ∧
      store.isDeleted event.id = false ∧ store.vanishedPublicKeys.get? event.pubkey = none ∧
      store.coordinateDeleted event = false ∧ event.isExpiredAt now = false := by
  unfold refusal
  split
  next known =>
    simp only [reduceCtorEq, false_iff, not_and]
    intro unknown
    rw [unknown] at known
    cases known
  next unknown =>
  split
  next deleted => simp [deleted]
  next undeleted =>
  split
  next vanished =>
    simp only [reduceCtorEq, false_iff, not_and]
    intro _ _ present
    rw [present] at vanished
    cases vanished
  next present =>
  split
  next deleted => simp [deleted]
  next alive =>
  split
  next expired => simp [expired]
  next lasting => simp_all

theorem coordinateDeleted_of_refusal {now : Timestamp} (unrefused : store.refusal event now = none) :
    store.coordinateDeleted event = false := (refusal_eq_none.mp unrefused).2.2.2.1

theorem unknown_of_refusal {now : Timestamp} (unrefused : store.refusal event now = none) :
    store.ids.get? event.id = none := (refusal_eq_none.mp unrefused).1

theorem undeleted_of_refusal {now : Timestamp} (unrefused : store.refusal event now = none) :
    store.isDeleted event.id = false := (refusal_eq_none.mp unrefused).2.1

/-- The second look at the deleted coordinates finds nothing that the first did not. -/
theorem prepare_addressable {now : Timestamp} (unrefused : store.refusal event now = none)
    (addressable : event.kind.isAddressable = true) {identifier : String}
    (named : Tags.identifier event.tags = some identifier) :
    store.prepare externals event = store.replace event (store.queryParamReplaceable
      { kind := event.kind.asU16, author := event.pubkey, identifier }).toList := by
  have regular := Kind.not_isReplaceable_of_isAddressable addressable
  have alive := coordinateDeleted_of_refusal unrefused
  simp only [coordinateDeleted, Event.coordinate, regular, addressable, named, Bool.false_or,
    if_true, Option.any_some, Option.getD_some] at alive
  simp only [prepare, regular, addressable, named, alive, Bool.false_eq_true, if_false, if_true]

theorem prepare_unnamed (addressable : event.kind.isAddressable = true)
    (unnamed : Tags.identifier event.tags = none) :
    store.prepare externals event = ⟨.rejected .other, [], store⟩ := by
  have regular := Kind.not_isReplaceable_of_isAddressable addressable
  simp only [prepare, regular, addressable, unnamed, Bool.false_eq_true, if_false, if_true]

theorem prepare_replaceable (replaceable : event.kind.isReplaceable = true) :
    store.prepare externals event = store.replace event
      (store.queryByKindAndAuthor { kind := event.kind.asU16, author := event.pubkey }) := by
  simp only [prepare, replaceable, if_true]

theorem prepare_vanish (regular : event.kind.isReplaceable = false)
    (regular' : event.kind.isAddressable = false)
    (plain : store.isDeletionRequest event = false)
    (vanish : store.isVanishRequest externals event = true) :
    store.prepare externals event =
      ⟨.success, [], store.handleRequestToVanish externals event.pubkey⟩ := by
  unfold isDeletionRequest at plain
  unfold isVanishRequest at vanish
  simp only [prepare, regular, regular', plain, vanish, Bool.false_eq_true, if_false, if_true]

theorem prepare_plain (regular : event.kind.isReplaceable = false)
    (regular' : event.kind.isAddressable = false)
    (plain : store.isDeletionRequest event = false)
    (plain' : store.isVanishRequest externals event = false) :
    store.prepare externals event = ⟨.success, [], store⟩ := by
  unfold isDeletionRequest at plain
  unfold isVanishRequest at plain'
  simp only [prepare, regular, regular', plain, plain', Bool.false_eq_true, if_false]

variable (externals) in
theorem Valid.kept_describes (valid : store.Valid) {now : Timestamp}
    (unrefused : store.refusal event now = none) :
    (store.kept externals event).Describes fun other =>
      store.Holds other ∧ ¬ store.Removes externals event other := by
  unfold Removes
  split
  next replaceable =>
    unfold kept
    rw [prepare_replaceable replaceable]
    apply (valid.describes.replace event _ fun other member =>
      ((valid.mem_versions event other).mp member).1).congr
    intro other
    rw [valid.mem_versions]
    tauto
  next regular =>
  split
  next addressable =>
    unfold kept
    cases named : Tags.identifier event.tags with
    | none =>
        rw [prepare_unnamed addressable named]
        apply valid.describes.congr
        intro other
        have homeless : addressOf event = none := by simp [addressOf, addressable, named]
        simp [SameAddress, homeless]
    | some identifier =>
        rw [prepare_addressable unrefused addressable named]
        apply (valid.describes.replace event _ fun other member =>
          ((valid.mem_versions_address addressable named other).mp member).1).congr
        intro other
        rw [valid.mem_versions_address addressable named]
        tauto
  next regular' =>
  have regular := Bool.eq_false_iff.mpr regular
  have regular' := Bool.eq_false_iff.mpr regular'
  split
  next request => exact valid.kept_deletion request
  next plain =>
  have plain := Bool.eq_false_iff.mpr plain
  split
  next vanish =>
    simp only [kept, prepare_vanish regular regular' plain vanish, discardEvents_nil]
    exact valid.handleRequestToVanish event.pubkey
  next plain' =>
    unfold kept
    rw [prepare_plain regular regular' plain (Bool.eq_false_iff.mpr plain')]
    apply valid.describes.congr
    simp

/-- The store with the tombstones that the event leaves. -/
def marked (store : MemoryStore) (externals : Externals) (event : Event) : MemoryStore :=
  if store.isDeletionRequest event then
    (store.markIds (store.erasedIds event (Tags.eventIds externals event.tags))).markCoordinates
      event.createdAt (ownCoordinates event (Tags.coordinates externals event.tags))
  else if !event.kind.isReplaceable && !event.kind.isAddressable &&
      store.isVanishRequest externals event then store.markVanished event.pubkey
  else store

variable (externals) in
theorem sameMarks_kept {now : Timestamp} (unrefused : store.refusal event now = none) :
    SameMarks (store.marked externals event) (store.kept externals event) := by
  unfold marked
  split
  next request =>
    simp only [kept, prepare_deletion request, checkEventIds_eq, checkCoordinates_eq]
    exact sameMarks_discardEvents _ _
  next plain =>
  have plain := Bool.eq_false_iff.mpr plain
  split
  next vanish =>
    simp only [Bool.and_eq_true, Bool.not_eq_true'] at vanish
    obtain ⟨⟨regular, regular'⟩, vanish⟩ := vanish
    simp only [kept, prepare_vanish regular regular' plain vanish, discardEvents_nil]
    exact sameMarks_handleRequestToVanish store event.pubkey
  next plain' =>
    cases regular : event.kind.isReplaceable with
    | true =>
        simp only [kept, prepare_replaceable regular]
        exact sameMarks_discardEvents _ _
    | false =>
        cases regular' : event.kind.isAddressable with
        | true =>
            cases named : Tags.identifier event.tags with
            | none => simpa only [kept, prepare_unnamed regular' named] using .rfl
            | some identifier =>
                simp only [kept, prepare_addressable unrefused regular' named]
                exact sameMarks_discardEvents _ _
        | false =>
            simp only [regular, regular', Bool.not_false, Bool.true_and, Bool.not_eq_true] at plain'
            simpa only [kept, prepare_plain regular regular' plain plain'] using .rfl

theorem marked_maxEvents : (store.marked externals event).maxEvents = store.maxEvents := by
  unfold marked
  split
  · exact .refl _
  · split <;> exact .refl _

theorem removes_deletion (request : store.isDeletionRequest event = true) (other : Event) :
    store.Removes externals event other ↔
      other.id ∈ store.erasedIds event (Tags.eventIds externals event.tags) ∨
        ∃ coordinate ∈ ownCoordinates event (Tags.coordinates externals event.tags),
          Finds coordinate other ∧ other.createdAt ≤ event.createdAt := by
  obtain ⟨regular, regular'⟩ := regular_of_isDeletionRequest request
  simp only [Removes, regular, regular', request, Bool.false_eq_true, if_false, if_true]

/-- An event whose ID the indexing marks as deleted is removed. -/
theorem marked_undeleted {other : Event} (undeleted : store.isDeleted other.id = false)
    (stays : ¬ store.Removes externals event other) :
    (store.marked externals event).isDeleted other.id = false := by
  unfold marked
  split
  next request =>
    rw [removes_deletion request, not_or] at stays
    rw [← Bool.not_eq_true]
    intro deleted
    cases (isDeleted_markIds _ other.id).mp deleted with
    | inl before =>
        rw [before] at undeleted
        cases undeleted
    | inr erased => exact stays.1 erased
  next => split <;> exact undeleted

variable (externals) in
theorem Valid.kept (valid : store.Valid) {now : Timestamp}
    (unrefused : store.refusal event now = none) : (store.kept externals event).Valid := by
  have describes := valid.kept_describes externals unrefused
  have marks := sameMarks_kept externals unrefused
  refine ⟨describes.toHolds, ?_, ?_⟩
  · intro other held
    obtain ⟨held, stays⟩ := (describes.holds_iff other).mp held
    rw [marks.isDeleted]
    exact marked_undeleted (valid.undeleted other held) stays
  · intro max bounded
    rw [marks.maxEvents, marked_maxEvents] at bounded
    apply le_trans (SortedTable.len_le_of_get? ?_) (valid.fits max bounded)
    intro key other found
    obtain ⟨⟨held, _⟩, same⟩ := (describes.events key other).mp found
    exact (valid.describes.events key other).mpr ⟨held, same⟩

theorem replace_status (found : List Event) :
    (store.replace event found).status = .success ↔ ∀ other ∈ found, wins event other = false := by
  have beaten : (store.replace event found).status =
      if found.any (wins event) then .rejected .replaced else .success := .refl _
  rw [beaten]
  split
  next some_wins =>
    obtain ⟨other, member, beats⟩ := List.any_eq_true.mp some_wins
    simp only [reduceCtorEq, false_iff, not_forall]
    exact ⟨other, member, by simp [beats]⟩
  next none_wins => simpa using none_wins

/-- An accepted event meets no stored event that it would have to share an index
entry with. -/
theorem Valid.fresh (valid : store.Valid) {now : Timestamp}
    (unrefused : store.refusal event now = none)
    (accepted : (store.prepare externals event).status = .success) :
    Fresh (fun other => store.Holds other ∧ ¬ store.Removes externals event other) event where
  id := by
    rintro other ⟨held, _⟩ same
    have unknown := unknown_of_refusal unrefused
    rw [(valid.describes.ids event.id other).mpr ⟨held, same⟩] at unknown
    cases unknown
  address := by
    rintro other address ⟨held, stays⟩ other_address event_address
    have shared : SameAddress event other := ⟨address, event_address, other_address⟩
    unfold addressOf at event_address
    split at event_address
    next addressable =>
      obtain ⟨identifier, named, _⟩ := Option.map_eq_some_iff.mp event_address
      rw [prepare_addressable unrefused addressable named, replace_status] at accepted
      have loses := accepted other
        ((valid.mem_versions_address addressable named other).mpr ⟨held, shared⟩)
      have regular := Kind.not_isReplaceable_of_isAddressable addressable
      apply stays
      simp only [Removes, regular, addressable, Bool.false_eq_true, if_false, if_true]
      exact ⟨shared, loses⟩
    next => cases event_address
  sole := by
    rintro replaceable other ⟨held, stays⟩ same
    rw [prepare_replaceable replaceable, replace_status] at accepted
    have loses := accepted other ((valid.mem_versions event other).mpr ⟨held, same⟩)
    apply stays
    simp only [Removes, replaceable, if_true]
    exact ⟨same, loses⟩

/-- No event marks its own ID as deleted. -/
theorem Valid.kept_undeleted (valid : store.Valid) {now : Timestamp}
    (unrefused : store.refusal event now = none) :
    (store.kept externals event).isDeleted event.id = false := by
  rw [(sameMarks_kept externals unrefused).isDeleted]
  have alive := undeleted_of_refusal unrefused
  unfold marked
  split
  next =>
    rw [← Bool.not_eq_true]
    intro deleted
    cases (isDeleted_markIds _ event.id).mp deleted with
    | inl before =>
        rw [before] at alive
        cases alive
    | inr erased =>
        obtain ⟨_, target, held, same, _⟩ := (valid.describes.mem_erasedIds event _ _).mp erased
        have unknown := unknown_of_refusal unrefused
        rw [(valid.describes.ids event.id target).mpr ⟨held, same⟩] at unknown
        cases unknown
  next => split <;> exact alive

/-! ## Inserting into a coherent store -/

theorem Valid.insertEvent (valid : store.Valid) (capped : CappedSet EventKey Event)
    (fresh : Fresh store.Holds event) (undeleted : store.isDeleted event.id = false) :
    (store.insertEvent capped event).Valid := by
  have absent := valid.describes.unknown_key fresh
  have marks := sameMarks_insertEvent store capped event
  have alive : ∀ other, withEvent store.Holds event other →
      (store.insertEvent capped event).isDeleted other.id = false := by
    intro other held
    rw [marks.isDeleted]
    cases held with
    | inl here => rw [here, undeleted]
    | inr there => exact valid.undeleted other there
  cases valid.describes.insertEvent capped fresh valid.fits with
  | room room put describes =>
      refine ⟨describes.toHolds, fun other held => alive other ((describes.holds_iff other).mp held),
        fun max bounded => ?_⟩
      rw [marks.maxEvents] at bounded
      rw [put, SortedTable.len_put _ absent]
      exact room max bounded
  | full bounded filled last left describes =>
      refine ⟨describes.toHolds,
        fun other held => alive other ((describes.holds_iff other).mp held).1, fun max' bounded' => ?_⟩
      rw [marks.maxEvents, bounded] at bounded'
      cases bounded'
      rw [left, ← filled]
      have fewer := SortedTable.len_delete_lt last
      rw [SortedTable.len_put _ absent] at fewer
      exact Nat.le_of_lt_succ fewer

/-! ## One event -/

/-- Everything that indexing an event can do. -/
inductive Outcome (store : MemoryStore) (externals : Externals) (capped : CappedSet EventKey Event)
    (event : Event) (now : Timestamp) : SaveEventStatus × MemoryStore → Prop where
  | refused {reason : RejectedReason} :
      event.kind.isEphemeral = true ∨ store.refusal event now = some reason →
      Outcome store externals capped event now (.rejected reason, store)
  | rejected {reason : RejectedReason} :
      event.kind.isEphemeral = false → store.refusal event now = none →
      (store.prepare externals event).status = .rejected reason →
      Outcome store externals capped event now (.rejected reason, store.kept externals event)
  | accepted :
      event.kind.isEphemeral = false → store.refusal event now = none →
      (store.prepare externals event).status = .success →
      Outcome store externals capped event now
        (.success, (store.kept externals event).insertEvent capped event)

theorem indexEvent_outcome (store : MemoryStore) (externals : Externals)
    (capped : CappedSet EventKey Event) (event : Event) (now : Timestamp) :
    Outcome store externals capped event now (store.indexEvent externals capped event now) := by
  unfold indexEvent
  split
  next ephemeral => exact .refused (.inl ephemeral)
  next lasting =>
    have lasting := Bool.eq_false_iff.mpr lasting
    unfold internalIndexEvent
    split
    next reason refusal => exact .refused (.inr refusal)
    next unrefused =>
      cases status : (store.prepare externals event).status with
      | success =>
          simp only [status, if_true]
          exact .accepted lasting unrefused status
      | rejected reason =>
          simp only [status, reduceCtorEq, if_false]
          exact .rejected lasting unrefused status

theorem Valid.indexEvent (valid : store.Valid) (externals : Externals)
    (capped : CappedSet EventKey Event) (event : Event) (now : Timestamp) :
    (store.indexEvent externals capped event now).2.Valid := by
  have outcome := indexEvent_outcome store externals capped event now
  generalize store.indexEvent externals capped event now = result at outcome
  cases outcome with
  | refused => exact valid
  | rejected _ unrefused _ => exact valid.kept externals unrefused
  | accepted _ unrefused accepted =>
      have describes := valid.kept_describes externals unrefused
      have fresh := valid.fresh unrefused accepted
      rw [← funext fun other => propext (describes.holds_iff other)] at fresh
      exact (valid.kept externals unrefused).insertEvent capped fresh (valid.kept_undeleted unrefused)

end RustNostr.NostrMemory.MemoryStore
