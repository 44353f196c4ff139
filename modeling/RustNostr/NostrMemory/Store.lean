import Mathlib
import RustNostr.Library.CappedSet
import RustNostr.Library.NestedTable
import RustNostr.Nostr.Database
import RustNostr.Nostr.EventSet
import RustNostr.Nostr.Filter

/-!
# The in-memory store

`MemoryStore` (`nostr-memory/src/store.rs`): the ordered set of events and the
maps beside it. The `btreecap` set is a parameter. Kinds stand for their numbers
in the keys of maps, by which they are compared and hashed.
-/

set_option autoImplicit false

namespace RustNostr.NostrMemory

open Library

structure MemoryOptions where
  processNip09 : Bool := false
  processNip62 : Bool := false
  relayUrl : Option RelayUrl := none

abbrev KindAuthor := UInt16 ×ₗ PublicKey

abbrev Address := UInt16 ×ₗ PublicKey ×ₗ String

def kindAuthor (kind : UInt16) (author : PublicKey) : KindAuthor := toLex (kind, author)

def address (kind : UInt16) (author : PublicKey) (identifier : String) : Address :=
  toLex (kind, toLex (author, identifier))

def coordinateKey (coordinate : Coordinate) : Address :=
  address coordinate.kind.asU16 coordinate.publicKey coordinate.identifier

/-- `maxEvents` is the capacity of the event set. -/
structure MemoryStore where
  options : MemoryOptions := {}
  maxEvents : Option ℕ+ := none
  events : SortedTable EventKey Event := .empty
  ids : SortedTable EventId Event := .empty
  authorIndex : SortedTable PublicKey (SortedTable EventKey Event) := .empty
  kindAuthorIndex : SortedTable KindAuthor (SortedTable EventKey Event) := .empty
  paramReplaceableIndex : SortedTable Address Event := .empty
  deletedIds : SortedSet EventId := .empty
  deletedCoordinates : SortedTable Address Timestamp := .empty
  vanishedPublicKeys : SortedSet PublicKey := .empty

structure QueryByAuthorParams where
  author : PublicKey
  since : Option Timestamp := none
  until_ : Option Timestamp := none

structure QueryByKindAndAuthorParams where
  kind : UInt16
  author : PublicKey
  since : Option Timestamp := none
  until_ : Option Timestamp := none

structure QueryByParamReplaceable where
  kind : UInt16
  author : PublicKey
  identifier : String
  since : Option Timestamp := none
  until_ : Option Timestamp := none

inductive QueryPattern where
  | author (params : QueryByAuthorParams)
  | kindAuthor (params : QueryByKindAndAuthorParams)
  | paramReplaceable (params : QueryByParamReplaceable)
  | generic (filter : Filter)

/-- The elements of a set that may be absent, in order. -/
def elements {α : Type} [LinearOrder α] (set : Option (SortedSet α)) : List α :=
  (set.map SortedSet.elems).getD []

def QueryPattern.ofFilter (filter : Filter) : QueryPattern :=
  let identifier := (filter.genericTags.get? .lowercaseD).bind fun values => values.elems.head?
  match elements filter.kinds, elements filter.authors, elements filter.ids,
    filter.genericTags.len, identifier, filter.search with
  | [], [pubkey], [], 0, none, none =>
      .author { author := pubkey, since := filter.since, until_ := filter.until_ }
  | [kind], [pubkey], [], 0, none, none =>
      .kindAuthor { kind, author := pubkey, since := filter.since, until_ := filter.until_ }
  | [kind], [pubkey], [], _, some identifier, none =>
      if (Kind.fromU16 kind).isAddressable then
        .paramReplaceable
          { kind, author := pubkey, identifier, since := filter.since, until_ := filter.until_ }
      else .generic filter
  | _, _, _, _, _, _ => .generic filter

/-- `self == &Filter::default()` -/
def filterIsEmpty (filter : Filter) : Bool :=
  filter.ids.isNone && filter.authors.isNone && filter.kinds.isNone && filter.search.isNone &&
    filter.since.isNone && filter.until_.isNone && filter.limit.isNone &&
    filter.genericTags.entries.isEmpty

/-- Whether the stored event takes precedence over the incoming one. -/
def hasEventBeenReplaced (stored incoming : Event) : Bool :=
  if incoming.createdAt < stored.createdAt then true
  else if stored.createdAt = incoming.createdAt then stored.id < incoming.id
  else false

inductive InternalQueryResult where
  | all
  | set (events : SortedTable EventKey Event)

namespace MemoryStore

def new (maxEvents : Option ℕ+) (options : MemoryOptions) : MemoryStore := { options, maxEvents }

/-! ## Queries -/

variable (store : MemoryStore)

def isDeleted (id : EventId) : Bool := (store.deletedIds.get? id).isSome

/-- What each of the index lookups asks of an event. -/
def inTime (since until_ : Option Timestamp) (event : Event) : Bool :=
  !store.isDeleted event.id && since.all (fun time => time ≤ event.createdAt) &&
    until_.all (fun time => event.createdAt ≤ time)

def queryByAuthor (params : QueryByAuthorParams) : List Event :=
  match store.authorIndex.get? params.author with
  | some set => set.values.filter (store.inTime params.since params.until_)
  | none => []

def queryByKindAndAuthor (params : QueryByKindAndAuthorParams) : List Event :=
  match store.kindAuthorIndex.get? (kindAuthor params.kind params.author) with
  | some set => set.values.filter (store.inTime params.since params.until_)
  | none => []

def queryParamReplaceable (params : QueryByParamReplaceable) : Option Event :=
  if !(Kind.fromU16 params.kind).isAddressable then none
  else
    (store.paramReplaceableIndex.get? (address params.kind params.author params.identifier)).filter
      (store.inTime params.since params.until_)

def genericQuery (filter : Filter) : List Event :=
  store.events.values.filter fun event => !store.isDeleted event.id && filter.matchEvent event {}

def queryByPattern : QueryPattern → List Event
  | .author params => store.queryByAuthor params
  | .kindAuthor params => store.queryByKindAndAuthor params
  | .paramReplaceable params => (store.queryParamReplaceable params).toList
  | .generic filter => store.genericQuery filter

def takeLimit (limit : Option Nat) (events : List Event) : List Event :=
  match limit with
  | some limit => events.take limit
  | none => events

/-- `since > until` -/
def emptyRange (filter : Filter) : Bool :=
  match filter.since, filter.until_ with
  | some since, some until_ => until_ < since
  | _, _ => false

def internalQuery (filter : Filter) : InternalQueryResult :=
  if filterIsEmpty filter then .all
  else if emptyRange filter then .set .empty
  else .set (EventSet.collect (takeLimit filter.limit (store.queryByPattern (.ofFilter filter))))

def eventById (id : EventId) : Option Event := store.ids.get? id

def query (filter : Filter) : List Event :=
  match store.internalQuery filter with
  | .all => store.events.values
  | .set events => events.values

def count (filter : Filter) : Nat :=
  match store.internalQuery filter with
  | .all => store.events.len
  | .set events => events.len

def hasCoordinateBeenDeleted (coordinate : Coordinate) (time : Timestamp) : Bool :=
  (store.deletedCoordinates.get? (coordinateKey coordinate)).any fun deleted => time ≤ deleted

/-! ## Removing events -/

/-- The addressable coordinate under which an event is indexed. -/
def addressOf (event : Event) : Option Address :=
  if event.kind.isAddressable then
    (Tags.identifier event.tags).map (address event.kind.asU16 event.pubkey)
  else none

def removeAddress (event : Event) (index : SortedTable Address Event) :
    SortedTable Address Event :=
  match addressOf event with
  | some address => index.delete address
  | none => index

def discardEvent (event : Event) : MemoryStore :=
  { store with
    ids := store.ids.delete event.id
    authorIndex := store.authorIndex.deleteInner event.pubkey event.orderingKey
    paramReplaceableIndex := removeAddress event store.paramReplaceableIndex
    kindAuthorIndex := store.kindAuthorIndex.deleteInner
      (kindAuthor event.kind.asU16 event.pubkey) event.orderingKey }

/-- The body of the loop of `discard_events`. -/
def discardById (id : EventId) : MemoryStore :=
  match store.ids.get? id with
  | some event =>
      { store.discardEvent event with events := store.events.delete event.orderingKey }
  | none => store

/-- `discard_events` over the ids in the order of the `HashSet`. -/
def discardEvents (ids : List EventId) : MemoryStore := ids.foldl discardById store

def clear : MemoryStore := { options := store.options, maxEvents := store.maxEvents }

def delete (filter : Filter) : MemoryStore :=
  match store.internalQuery filter with
  | .all => store.clear
  | .set events => store.discardEvents (events.values.map Event.id)

def handleRequestToVanish (externals : Externals) (pubkey : PublicKey) : MemoryStore :=
  let marked := { store with vanishedPublicKeys := store.vanishedPublicKeys.insert pubkey }
  (marked.delete (Filter.new.author pubkey)).delete
    ((Filter.new.kind .giftWrap).pubkey externals pubkey)

/-! ## Indexing an event -/

def putAddress (event : Event) (index : SortedTable Address Event) : SortedTable Address Event :=
  match addressOf event with
  | some address => index.put address event
  | none => index

/-- The event enters the maps. -/
def putEvent (event : Event) : MemoryStore :=
  { store with
    ids := store.ids.put event.id event
    authorIndex := store.authorIndex.putInner event.pubkey event.orderingKey event
    paramReplaceableIndex := putAddress event store.paramReplaceableIndex
    kindAuthorIndex :=
      if event.kind.isReplaceable then
        store.kindAuthorIndex.put (kindAuthor event.kind.asU16 event.pubkey)
          (SortedTable.empty.put event.orderingKey event)
      else
        store.kindAuthorIndex.putInner (kindAuthor event.kind.asU16 event.pubkey)
          event.orderingKey event }

def insertEvent (capped : CappedSet EventKey Event) (event : Event) : MemoryStore :=
  let insert := capped.insert store.maxEvents store.events event.orderingKey event
  let store := { store with events := insert.set }
  let store := if insert.inserted then store.putEvent event else store
  match insert.pop with
  | some popped => store.discardEvent popped
  | none => store

/-- What `internal_index_event` has found out before it removes and inserts. -/
structure Indexing where
  status : SaveEventStatus
  toDiscard : List EventId
  store : MemoryStore

/-- The loop over the `e` tags of a deletion request. -/
def checkEventIds (event : Event) : List EventId → Indexing → Indexing
  | [], state => state
  | id :: rest, state =>
      match state.store.ids.get? id with
      | none => checkEventIds event rest state
      | some target =>
          if target.pubkey ≠ event.pubkey then { state with status := .rejected .invalidDelete }
          else if target.createdAt ≤ event.createdAt then
            checkEventIds event rest
              { state with
                toDiscard := state.toDiscard ++ [target.id]
                store :=
                  { state.store with deletedIds := state.store.deletedIds.insert target.id } }
          else checkEventIds event rest state

/-- The time of a deleted coordinate only grows. -/
def markCoordinate (coordinate : Coordinate) (time : Timestamp) : MemoryStore :=
  { store with
    deletedCoordinates := store.deletedCoordinates.put (coordinateKey coordinate)
      (match store.deletedCoordinates.get? (coordinateKey coordinate) with
        | some known => if known < time then time else known
        | none => time) }

/-- The events a coordinate of a deletion request finds. -/
def queryCoordinate (coordinate : Coordinate) (until_ : Timestamp) : List Event :=
  if coordinate.identifier ≠ "" then
    (store.queryParamReplaceable
      { kind := coordinate.kind.asU16, author := coordinate.publicKey,
        identifier := coordinate.identifier, until_ := some until_ }).toList
  else
    store.queryByKindAndAuthor
      { kind := coordinate.kind.asU16, author := coordinate.publicKey, until_ := some until_ }

/-- The loop over the `a` tags. -/
def checkCoordinates (event : Event) : List Coordinate → Indexing → Indexing
  | [], state => state
  | coordinate :: rest, state =>
      if coordinate.publicKey ≠ event.pubkey then
        { state with status := .rejected .invalidDelete }
      else
        let store := state.store.markCoordinate coordinate event.createdAt
        checkCoordinates event rest
          { state with
            toDiscard := state.toDiscard ++
              (store.queryCoordinate coordinate event.createdAt).map Event.id
            store }

/-- Which of the found events take precedence over the incoming one, and which
it replaces. -/
def replace (event : Event) (found : List Event) : Indexing :=
  let wins := fun stored => hasEventBeenReplaced stored event || stored.id == event.id
  { status := if found.any wins then .rejected .replaced else .success
    toDiscard := (found.filter fun stored => !wins stored).map Event.id
    store }

def prepare (externals : Externals) (event : Event) : Indexing :=
  if event.kind.isReplaceable then
    store.replace event
      (store.queryByKindAndAuthor { kind := event.kind.asU16, author := event.pubkey })
  else if event.kind.isAddressable then
    match Tags.identifier event.tags with
    | some identifier =>
        if store.hasCoordinateBeenDeleted ⟨event.kind, event.pubkey, identifier⟩ event.createdAt then
          ⟨.rejected .deleted, [], store⟩
        else
          store.replace event (store.queryParamReplaceable
            { kind := event.kind.asU16, author := event.pubkey, identifier }).toList
    | none => ⟨.rejected .other, [], store⟩
  else if store.options.processNip09 && event.kind == .eventDeletion then
    checkCoordinates event (Tags.coordinates externals event.tags)
      (checkEventIds event (Tags.eventIds externals event.tags) ⟨.success, [], store⟩)
  else if store.options.processNip62 && event.kind == .requestToVanish &&
      Nip62.isValidVanishRequestForRelay externals event.tags store.options.relayUrl then
    ⟨.success, [], store.handleRequestToVanish externals event.pubkey⟩
  else ⟨.success, [], store⟩

/-- Whether the coordinate of the event was deleted at the time of the event or later. -/
def coordinateDeleted (event : Event) : Bool :=
  event.coordinate.any fun coordinate => store.hasCoordinateBeenDeleted coordinate event.createdAt

/-- The checks that refuse an event before anything is done. -/
def refusal (event : Event) (now : Timestamp) : Option RejectedReason :=
  if (store.ids.get? event.id).isSome then some .duplicate
  else if store.isDeleted event.id then some .deleted
  else if (store.vanishedPublicKeys.get? event.pubkey).isSome then some .vanished
  else if store.coordinateDeleted event then some .deleted
  else if event.isExpiredAt now then some .expired
  else none

variable (externals : Externals) (capped : CappedSet EventKey Event)

def internalIndexEvent (event : Event) (now : Timestamp) : SaveEventStatus × MemoryStore :=
  match store.refusal event now with
  | some reason => (.rejected reason, store)
  | none =>
      let state := store.prepare externals event
      let kept := state.store.discardEvents state.toDiscard
      (state.status,
        if state.status = .success then kept.insertEvent capped event else kept)

def indexEvent (event : Event) (now : Timestamp) : SaveEventStatus × MemoryStore :=
  if event.kind.isEphemeral then (.rejected .ephemeral, store)
  else store.internalIndexEvent externals capped event now

end MemoryStore

end RustNostr.NostrMemory
