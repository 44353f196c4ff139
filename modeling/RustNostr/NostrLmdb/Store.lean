import Mathlib
import RustNostr.Nostr.Database
import RustNostr.NostrLmdb.Filter
import RustNostr.Library.Transaction

/-!
# The LMDB store

The tables of the store and the operations on them
(`nostr-lmdb/src/store/lmdb/mod.rs`). A write transaction is a state that stays
as it is when an operation fails in the middle; aborting it is up to the caller.
LMDB refuses keys of more than 511 bytes; of the tables, only the one for
deleted coordinates can be given such a key.
-/

set_option autoImplicit false

namespace RustNostr.NostrLmdb

open Library

structure LmdbOptions where
  processNip62 : Bool := true
  processNip09 : Bool := true
  relayUrl : Option RelayUrl := none

inductive StoreError where
  | notFound
  | wrongEventKind
  | badValSize
  deriving DecidableEq

structure Lmdb where
  events : SortedTable EventId DatabaseEvent := .empty
  ciIndex : SortedTable Bytes EventId := .empty
  tcIndex : SortedTable Bytes EventId := .empty
  acIndex : SortedTable Bytes EventId := .empty
  akcIndex : SortedTable Bytes EventId := .empty
  atcIndex : SortedTable Bytes EventId := .empty
  kcIndex : SortedTable Bytes EventId := .empty
  ktcIndex : SortedTable Bytes EventId := .empty
  deletedIds : SortedSet EventId := .empty
  deletedIdsByAuthor : SortedSet Bytes := .empty
  deletedCoordinates : SortedTable Bytes Timestamp := .empty
  vanishedPublicKeys : SortedSet PublicKey := .empty

namespace Lmdb

/-! ## Storing and removing -/

def indexTag (id : EventId) (db : Lmdb) (tag : TagIndexKeySet) : Lmdb :=
  { db with
    atcIndex := db.atcIndex.put tag.atcIndex id
    ktcIndex := db.ktcIndex.put tag.ktcIndex id
    tcIndex := db.tcIndex.put tag.tcIndex id }

def indexEvent (db : Lmdb) (index : EventIndexKeys) : Lmdb :=
  index.tags.foldl (indexTag index.id) { db with
    ciIndex := db.ciIndex.put index.ciIndex index.id
    akcIndex := db.akcIndex.put index.akcIndex index.id
    acIndex := db.acIndex.put index.acIndex index.id
    kcIndex := db.kcIndex.put index.kcIndex index.id }

def store (db : Lmdb) (event : DatabaseEvent) : Lmdb :=
  indexEvent { db with events := db.events.put event.id event } (EventIndexKeys.new event)

def removeTag (db : Lmdb) (tag : TagIndexKeySet) : Lmdb :=
  { db with
    atcIndex := db.atcIndex.delete tag.atcIndex
    ktcIndex := db.ktcIndex.delete tag.ktcIndex
    tcIndex := db.tcIndex.delete tag.tcIndex }

def remove (db : Lmdb) (index : EventIndexKeys) : Lmdb :=
  index.tags.foldl removeTag { db with
    events := db.events.delete index.id
    ciIndex := db.ciIndex.delete index.ciIndex
    akcIndex := db.akcIndex.delete index.akcIndex
    acIndex := db.acIndex.delete index.acIndex
    kcIndex := db.kcIndex.delete index.kcIndex }

def removeAll (db : Lmdb) (indexes : List EventIndexKeys) : Lmdb := indexes.foldl remove db

def wipeIndexes (db : Lmdb) : Lmdb := { events := db.events }

def wipe (db : Lmdb) : Lmdb := wipeIndexes { db with events := .empty }

def reindex (db : Lmdb) : Lmdb :=
  (db.events.values.map EventIndexKeys.new).foldl indexEvent db.wipeIndexes

def getEventById (db : Lmdb) (eventId : EventId) : Option DatabaseEvent := db.events.get? eventId

def hasEvent (db : Lmdb) (eventId : EventId) : Bool := (db.getEventById eventId).isSome

/-! ## Range scans

Each scan runs from the newest key of its prefix to the oldest, over the
creation times between the two bounds. -/

def eventIdAllZeros : EventId := .replicate 32 0

def eventIdAll255 : EventId := .replicate 32 255

def iter (index : SortedTable Bytes EventId) (key : Timestamp → EventId → Bytes)
    (since until_ : Timestamp) : List EventId :=
  (index.range (key until_ eventIdAllZeros) (key since eventIdAll255)).map Prod.snd

def ciIter (db : Lmdb) (since until_ : Timestamp) : List EventId :=
  iter db.ciIndex makeCiIndexKey since until_

def tcIter (db : Lmdb) (tagName : SingleLetterTag) (tagValue : String)
    (since until_ : Timestamp) : List EventId :=
  iter db.tcIndex (makeTcIndexKey tagName tagValue) since until_

def acIter (db : Lmdb) (author : PublicKey) (since until_ : Timestamp) : List EventId :=
  iter db.acIndex (makeAcIndexKey author) since until_

def akcIter (db : Lmdb) (author : PublicKey) (kind : UInt16)
    (since until_ : Timestamp) : List EventId :=
  iter db.akcIndex (makeAkcIndexKey author kind) since until_

def kcIter (db : Lmdb) (kind : UInt16) (since until_ : Timestamp) : List EventId :=
  iter db.kcIndex (makeKcIndexKey kind) since until_

def atcIter (db : Lmdb) (author : PublicKey) (tagName : SingleLetterTag) (tagValue : String)
    (since until_ : Timestamp) : List EventId :=
  iter db.atcIndex (makeAtcIndexKey author tagName tagValue) since until_

def ktcIter (db : Lmdb) (kind : UInt16) (tagName : SingleLetterTag) (tagValue : String)
    (since until_ : Timestamp) : List EventId :=
  iter db.ktcIndex (makeKtcIndexKey kind tagName tagValue) since until_

/-! ## Queries -/

inductive QueryFilterPattern where
  | ids
  | authorsAndKinds
  | authorsAndTags
  | authorKindsAndTags
  | kindsAndTags
  | tags
  | authors
  | kinds
  | scraping
  deriving DecidableEq

def QueryFilterPattern.fromFilter (filter : DatabaseFilter) : QueryFilterPattern :=
  let ids := !filter.ids.isEmpty
  let authors := !filter.authors.isEmpty
  let kinds := !filter.kinds.isEmpty
  let genericTags := !filter.genericTags.entries.isEmpty
  if ids then .ids
  else if authors && kinds && genericTags then .authorKindsAndTags
  else if authors && kinds then .authorsAndKinds
  else if authors && genericTags then .authorsAndTags
  else if kinds && genericTags then .kindsAndTags
  else if genericTags then .tags
  else if authors then .authors
  else if kinds then .kinds
  else .scraping

/-- The events found so far, in the order of a `BTreeSet<DatabaseEvent>`. -/
abbrev Output := SortedTable (Timestampᵒᵈ ×ₗ EventId) DatabaseEvent

def Output.insert (output : Output) (event : DatabaseEvent) : Output :=
  output.putNew event.orderingKey event

/-- The two variables a query plan carries from scan to scan. -/
structure QueryState where
  since : Timestamp
  output : Output

/-- One scan: collects matches until the IDs run out, the lower bound is
passed, the limit is reached (which may raise the bound), or, when only one
match is wanted, after the first. -/
def scan (db : Lmdb) (filter : DatabaseFilter) (limit : Option Nat) (firstOnly : Bool) :
    List EventId → Nat → QueryState → Except StoreError QueryState
  | [], _, state => .ok state
  | id :: rest, count, state =>
      match db.getEventById id with
      | none => .error .notFound
      | some event =>
          if event.createdAt < state.since then .ok state
          else if filter.matchEvent event then
            let collected := { state with output := state.output.insert event }
            if limit.any (· ≤ count + 1) then
              .ok { collected with since :=
                if state.since < event.createdAt then event.createdAt else state.since }
            else if firstOnly then .ok collected
            else scan db filter limit firstOnly rest (count + 1) collected
          else scan db filter limit firstOnly rest count state

def iterateFilterUntilLimit (db : Lmdb) (filter : DatabaseFilter) (limit : Option Nat)
    (iter : List EventId) (state : QueryState) : Except StoreError QueryState :=
  db.scan filter limit false iter 0 state

def queryByIds (db : Lmdb) (filter : DatabaseFilter) (limit : Option Nat) :
    List EventId → Output → Output
  | [], output => output
  | id :: rest, output =>
      if limit.any (· ≤ output.len) then output
      else
        match db.getEventById id with
        | none => queryByIds db filter limit rest output
        | some event =>
            if filter.matchEvent event then
              queryByIds db filter limit rest (output.insert event)
            else queryByIds db filter limit rest output

/-- For replaceable kinds the scan of an author and kind ends at its first
match. -/
def queryByAuthorsAndKinds (db : Lmdb) (filter : DatabaseFilter) (until_ : Timestamp)
    (limit : Option Nat) (state : QueryState) : Except StoreError QueryState :=
  filter.authors.foldlM (fun state author =>
    filter.kinds.foldlM (fun state kind =>
      db.scan filter limit (Kind.fromU16 kind).isReplaceable
        (db.akcIter author kind state.since until_) 0 state) state) state

/-- `for (tag_name, set) in generic_tags { for tag_value in set { .. } }` -/
def forTagValues (filter : DatabaseFilter)
    (body : QueryState → SingleLetterTag → String → Except StoreError QueryState)
    (state : QueryState) : Except StoreError QueryState :=
  filter.genericTags.entries.foldlM (fun state (tagName, set) =>
    (SortedSet.elems set).foldlM (fun state tagValue => body state tagName tagValue) state) state

def queryByAuthorsAndTags (db : Lmdb) (filter : DatabaseFilter) (until_ : Timestamp)
    (limit : Option Nat) (state : QueryState) : Except StoreError QueryState :=
  filter.authors.foldlM (fun state author =>
    forTagValues filter (fun state tagName tagValue =>
      db.iterateFilterUntilLimit filter limit
        (db.atcIter author tagName tagValue state.since until_) state) state) state

/-- `BTreeSet<&[u8]>` of the scanned IDs. -/
def collectIds (ids : List EventId) : SortedSet EventId := ids.foldl SortedSet.insert .empty

/-- `BTreeSet::intersection`: in ID order, not in the order of the scans. -/
def intersection (left right : SortedSet EventId) : List EventId :=
  (SortedSet.elems left).filter fun id => (SortedSet.elems right).contains id

def queryByAuthorsKindsAndTags (db : Lmdb) (filter : DatabaseFilter) (until_ : Timestamp)
    (limit : Option Nat) (state : QueryState) : Except StoreError QueryState :=
  filter.authors.foldlM (fun state author =>
    filter.kinds.foldlM (fun state kind =>
      let akcSet := collectIds (db.akcIter author kind state.since until_)
      forTagValues filter (fun state tagName tagValue =>
        let atcSet := collectIds (db.atcIter author tagName tagValue state.since until_)
        db.iterateFilterUntilLimit filter limit (intersection atcSet akcSet) state)
        state) state) state

def queryByKindsAndTags (db : Lmdb) (filter : DatabaseFilter) (until_ : Timestamp)
    (limit : Option Nat) (state : QueryState) : Except StoreError QueryState :=
  filter.kinds.foldlM (fun state kind =>
    forTagValues filter (fun state tagName tagValue =>
      db.iterateFilterUntilLimit filter limit
        (db.ktcIter kind tagName tagValue state.since until_) state) state) state

def queryByTags (db : Lmdb) (filter : DatabaseFilter) (until_ : Timestamp)
    (limit : Option Nat) (state : QueryState) : Except StoreError QueryState :=
  forTagValues filter (fun state tagName tagValue =>
    db.iterateFilterUntilLimit filter limit
      (db.tcIter tagName tagValue state.since until_) state) state

def queryByAuthors (db : Lmdb) (filter : DatabaseFilter) (until_ : Timestamp)
    (limit : Option Nat) (state : QueryState) : Except StoreError QueryState :=
  filter.authors.foldlM (fun state author =>
    db.iterateFilterUntilLimit filter limit (db.acIter author state.since until_) state) state

def queryByKinds (db : Lmdb) (filter : DatabaseFilter) (until_ : Timestamp)
    (limit : Option Nat) (state : QueryState) : Except StoreError QueryState :=
  filter.kinds.foldlM (fun state kind =>
    db.iterateFilterUntilLimit filter limit (db.kcIter kind state.since until_) state) state

/-- `Iterator::take`, where no limit is `usize::MAX`, more than a table can
hold. -/
def takeLimit {α : Type} (limit : Option Nat) (items : List α) : List α :=
  match limit with
  | some limit => items.take limit
  | none => items

def queryByScraping (db : Lmdb) (filter : DatabaseFilter) (since until_ : Timestamp)
    (limit : Option Nat) : List DatabaseEvent :=
  takeLimit limit
    (((db.ciIter since until_).filterMap db.getEventById).filter filter.matchEvent)

def sinceAfterUntil (filter : Filter) : Bool :=
  match filter.since, filter.until_ with
  | some since, some until_ => decide (until_ < since)
  | _, _ => false

def query (db : Lmdb) (order : HashOrder) (filter : Filter) :
    Except StoreError (List DatabaseEvent) :=
  if sinceAfterUntil filter then .ok []
  else
    let limit := filter.limit
    let since := filter.since.getD .min
    let until_ := filter.until_.getD .max
    let filter := DatabaseFilter.ofFilter order filter
    let start : QueryState := { since, output := .empty }
    let finish (state : QueryState) := takeLimit limit state.output.values
    match QueryFilterPattern.fromFilter filter with
    | .ids => .ok (takeLimit limit (db.queryByIds filter limit filter.ids .empty).values)
    | .authorsAndKinds => (db.queryByAuthorsAndKinds filter until_ limit start).map finish
    | .authorsAndTags => (db.queryByAuthorsAndTags filter until_ limit start).map finish
    | .authorKindsAndTags => (db.queryByAuthorsKindsAndTags filter until_ limit start).map finish
    | .kindsAndTags => (db.queryByKindsAndTags filter until_ limit start).map finish
    | .tags => (db.queryByTags filter until_ limit start).map finish
    | .authors => (db.queryByAuthors filter until_ limit start).map finish
    | .kinds => (db.queryByKinds filter until_ limit start).map finish
    | .scraping => .ok (db.queryByScraping filter since until_ limit)

def canFastCount (filter : Filter) : Bool :=
  filter.ids.isNone && filter.authors.isNone && filter.kinds.isNone && filter.search.isNone &&
    filter.genericTags.entries.isEmpty

def count (db : Lmdb) (order : HashOrder) (filter : Filter) : Except StoreError Nat :=
  if !canFastCount filter then (db.query order filter).map List.length
  -- Of the other fields, only the limit is left to differ from an empty filter.
  else if filter.since.isNone && filter.until_.isNone then
    .ok (match filter.limit with
      | some limit => min db.ciIndex.len limit
      | none => db.ciIndex.len)
  else
    .ok (takeLimit filter.limit
      (db.ciIter (filter.since.getD .min) (filter.until_.getD .max))).length

/-! ## Transactions -/

/-- A computation inside a write transaction. -/
abbrev Txn (α : Type) := Transaction StoreError Lmdb α

def delete (order : HashOrder) (filter : Filter) : Txn Unit := do
  let events ← Transaction.read fun db => db.query order filter
  modify fun db => db.removeAll (events.map EventIndexKeys.new)

def findReplaceableEvent (db : Lmdb) (author : PublicKey) (kind : Kind) :
    Except StoreError (Option DatabaseEvent) :=
  if !kind.isReplaceable then .error .wrongEventKind
  else
    match db.akcIter author kind.asU16 .min .max with
    | id :: _ => .ok (db.getEventById id)
    | [] => .ok none

/-- The author and tag index does not hold the kind, so the kinds are compared
event by event. -/
def firstOfKind (db : Lmdb) (kind : UInt16) :
    List EventId → Except StoreError (Option DatabaseEvent)
  | [] => .ok none
  | id :: rest =>
      match db.getEventById id with
      | none => .error .notFound
      | some event => if event.kind ≠ kind then firstOfKind db kind rest else .ok (some event)

def findAddressableEvent (db : Lmdb) (addr : Coordinate) :
    Except StoreError (Option DatabaseEvent) :=
  if !addr.kind.isAddressable then .error .wrongEventKind
  else
    db.firstOfKind addr.kind.asU16
      (db.atcIter addr.publicKey .lowercaseD addr.identifier .min .max)

def removeReplaceable (coordinate : Coordinate) (until_ : Timestamp) : Txn Unit := do
  if !coordinate.kind.isReplaceable then throw .wrongEventKind
  modify fun db =>
    db.removeAll
      (((db.akcIter coordinate.publicKey coordinate.kind.asU16 .min until_).filterMap
        db.getEventById).map EventIndexKeys.new)

def removeAddressable (coordinate : Coordinate) (until_ : Timestamp) : Txn Unit := do
  if !coordinate.kind.isAddressable then throw .wrongEventKind
  modify fun db =>
    db.removeAll
      ((((db.atcIter coordinate.publicKey .lowercaseD coordinate.identifier .min until_).filterMap
        db.getEventById).filter fun event => event.kind = coordinate.kind.asU16).map
        EventIndexKeys.new)

def isDeleted (db : Lmdb) (eventId : EventId) : Bool := (db.deletedIds.get? eventId).isSome

def markDeleted (eventId : EventId) (db : Lmdb) : Lmdb :=
  { db with deletedIds := db.deletedIds.insert eventId }

def isDeletedByAuthor (db : Lmdb) (eventId : EventId) (author : PublicKey) : Bool :=
  (db.deletedIdsByAuthor.get? (makeAuthorDeletionKey eventId author)).isSome

def markDeletedByAuthor (eventId : EventId) (author : PublicKey) (db : Lmdb) : Lmdb :=
  { db with deletedIdsByAuthor :=
      db.deletedIdsByAuthor.insert (makeAuthorDeletionKey eventId author) }

def maxKeySize : Nat := 511

def markCoordinateDeleted (coordinate : Coordinate) (when : Timestamp) : Txn Unit := do
  let key := makeCoordinateIndexKey coordinate
  if maxKeySize < key.length then throw .badValSize
  modify fun db => { db with deletedCoordinates := db.deletedCoordinates.put key when }

def whenIsCoordinateDeleted (db : Lmdb) (coordinate : Coordinate) : Option Timestamp :=
  db.deletedCoordinates.get? (makeCoordinateIndexKey coordinate)

def markPubkeyVanished (pk : PublicKey) (db : Lmdb) : Lmdb :=
  { db with vanishedPublicKeys := db.vanishedPublicKeys.insert pk }

def isPubkeyVanished (db : Lmdb) (pk : PublicKey) : Bool :=
  (db.vanishedPublicKeys.get? pk).isSome

def handleRequestToVanish (externals : Externals) (order : HashOrder) (pubkey : PublicKey) :
    Txn Unit := do
  modify (markPubkeyVanished pubkey)
  delete order (Filter.new.author pubkey)
  delete order ((Filter.new.kind .giftWrap).pubkey externals pubkey)

/-- The known targets with their index keys and the unknown IDs, or nothing if
a known target has another author. -/
def collectTargets (db : Lmdb) (author : PublicKey) :
    List EventId → Option (List (EventId × EventIndexKeys) × List EventId)
  | [] => some ([], [])
  | id :: rest =>
      match db.getEventById id with
      | some target =>
          if target.pubkey ≠ author then none
          else
            (collectTargets db author rest).map fun (known, unknown) =>
              ((id, EventIndexKeys.new target) :: known, unknown)
      | none => (collectTargets db author rest).map fun (known, unknown) => (known, id :: unknown)

def deleteCoordinate (createdAt : Timestamp) (coordinate : Coordinate) : Txn Unit := do
  markCoordinateDeleted coordinate createdAt
  if coordinate.kind.isReplaceable then removeReplaceable coordinate createdAt
  else if coordinate.kind.isAddressable then removeAddressable coordinate createdAt

/-- Whether the deletion request is invalid; a valid one takes effect. -/
def handleDeletionEvent (externals : Externals) (event : Event) : Txn Bool := do
  let coordinates := Tags.coordinates externals event.tags
  if coordinates.any fun coordinate => coordinate.publicKey ≠ event.pubkey then return true
  match (← get).collectTargets event.pubkey (Tags.eventIds externals event.tags) with
  | none => return true
  | some (deletionsToProcess, unknownIds) =>
      modify fun db => unknownIds.foldl (fun db id => db.markDeletedByAuthor id event.pubkey) db
      modify fun db =>
        deletionsToProcess.foldl (fun db (id, info) => (db.markDeleted id).remove info) db
      coordinates.forM (deleteCoordinate event.createdAt)
      return false

def hasEventBeenReplaced (stored : DatabaseEvent) (event : Event) : Bool :=
  if event.createdAt < stored.createdAt then true
  else if stored.createdAt = event.createdAt then decide (stored.id < event.id)
  else false

/-- Removes the version of a replaceable event that the new one replaces;
`true` means that the stored version stays. -/
def replaceReplaceable (event : Event) : Txn Bool := do
  if event.kind.isReplaceable then
    match ← Transaction.read fun db => db.findReplaceableEvent event.pubkey event.kind with
    | none => return false
    | some stored =>
        if hasEventBeenReplaced stored event then return true
        removeReplaceable { kind := event.kind, publicKey := event.pubkey, identifier := "" }
          event.createdAt
        return false
  else return false

/-- The same for an addressable event, which must have a `d` tag with a value
to replace anything. -/
def replaceAddressable (event : Event) : Txn Bool := do
  if event.kind.isAddressable then
    match Tags.identifier event.tags with
    | none => return false
    | some identifier =>
        let coordinate := { kind := event.kind, publicKey := event.pubkey, identifier }
        match ← Transaction.read fun db => db.findAddressableEvent coordinate with
        | none => return false
        | some stored =>
            if hasEventBeenReplaced stored event then return true
            removeAddressable coordinate .max
            return false
  else return false

/-- Whether the coordinate of the event was deleted at or after its creation. -/
def isCoordinateDeleted (db : Lmdb) (event : Event) : Bool :=
  match event.coordinate with
  | none => false
  | some coordinate =>
      match db.whenIsCoordinateDeleted coordinate with
      | none => false
      | some time => event.createdAt ≤ time

def saveEventWithTxn (externals : Externals) (options : LmdbOptions) (order : HashOrder)
    (event : Event) : Txn SaveEventStatus := do
  if event.kind.isEphemeral then return .rejected .ephemeral
  if (← get).hasEvent event.id then return .rejected .duplicate
  if (← get).isDeleted event.id then return .rejected .deleted
  if options.processNip09 && event.kind != .eventDeletion &&
      (← get).isDeletedByAuthor event.id event.pubkey then
    modify (markDeleted event.id)
    return .rejected .deleted
  if (← get).isPubkeyVanished event.pubkey then return .rejected .vanished
  if (← get).isCoordinateDeleted event then return .rejected .deleted
  if ← replaceReplaceable event then return .rejected .replaced
  if ← replaceAddressable event then return .rejected .replaced
  if options.processNip09 && event.kind == .eventDeletion then
    if ← handleDeletionEvent externals event then return .rejected .invalidDelete
  if options.processNip62 && event.kind == .requestToVanish &&
      Nip62.isValidVanishRequestForRelay externals event.tags options.relayUrl then
    handleRequestToVanish externals order event.pubkey
  modify fun db => db.store (.ofEvent event)
  return .success

/-! ## Operations

What the ingester runs, one operation after the other
(`nostr-lmdb/src/store/ingester.rs`). -/

inductive IngesterOperation where
  | reindex
  | saveEvent (event : Event)
  | delete (filter : Filter)
  | wipe

inductive OperationResult where
  | save (status : SaveEventStatus)
  | done
  deriving DecidableEq

def processOperation (externals : Externals) (options : LmdbOptions) (order : HashOrder) :
    IngesterOperation → Txn OperationResult
  | .reindex => do modify Lmdb.reindex; return .done
  | .saveEvent event => do return .save (← saveEventWithTxn externals options order event)
  | .delete filter => do delete order filter; return .done
  | .wipe => do modify Lmdb.wipe; return .done

/-- The state after a sequence of operations on the empty store, each with its
own iteration order for hash sets. An operation that fails leaves its partial
changes; a transaction aborted there is the sequence without it. -/
def run (externals : Externals) (options : LmdbOptions)
    (operations : List (HashOrder × IngesterOperation)) : Lmdb :=
  operations.foldl
    (fun db (order, operation) => ((processOperation externals options order operation).run db).2)
    {}

end Lmdb

end RustNostr.NostrLmdb
