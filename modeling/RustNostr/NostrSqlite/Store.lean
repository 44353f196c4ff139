import Mathlib
import RustNostr.Library.RowOrder
import RustNostr.Nostr.Database
import RustNostr.Nostr.EventSet
import RustNostr.Nostr.Filter

/-!
# The SQLite store

The tables of the migrations and the statements of `NostrSqlite`
(`nostr-sqlite/src/store.rs`, `model.rs`). A statement is given by what it
selects, inserts or deletes; what SQL leaves to the engine is a parameter.
-/

set_option autoImplicit false

namespace RustNostr.NostrSqlite

open Library

/-- `as i64` of a `u64` or, on targets of 64 bits, a `usize`. -/
def asI64 (number : UInt64) : Int :=
  if number.toNat < 2 ^ 63 then number.toNat else number.toNat - 2 ^ 64

/-- A row of `events`. The tags stand for their JSON text. -/
structure EventDb where
  id : EventId
  pubkey : PublicKey
  createdAt : Int
  kind : Int
  content : String
  tags : List Tag
  sig : Signature
  deriving DecidableEq

def EventDb.toEvent (row : EventDb) : Option Event :=
  if 0 ≤ row.createdAt ∧ 0 ≤ row.kind ∧ row.kind < 65536 then
    some {
      id := row.id
      pubkey := row.pubkey
      createdAt := UInt64.ofNat row.createdAt.toNat
      kind := Kind.fromU16 (UInt16.ofNat row.kind.toNat)
      tags := row.tags
      content := row.content
      sig := row.sig }
  else none

/-- The primary key of `event_tags`: name, value and event. -/
abbrev TagKey := SingleLetterTag ×ₗ String ×ₗ EventId

def tagKey (name : SingleLetterTag) (value : String) (id : EventId) : TagKey :=
  toLex (name, toLex (value, id))

def TagKey.eventId (key : TagKey) : EventId := (ofLex (ofLex key).2).2

/-- The primary key of `deleted_coordinates`. -/
abbrev CoordinateKey := PublicKey ×ₗ Int ×ₗ String

def coordinateKey (coordinate : Coordinate) : CoordinateKey :=
  toLex (coordinate.publicKey, toLex (coordinate.kind.asU16.toNat, coordinate.identifier))

def extractTags (tags : List Tag) : List (SingleLetterTag × String) :=
  tags.filterMap fun tag =>
    tag.singleLetterTag.bind fun kind => tag.content.map fun content => (kind, content)

/-- As `NostrSqliteBuilder` sets them by default. -/
structure NostrSqliteOptions where
  processNip62 : Bool := true
  processNip09 : Bool := true
  relayUrl : Option RelayUrl := none

structure Database where
  events : SortedTable EventId EventDb := .empty
  eventTags : SortedSet TagKey := .empty
  deletedIds : SortedSet EventId := .empty
  deletedCoordinates : SortedTable CoordinateKey Int := .empty
  vanishedPublicKeys : SortedSet PublicKey := .empty

/-- What SQL leaves open: the order of rows created at one time, the row that
`LIMIT 1` without an order yields, and what the search condition of a text, of
`LOWER`, `INSTR` and the JSON functions, says of a row. -/
structure Engine where
  order : Arrangement fun row : EventDb => OrderDual.toDual row.createdAt
  first : List EventDb → Option EventDb
  first_mem : ∀ rows row, first rows = some row → row ∈ rows
  first_none : ∀ rows, first rows = none → rows = []
  searches : String → EventDb → Bool

/-- Takes rows as they stand, and finds no text. -/
def Engine.plain : Engine where
  order := .stable _
  first := List.head?
  first_mem _ _ found := List.mem_of_mem_head? found
  first_none _ absent := List.head?_eq_none_iff.mp absent
  searches _ _ := false

namespace Database

variable (db : Database)

/-- `DELETE FROM events WHERE ..`, which cascades to the tags. -/
def deleteEvents (gone : EventDb → Bool) : Database :=
  { db with
    events := db.events.filter fun _ row => !gone row
    eventTags := db.eventTags.filter fun key _ => !(db.events.get? (TagKey.eventId key)).any gone }

/-- The event has a tag of this name and value. -/
def hasTag (name : SingleLetterTag) (value : String) (row : EventDb) : Bool :=
  (db.eventTags.get? (tagKey name value row.id)).isSome

/-! ## Saving -/

def hasEvent (id : EventId) : Bool := (db.events.get? id).isSome

def eventIsDeleted (id : EventId) : Bool := (db.deletedIds.get? id).isSome

def pubkeyIsVanished (pubkey : PublicKey) : Bool := (db.vanishedPublicKeys.get? pubkey).isSome

def whenIsCoordinateDeleted (coordinate : Coordinate) : Option Timestamp :=
  (db.deletedCoordinates.get? (coordinateKey coordinate)).map fun deletedAt =>
    UInt64.ofNat deletedAt.toNat

def isCoordinateDeleted (event : Event) : Bool :=
  (event.coordinate.bind db.whenIsCoordinateDeleted).any fun time => event.createdAt ≤ time

def markEventAsDeleted (id : EventId) : Database :=
  { db with deletedIds := db.deletedIds.insert id }

/-- `INSERT OR IGNORE` with `CHECK(deleted_at > 0)` -/
def markCoordinateDeleted (coordinate : Coordinate) (deletedAt : Timestamp) : Database :=
  if 0 < asI64 deletedAt then
    { db with
      deletedCoordinates :=
        db.deletedCoordinates.putNew (coordinateKey coordinate) (asI64 deletedAt) }
  else db

def markPubkeyAsVanished (pubkey : PublicKey) : Database :=
  { db with vanishedPublicKeys := db.vanishedPublicKeys.insert pubkey }

def handleRequestToVanish (externals : Externals) (pubkey : PublicKey) : Database :=
  let db := (db.markPubkeyAsVanished pubkey).deleteEvents fun row => row.pubkey = pubkey
  db.deleteEvents fun row =>
    row.kind = 1059 && db.hasTag .lowercaseP (externals.hexEncode pubkey.val) row

def removeEvent (id : EventId) : Database := db.deleteEvents fun row => row.id = id

def removeReplaceable (coordinate : Coordinate) (until_ : Timestamp) : Database :=
  db.deleteEvents fun row => row.pubkey = coordinate.publicKey &&
    row.kind = coordinate.kind.asU16.toNat && row.createdAt ≤ asI64 until_

def removeAddressable (coordinate : Coordinate) (until_ : Timestamp) : Database :=
  db.deleteEvents fun row => row.pubkey = coordinate.publicKey &&
    row.kind = coordinate.kind.asU16.toNat && db.hasTag .lowercaseD coordinate.identifier row &&
    row.createdAt ≤ asI64 until_

/-- The loop over the `e` tags; `none` is an invalid request. -/
def deleteTargets (event : Event) (db : Database) : List EventId → Option Database
  | [] => some db
  | id :: rest =>
      match db.events.get? id with
      | none => deleteTargets event db rest
      | some target =>
          if target.pubkey ≠ event.pubkey then none
          else deleteTargets event ((db.markEventAsDeleted id).removeEvent id) rest

/-- The body of the loop over the `a` tags. -/
def deleteCoordinate (event : Event) (coordinate : Coordinate) : Database :=
  let db := db.markCoordinateDeleted coordinate event.createdAt
  if coordinate.kind.isReplaceable then db.removeReplaceable coordinate event.createdAt
  else if coordinate.kind.isAddressable then db.removeAddressable coordinate event.createdAt
  else db

def deleteCoordinates (event : Event) (db : Database) : List Coordinate → Option Database
  | [] => some db
  | coordinate :: rest =>
      if coordinate.publicKey ≠ event.pubkey then none
      else deleteCoordinates event (db.deleteCoordinate event coordinate) rest

def handleDeletionEvent (externals : Externals) (event : Event) : Option Database :=
  (deleteTargets event db (Tags.eventIds externals event.tags)).bind fun db =>
    deleteCoordinates event db (Tags.coordinates externals event.tags)

def hasEventBeenReplaced (stored : EventDb) (event : Event) : Bool :=
  if asI64 event.createdAt < stored.createdAt then true
  else if stored.createdAt = asI64 event.createdAt then stored.id < event.id
  else false

/-- Makes way for the event among these rows; `none` if it loses to the one found. -/
def replaceFirst (engine : Engine) (event : Event) (rows : List EventDb) : Option Database :=
  match engine.first rows with
  | none => some db
  | some stored => if hasEventBeenReplaced stored event then none else some (db.removeEvent stored.id)

def replaceReplaceable (engine : Engine) (event : Event) : Option Database :=
  if event.kind.isReplaceable then
    db.replaceFirst engine event (db.events.values.filter fun row =>
      row.pubkey = event.pubkey && row.kind = event.kind.asU16.toNat)
  else some db

def replaceAddressable (engine : Engine) (event : Event) : Option Database :=
  if event.kind.isAddressable then
    match Tags.identifier event.tags with
    | some identifier =>
        db.replaceFirst engine event (db.events.values.filter fun row =>
          row.pubkey = event.pubkey && row.kind = event.kind.asU16.toNat &&
            db.hasTag .lowercaseD identifier row)
    | none => some db
  else some db

def rowOf (event : Event) : EventDb where
  id := event.id
  pubkey := event.pubkey
  createdAt := asI64 event.createdAt
  kind := event.kind.asU16.toNat
  content := event.content
  tags := event.tags
  sig := event.sig

/-- `INSERT OR IGNORE` with `CHECK(created_at > 0)`; `none` if nothing was inserted. -/
def insertEventTx (event : Event) : Option Database :=
  if 0 < asI64 event.createdAt ∧ !db.hasEvent event.id then
    some { db with events := db.events.put event.id (rowOf event) }
  else none

def insertTags (event : Event) : Database :=
  { db with
    eventTags := (extractTags event.tags).foldl
      (fun tags (name, value) => tags.insert (tagKey name value event.id)) db.eventTags }

/-- The checks at the start of `save_event_sync`. -/
def refusal (event : Event) : Option RejectedReason :=
  if event.kind.isEphemeral then some .ephemeral
  else if db.hasEvent event.id then some .duplicate
  else if db.eventIsDeleted event.id then some .deleted
  else if db.pubkeyIsVanished event.pubkey then some .vanished
  else if db.isCoordinateDeleted event then some .deleted
  else none

def isVanishRequest (externals : Externals) (options : NostrSqliteOptions) (event : Event) : Bool :=
  options.processNip62 && event.kind == .requestToVanish &&
    Nip62.isValidVanishRequestForRelay externals event.tags options.relayUrl

/-- The transaction after these checks; an error is a rejection. -/
def saveTransaction (externals : Externals) (options : NostrSqliteOptions) (engine : Engine)
    (event : Event) : Except RejectedReason Database := do
  let db ← (db.replaceReplaceable engine event).elim (throw .replaced) pure
  let db ← (db.replaceAddressable engine event).elim (throw .replaced) pure
  let db ←
    if options.processNip09 && event.kind == .eventDeletion then
      (db.handleDeletionEvent externals event).elim (throw .invalidDelete) pure
    else pure db
  let db :=
    if isVanishRequest externals options event then db.handleRequestToVanish externals event.pubkey
    else db
  (db.insertEventTx event).elim (throw .duplicate) fun db => pure (db.insertTags event)

/-- A transaction that ends in a rejection is rolled back. -/
def saveEventSync (externals : Externals) (options : NostrSqliteOptions) (engine : Engine)
    (event : Event) : SaveEventStatus × Database :=
  match db.refusal event with
  | some reason => (.rejected reason, db)
  | none =>
      match db.saveTransaction externals options engine event with
      | .ok db => (.success, db)
      | .error reason => (.rejected reason, db)

end Database

/-! ## Filters -/

/-- A condition of the `WHERE` clause. -/
inductive Condition where
  | idIn (ids : List EventId)
  | pubkeyIn (authors : List PublicKey)
  | kindIn (kinds : List Int)
  | createdAtFrom (time : Int)
  | createdAtUpTo (time : Int)
  | never
  | search (text : String)
  | tagIn (name : SingleLetterTag) (values : List String)

inductive SqlSelectClause where
  | select
  | count
  | delete
  deriving DecidableEq

structure FilterQuery where
  joinTags : Bool
  conditions : List Condition
  limit : Option Int

/-- `IN` over the elements of a set, unless there are none. -/
def inCondition {α : Type} [LinearOrder α] (set : Option (SortedSet α))
    (condition : List α → Condition) : List Condition :=
  match set with
  | some set => if set.isEmpty then [] else [condition set.elems]
  | none => []

def filterConditions (filter : Filter) : List Condition :=
  inCondition filter.ids .idIn ++ inCondition filter.authors .pubkeyIn ++
    inCondition filter.kinds (fun kinds => .kindIn (kinds.map fun kind => (kind.toNat : Int))) ++
    (filter.since.map fun since => Condition.createdAtFrom (asI64 since)).toList ++
    (filter.until_.map fun until_ => Condition.createdAtUpTo (asI64 until_)).toList ++
    (filter.search.map fun search => if search = "" then Condition.never else .search search).toList ++
    filter.genericTags.entries.flatMap fun (tag, values) => inCondition (some values) (.tagIn tag)

/-- `filter.is_empty()` -/
def filterIsEmpty (filter : Filter) : Bool :=
  filter.ids.isNone && filter.authors.isNone && filter.kinds.isNone && filter.search.isNone &&
    filter.since.isNone && filter.until_.isNone && filter.limit.isNone &&
    filter.genericTags.entries.isEmpty

/-- Only the clauses that select are limited. -/
def buildFilter (filter : Filter) (clause : SqlSelectClause) : FilterQuery :=
  let limit := filter.limit.bind fun limit =>
    if clause = .delete then none else some (asI64 (UInt64.ofNat limit))
  if filterIsEmpty filter then { joinTags := false, conditions := [], limit }
  else
    { joinTags := !filter.genericTags.entries.isEmpty
      conditions := filterConditions filter
      limit }

def eventsQueryLimit : Nat := 10000

def withLimit (filter : Filter) (defaultLimit : Nat) : Filter :=
  match filter.limit with
  | some _ => filter
  | none => { filter with limit := some defaultLimit }

namespace Database

variable (db : Database) (engine : Engine)

def holds (row : EventDb) : Condition → Bool
  | .idIn ids => ids.contains row.id
  | .pubkeyIn authors => authors.contains row.pubkey
  | .kindIn kinds => kinds.contains row.kind
  | .createdAtFrom time => time ≤ row.createdAt
  | .createdAtUpTo time => row.createdAt ≤ time
  | .never => false
  | .search text => engine.searches text row
  | .tagIn name values => values.any fun value => db.hasTag name value row

/-- `FROM events e`, with `INNER JOIN event_tags et ON e.id = et.event_id` or without. -/
def fromEvents (joinTags : Bool) : List EventDb :=
  if joinTags then
    db.events.values.flatMap fun row =>
      (db.eventTags.elems.filter fun key => TagKey.eventId key = row.id).map fun _ => row
  else db.events.values

/-- `SELECT DISTINCT e.*` -/
def selected (query : FilterQuery) : List EventDb :=
  ((db.fromEvents query.joinTags).filter fun row =>
    query.conditions.all (db.holds engine row)).dedup

/-- `ORDER BY e.created_at DESC` and `LIMIT` -/
def limited (query : FilterQuery) (rows : List EventDb) : List EventDb :=
  match query.limit with
  | some limit => limitRows limit (engine.order.arrange rows)
  | none => engine.order.arrange rows

def query (filter : Filter) : List Event :=
  let query := buildFilter (withLimit filter eventsQueryLimit) .select
  (EventSet.collect
    ((limited engine query (db.selected engine query)).filterMap EventDb.toEvent)).values

/-- The one row of the count is subject to the limit; without a row the call
fails. -/
def count (filter : Filter) : Option Nat :=
  let query := buildFilter (withLimit filter eventsQueryLimit) .count
  if query.limit = some 0 then none else some (db.selected engine query).length

def delete (filter : Filter) : Database :=
  let gone := db.selected engine (buildFilter filter .delete)
  db.deleteEvents fun row => (gone.map EventDb.id).contains row.id

/-- The table of vanished public keys is not among those emptied. -/
def wipe : Database :=
  { db with
    events := .empty
    eventTags := .empty
    deletedIds := .empty
    deletedCoordinates := .empty }

end Database

end RustNostr.NostrSqlite
