import Mathlib
import RustNostr.NostrLmdb.Coordinates

/-!
# Deletion requests

What an accepted deletion request does: it removes the stored events that it
names by ID and those that the scans for its coordinates reach, and leaves
tombstones for the IDs, also the unknown ones, and for the coordinates.
-/

set_option autoImplicit false

namespace RustNostr.NostrLmdb.Lmdb

open Library Transaction

/-! ## What a request reaches -/

/-- Removing the events of the coordinate reaches this one. -/
def Reaches (coordinate : Coordinate) (event : DatabaseEvent) : Prop :=
  (coordinate.kind.isReplaceable = true ∧
    Version coordinate.publicKey coordinate.kind.asU16 event) ∨
  (coordinate.kind.isAddressable = true ∧
    Rival coordinate.publicKey coordinate.kind.asU16 coordinate.identifier event)

/-- A coordinate of the request reaches the event, which is not newer. -/
def ReachedBy (externals : Externals) (request : Event) (event : DatabaseEvent) : Prop :=
  ∃ coordinate ∈ Tags.coordinates externals request.tags,
    Reaches coordinate event ∧ event.createdAt ≤ request.createdAt

def DeletedBy (externals : Externals) (request : Event) (event : DatabaseEvent) : Prop :=
  event.id ∈ Tags.eventIds externals request.tags ∨ ReachedBy externals request event

/-- From one coherent store to another without these events, whatever becomes of
the tombstones. -/
structure Loses (gone : DatabaseEvent → Prop) (before after : Lmdb) : Prop where
  coherent : after.Coherent
  stored : ∀ event, after.Stored event ↔ before.Stored event ∧ ¬ gone event

theorem Loses.trans {gone gone' : DatabaseEvent → Prop} {first second third : Lmdb}
    (left : Loses gone first second) (right : Loses gone' second third) :
    Loses (fun event => gone event ∨ gone' event) first third where
  coherent := right.coherent
  stored event := by
    rw [right.stored, left.stored]
    tauto

theorem Loses.fewer {gone : DatabaseEvent → Prop} {before after : Lmdb}
    (loses : Loses gone before after) (event : DatabaseEvent) (stored : after.Stored event) :
    before.Stored event :=
  ((loses.stored event).mp stored).1

theorem Loses.absent {gone : DatabaseEvent → Prop} {before after : Lmdb}
    (loses : Loses gone before after) {id : EventId} (unknown : before.events.get? id = none) :
    after.events.get? id = none :=
  absent_of_fewer loses.coherent loses.fewer unknown

/-- The times remembered for these coordinates become this one. -/
def rememberAll (createdAt : Timestamp) (coordinates : List Coordinate)
    (table : SortedTable Bytes Timestamp) : SortedTable Bytes Timestamp :=
  coordinates.foldl (fun table coordinate => table.put (makeCoordinateIndexKey coordinate) createdAt)
    table

/-- What an accepted deletion request does. -/
structure Deletes (externals : Externals) (request : Event) (before after : Lmdb) : Prop where
  owned : ∀ coordinate ∈ Tags.coordinates externals request.tags,
    coordinate.publicKey = request.pubkey
  targetsOwned : ∀ event, before.Stored event → event.id ∈ Tags.eventIds externals request.tags →
    event.pubkey = request.pubkey
  loses : Loses (DeletedBy externals request) before after
  deleted : ∀ id, after.isDeleted id = true ↔ before.isDeleted id = true ∨
    id ∈ Tags.eventIds externals request.tags ∧ before.hasEvent id = true
  deletedByAuthor : ∀ id ∈ Tags.eventIds externals request.tags, before.hasEvent id = false →
    after.isDeletedByAuthor id request.pubkey = true
  coordinates : after.deletedCoordinates = rememberAll request.createdAt
    (Tags.coordinates externals request.tags) before.deletedCoordinates
  vanished : after.vanishedPublicKeys = before.vanishedPublicKeys

/-! ## The unknown targets -/

/-- The store with author tombstones for these IDs. -/
def markUnknown (author : PublicKey) (ids : List EventId) (db : Lmdb) : Lmdb :=
  ids.foldl (fun db id => db.markDeletedByAuthor id author) db

theorem markUnknown_eq (author : PublicKey) (ids : List EventId) (db : Lmdb) :
    ∃ table, db.markUnknown author ids = { db with deletedIdsByAuthor := table } := by
  induction ids generalizing db with
  | nil => exact ⟨db.deletedIdsByAuthor, rfl⟩
  | cons id ids ih =>
      obtain ⟨table, same⟩ := ih (db.markDeletedByAuthor id author)
      exact ⟨table, same⟩

theorem isDeletedByAuthor_markUnknown {author : PublicKey} {ids : List EventId} {db : Lmdb}
    {id : EventId} (marked : id ∈ ids ∨ db.isDeletedByAuthor id author = true) :
    (db.markUnknown author ids).isDeletedByAuthor id author = true := by
  induction ids generalizing db with
  | nil =>
      rcases marked with member | already
      · cases member
      · exact already
  | cons first ids ih =>
      apply @ih (db.markDeletedByAuthor first author)
      rw [isDeletedByAuthor_markDeletedByAuthor]
      rcases marked with member | already
      · rcases List.mem_cons.mp member with same | later
        · rw [same]
          simp
        · exact .inl later
      · simp [already]

/-! ## The known targets -/

/-- The store after these events are marked as deleted and removed. -/
def deleteTargets (events : List DatabaseEvent) (db : Lmdb) : Lmdb :=
  events.foldl (fun db event => (db.markDeleted event.id).remove (EventIndexKeys.new event)) db

theorem deleteTargets_stored {events : List DatabaseEvent} {db : Lmdb} {event : DatabaseEvent} :
    (db.deleteTargets events).Stored event ↔
      db.Stored event ∧ ∀ target ∈ events, event.id ≠ target.id := by
  induction events generalizing db with
  | nil => simp [deleteTargets]
  | cons target events ih =>
      rw [deleteTargets, List.foldl_cons]
      apply ih.trans
      rw [stored_remove, List.forall_mem_cons, and_assoc]
      rfl

theorem deleteTargets_isDeleted {events : List DatabaseEvent} {db : Lmdb} {id : EventId} :
    (db.deleteTargets events).isDeleted id = true ↔
      db.isDeleted id = true ∨ ∃ target ∈ events, target.id = id := by
  induction events generalizing db with
  | nil => simp [deleteTargets]
  | cons target events ih =>
      rw [deleteTargets, List.foldl_cons]
      apply ih.trans
      rw [(remove_sameTombstones _ target).isDeleted, isDeleted_markDeleted]
      simp only [Bool.or_eq_true, decide_eq_true_eq, List.mem_cons, exists_eq_or_imp]
      constructor
      · intro held
        rcases held with (same | before) | later
        · exact .inr (.inl same.symm)
        · exact .inl before
        · exact .inr (.inr later)
      · intro held
        rcases held with before | same | later
        · exact .inl (.inr before)
        · exact .inl (.inl same.symm)
        · exact .inr later

/-- The other tombstone tables are as they were. -/
theorem deleteTargets_others (events : List DatabaseEvent) (db : Lmdb) :
    (db.deleteTargets events).deletedIdsByAuthor = db.deletedIdsByAuthor ∧
      (db.deleteTargets events).deletedCoordinates = db.deletedCoordinates ∧
      (db.deleteTargets events).vanishedPublicKeys = db.vanishedPublicKeys := by
  induction events generalizing db with
  | nil => exact ⟨rfl, rfl, rfl⟩
  | cons target events ih =>
      have same := remove_sameTombstones (db.markDeleted target.id) target
      obtain ⟨byAuthor, coordinates, vanished⟩ :=
        ih ((db.markDeleted target.id).remove (EventIndexKeys.new target))
      exact ⟨byAuthor.trans same.deletedIdsByAuthor, coordinates.trans same.deletedCoordinates,
        vanished.trans same.vanishedPublicKeys⟩

theorem deleteTargets_coherent {db : Lmdb} (coherent : db.Coherent) {events : List DatabaseEvent}
    (stored : ∀ event ∈ events, db.Stored event) : (db.deleteTargets events).Coherent := by
  have kept := @Durable.processTargets Coherent Coherent.durable
    (events.map fun event => (event.id, EventIndexKeys.new event)) db coherent events
    (by simp) fun event member => .inl (stored event member)
  rwa [List.foldl_map] at kept

/-! ## The coordinates -/

/-- The part of the effect that concerns coordinates. -/
structure DeletesCoordinates (createdAt : Timestamp) (coordinates : List Coordinate)
    (before after : Lmdb) : Prop where
  loses : Loses (fun event => ∃ coordinate ∈ coordinates,
    Reaches coordinate event ∧ event.createdAt ≤ createdAt) before after
  deletedIds : after.deletedIds = before.deletedIds
  deletedIdsByAuthor : after.deletedIdsByAuthor = before.deletedIdsByAuthor
  coordinates : after.deletedCoordinates =
    rememberAll createdAt coordinates before.deletedCoordinates
  vanished : after.vanishedPublicKeys = before.vanishedPublicKeys

theorem Removes.loses {gone : DatabaseEvent → Prop} {before after : Lmdb}
    (removes : Removes gone before after) : Loses gone before after :=
  ⟨removes.coherent, removes.stored⟩

/-- The store with this time remembered for the coordinate. -/
def remember (coordinate : Coordinate) (createdAt : Timestamp) (db : Lmdb) : Lmdb :=
  { db with deletedCoordinates :=
      db.deletedCoordinates.put (makeCoordinateIndexKey coordinate) createdAt }

theorem remember_coherent {db : Lmdb} (coherent : db.Coherent) (coordinate : Coordinate)
    (createdAt : Timestamp) : (db.remember coordinate createdAt).Coherent :=
  Coherent.durable.tombstones db _ _ _ _ coherent

/-- The removal that follows reaches exactly these events, and cannot fail. -/
theorem removeReached_run {db : Lmdb} (coherent : db.Coherent) (createdAt : Timestamp)
    (coordinate : Coordinate) :
    ∃ after, (if coordinate.kind.isReplaceable then removeReplaceable coordinate createdAt
        else if coordinate.kind.isAddressable then removeAddressable coordinate createdAt
        else pure () : Txn Unit).run db = (.ok (), after) ∧
      Removes (fun event => Reaches coordinate event ∧ event.createdAt ≤ createdAt) db after := by
  cases replaceable : coordinate.kind.isReplaceable with
  | true =>
      obtain ⟨after, ran, removes⟩ := removeReplaceable_run coherent coordinate replaceable createdAt
      have notAddressable := Kind.not_isAddressable_of_isReplaceable replaceable
      refine ⟨after, ran, removes.congr fun event _ => ?_⟩
      simp [Reaches, replaceable, notAddressable]
  | false =>
      cases addressable : coordinate.kind.isAddressable with
      | true =>
          obtain ⟨after, ran, removes⟩ :=
            removeAddressable_run coherent coordinate addressable createdAt
          refine ⟨after, ran, removes.congr fun event _ => ?_⟩
          simp [Reaches, replaceable, addressable]
      | false =>
          refine ⟨db, rfl, .nothing coherent fun event _ => ?_⟩
          simp [Reaches, replaceable, addressable]

theorem deleteCoordinate_run {db : Lmdb} (coherent : db.Coherent) (createdAt : Timestamp)
    {coordinate : Coordinate} (fits : (makeCoordinateIndexKey coordinate).length ≤ maxKeySize) :
    ∃ after, (deleteCoordinate createdAt coordinate).run db = (.ok (), after) ∧
      Removes (fun event => Reaches coordinate event ∧ event.createdAt ≤ createdAt)
        (db.remember coordinate createdAt) after := by
  obtain ⟨after, ran, removes⟩ :=
    removeReached_run (remember_coherent coherent coordinate createdAt) createdAt coordinate
  refine ⟨after, ?_, removes⟩
  have marked : (markCoordinateDeleted coordinate createdAt).run db =
      (.ok (), db.remember coordinate createdAt) := by
    unfold markCoordinateDeleted
    dsimp only
    rw [if_neg (not_lt.mpr fits)]
    rfl
  unfold deleteCoordinate
  rw [run_bind, marked]
  exact ran

theorem deleteCoordinate_fails {db : Lmdb} (createdAt : Timestamp) {coordinate : Coordinate}
    (long : maxKeySize < (makeCoordinateIndexKey coordinate).length) :
    (deleteCoordinate createdAt coordinate).run db = (.error .badValSize, db) := by
  have failed : (markCoordinateDeleted coordinate createdAt).run db = (.error .badValSize, db) := by
    unfold markCoordinateDeleted
    dsimp only
    rw [if_pos long]
    rfl
  unfold deleteCoordinate
  rw [run_bind, failed]

theorem deleteCoordinates_run {db : Lmdb} (coherent : db.Coherent) (createdAt : Timestamp)
    {coordinates : List Coordinate}
    (fits : ∀ coordinate ∈ coordinates, (makeCoordinateIndexKey coordinate).length ≤ maxKeySize) :
    ∃ after, (coordinates.forM (deleteCoordinate createdAt)).run db = (.ok (), after) ∧
      DeletesCoordinates createdAt coordinates db after := by
  induction coordinates generalizing db with
  | nil =>
      refine ⟨db, rfl, ⟨coherent, fun event => ?_⟩, rfl, rfl, rfl, rfl⟩
      simp
  | cons coordinate coordinates ih =>
      obtain ⟨middle, ran, removes⟩ :=
        deleteCoordinate_run coherent createdAt (fits coordinate List.mem_cons_self)
      obtain ⟨after, ranRest, rest⟩ := ih removes.coherent fun other member =>
        fits other (.tail _ member)
      refine ⟨after, ?_, ?_⟩
      · change (deleteCoordinate createdAt coordinate >>= fun _ =>
          coordinates.forM (deleteCoordinate createdAt)).run db = _
        rw [run_bind, ran]
        exact ranRest
      · have both := removes.loses.trans rest.loses
        have tombstones := removes.tombstones
        refine ⟨⟨both.coherent, fun event => ?_⟩, ?_, ?_, ?_, ?_⟩
        · simp only [List.mem_cons, exists_eq_or_imp]
          exact both.stored event
        · exact rest.deletedIds.trans tombstones.deletedIds
        · exact rest.deletedIdsByAuthor.trans tombstones.deletedIdsByAuthor
        · rw [rest.coordinates, tombstones.deletedCoordinates]
          rfl
        · exact rest.vanished.trans tombstones.vanishedPublicKeys

theorem deleteCoordinates_fits {db after : Lmdb} (coherent : db.Coherent) {createdAt : Timestamp}
    {coordinates : List Coordinate}
    (ran : (coordinates.forM (deleteCoordinate createdAt)).run db = (.ok (), after)) :
    ∀ coordinate ∈ coordinates, (makeCoordinateIndexKey coordinate).length ≤ maxKeySize := by
  induction coordinates generalizing db with
  | nil => exact fun coordinate member => by cases member
  | cons coordinate coordinates ih =>
      change (deleteCoordinate createdAt coordinate >>= fun _ =>
        coordinates.forM (deleteCoordinate createdAt)).run db = _ at ran
      rw [run_bind] at ran
      by_cases fits : (makeCoordinateIndexKey coordinate).length ≤ maxKeySize
      · obtain ⟨middle, first, removes⟩ := deleteCoordinate_run coherent createdAt fits
        rw [first] at ran
        intro other member
        rcases List.mem_cons.mp member with same | later
        · exact same ▸ fits
        · exact ih removes.coherent ran other later
      · rw [deleteCoordinate_fails createdAt (not_le.mp fits)] at ran
        cases ran

/-! ## The whole request -/

/-- What makes a deletion request take effect. -/
structure Acceptable (externals : Externals) (request : Event) (db : Lmdb) : Prop where
  owned : ∀ coordinate ∈ Tags.coordinates externals request.tags,
    coordinate.publicKey = request.pubkey
  targetsOwned : ∀ id ∈ Tags.eventIds externals request.tags, ∀ target,
    db.getEventById id = some target → target.pubkey = request.pubkey
  fits : ∀ coordinate ∈ Tags.coordinates externals request.tags,
    (makeCoordinateIndexKey coordinate).length ≤ maxKeySize

theorem collectTargets_of_owned {db : Lmdb} {author : PublicKey} {ids : List EventId}
    (owned : ∀ id ∈ ids, ∀ target, db.getEventById id = some target → target.pubkey = author) :
    ∃ targets, db.collectTargets author ids = some targets := by
  induction ids with
  | nil => exact ⟨([], []), rfl⟩
  | cons id ids ih =>
      obtain ⟨⟨known, unknown⟩, collected⟩ := ih fun other member => owned other (.tail _ member)
      unfold collectTargets
      cases found : db.getEventById id with
      | none => exact ⟨(known, id :: unknown), by simp [collected]⟩
      | some target =>
          have owner := owned id List.mem_cons_self target found
          exact ⟨((id, EventIndexKeys.new target) :: known, unknown), by simp [collected, owner]⟩

section Request

variable {externals : Externals} {request : Event} {db : Lmdb}

/-- Where nothing stands against it, the request goes through its three parts. -/
theorem handleDeletionEvent_parts (coherent : db.Coherent)
    (owned : ∀ coordinate ∈ Tags.coordinates externals request.tags,
      coordinate.publicKey = request.pubkey)
    {known : List (EventId × EventIndexKeys)} {unknown : List EventId}
    (collected : db.collectTargets request.pubkey (Tags.eventIds externals request.tags) =
      some (known, unknown)) :
    (handleDeletionEvent externals request).run db =
      (do
        (Tags.coordinates externals request.tags).forM (deleteCoordinate request.createdAt)
        return false : Txn Bool).run
      ((db.markUnknown request.pubkey ((Tags.eventIds externals request.tags).filter fun id =>
        (db.getEventById id).isNone)).deleteTargets
        ((Tags.eventIds externals request.tags).filterMap db.getEventById)) := by
  have noneForeign : ¬ (Tags.coordinates externals request.tags).any
      (fun coordinate => coordinate.publicKey ≠ request.pubkey) = true := by
    simpa using owned
  obtain ⟨knownEq, unknownEq, _⟩ := collectTargets_some collected
  have targets : ∀ start : Lmdb,
      known.foldl (fun db target => (db.markDeleted target.1).remove target.2) start =
        start.deleteTargets ((Tags.eventIds externals request.tags).filterMap db.getEventById) := by
    intro start
    have listed : known = ((Tags.eventIds externals request.tags).filterMap db.getEventById).map
        fun event => (event.id, EventIndexKeys.new event) := by
      rw [knownEq, List.map_filterMap]
      congr
      funext id
      cases found : db.getEventById id with
      | none => rfl
      | some target => simp [coherent.keyed id target found]
    rw [listed, List.foldl_map]
    rfl
  unfold handleDeletionEvent
  dsimp only
  rw [if_neg noneForeign, run_get_bind, collected]
  change (do
      (Tags.coordinates externals request.tags).forM (deleteCoordinate request.createdAt)
      return false : Txn Bool).run
    (known.foldl (fun db target => (db.markDeleted target.1).remove target.2)
      (unknown.foldl (fun db id => db.markDeletedByAuthor id request.pubkey) db)) = _
  rw [targets, unknownEq]
  rfl

theorem markUnknown_same (author : PublicKey) (ids : List EventId) (db : Lmdb) :
    (db.markUnknown author ids).Stored = db.Stored ∧
      (db.markUnknown author ids).deletedIds = db.deletedIds ∧
      (db.markUnknown author ids).deletedCoordinates = db.deletedCoordinates ∧
      (db.markUnknown author ids).vanishedPublicKeys = db.vanishedPublicKeys := by
  obtain ⟨table, same⟩ := db.markUnknown_eq author ids
  rw [same]
  exact ⟨rfl, rfl, rfl, rfl⟩

theorem markUnknown_coherent (coherent : db.Coherent) (author : PublicKey) (ids : List EventId) :
    (db.markUnknown author ids).Coherent := by
  obtain ⟨table, same⟩ := db.markUnknown_eq author ids
  rw [same]
  exact Coherent.durable.tombstones db _ _ _ _ coherent

/-- The targets of the request are stored, also after the unknown IDs are marked. -/
theorem targets_stored (coherent : db.Coherent) (ids : List EventId) :
    ∀ event ∈ ids.filterMap db.getEventById, db.Stored event ∧ event.id ∈ ids := by
  intro event member
  obtain ⟨id, listed, found⟩ := List.mem_filterMap.mp member
  exact ⟨coherent.stored found, coherent.keyed id event found ▸ listed⟩

theorem targets_coherent (coherent : db.Coherent) (author : PublicKey) (ids unknown : List EventId) :
    ((db.markUnknown author unknown).deleteTargets (ids.filterMap db.getEventById)).Coherent :=
  deleteTargets_coherent (markUnknown_coherent coherent author unknown) fun event member => by
    rw [(db.markUnknown_same author unknown).1]
    exact (targets_stored coherent ids event member).1

/-- An acceptable request takes effect. -/
theorem handleDeletionEvent_run (coherent : db.Coherent)
    (acceptable : Acceptable externals request db) :
    ∃ after, (handleDeletionEvent externals request).run db = (.ok false, after) ∧
      Deletes externals request db after := by
  let ids := Tags.eventIds externals request.tags
  let unknown := ids.filter fun id => (db.getEventById id).isNone
  let targets := ids.filterMap db.getEventById
  let marked := db.markUnknown request.pubkey unknown
  obtain ⟨⟨known, unknown'⟩, collected⟩ := collectTargets_of_owned acceptable.targetsOwned
  have parts := handleDeletionEvent_parts coherent acceptable.owned collected
  obtain ⟨sameStored, sameIds, sameCoordinates, sameVanished⟩ :=
    db.markUnknown_same request.pubkey unknown
  have targetsStored := targets_stored coherent ids
  obtain ⟨after, ran, deletes⟩ := deleteCoordinates_run
    (targets_coherent coherent request.pubkey ids unknown) request.createdAt acceptable.fits
  obtain ⟨byAuthor, coordinates, vanished⟩ := marked.deleteTargets_others targets
  have isTarget : ∀ event, db.Stored event → (event ∈ targets ↔ event.id ∈ ids) := fun event stored =>
    ⟨fun member => (targetsStored event member).2,
      fun listed => List.mem_filterMap.mpr ⟨event.id, listed, stored⟩⟩
  refine ⟨after, ?_, ?_⟩
  · rw [parts, run_bind, ran]
    rfl
  · constructor
    · exact acceptable.owned
    · exact fun event stored listed => acceptable.targetsOwned event.id listed event stored
    · refine ⟨deletes.loses.coherent, fun event => ?_⟩
      rw [deletes.loses.stored, deleteTargets_stored, sameStored, DeletedBy, ReachedBy, and_assoc]
      refine and_congr_right fun stored => ?_
      rw [not_or]
      refine and_congr_left fun _ => ?_
      constructor
      · exact fun spared listed => spared event ((isTarget event stored).mpr listed) rfl
      · intro unlisted target member same
        exact unlisted (same ▸ (targetsStored target member).2)
    · intro id
      have sameDeleted : after.isDeleted id = (marked.deleteTargets targets).isDeleted id := by
        rw [isDeleted, deletes.deletedIds, isDeleted]
      have markedDeleted : marked.isDeleted id = db.isDeleted id := by
        rw [isDeleted, sameIds, isDeleted]
      rw [sameDeleted, deleteTargets_isDeleted, markedDeleted]
      refine or_congr_right ⟨fun held => ?_, fun held => ?_⟩
      · obtain ⟨target, member, same⟩ := held
        obtain ⟨stored, listed⟩ := targetsStored target member
        subst same
        refine ⟨listed, ?_⟩
        rw [hasEvent, show db.getEventById target.id = some target from stored, Option.isSome_some]
      · obtain ⟨listed, present⟩ := held
        obtain ⟨target, found⟩ := Option.isSome_iff_exists.mp present
        exact ⟨target, List.mem_filterMap.mpr ⟨id, listed, found⟩, coherent.keyed id target found⟩
    · intro id listed absent
      rw [isDeletedByAuthor, deletes.deletedIdsByAuthor, byAuthor]
      apply isDeletedByAuthor_markUnknown
      apply Or.inl
      apply List.mem_filter.mpr
      exact ⟨listed, by simpa [hasEvent] using absent⟩
    · rw [deletes.coordinates, coordinates, sameCoordinates]
    · rw [deletes.vanished, vanished, sameVanished]

theorem handleDeletionEvent_acceptable (coherent : db.Coherent) {after : Lmdb}
    (ran : (handleDeletionEvent externals request).run db = (.ok false, after)) :
    Acceptable externals request db := by
  have owned : ∀ coordinate ∈ Tags.coordinates externals request.tags,
      coordinate.publicKey = request.pubkey := by
    by_contra foreign
    have found : (Tags.coordinates externals request.tags).any
        (fun coordinate => coordinate.publicKey ≠ request.pubkey) = true := by
      simpa using foreign
    unfold handleDeletionEvent at ran
    dsimp only at ran
    rw [if_pos found] at ran
    cases ran
  cases collected : db.collectTargets request.pubkey (Tags.eventIds externals request.tags) with
  | none =>
      have noneForeign : ¬ (Tags.coordinates externals request.tags).any
          (fun coordinate => coordinate.publicKey ≠ request.pubkey) = true := by
        simpa using owned
      unfold handleDeletionEvent at ran
      dsimp only at ran
      rw [if_neg noneForeign, run_get_bind, collected] at ran
      cases ran
  | some targets =>
      obtain ⟨known, unknown⟩ := targets
      rw [handleDeletionEvent_parts coherent owned collected, run_bind] at ran
      refine ⟨owned, (collectTargets_some collected).2.2, ?_⟩
      rcases looped : ((Tags.coordinates externals request.tags).forM
        (deleteCoordinate request.createdAt)).run _ with ⟨outcome, middle⟩
      rw [looped] at ran
      cases outcome with
      | error error => cases ran
      | ok _ => exact deleteCoordinates_fits (targets_coherent coherent _ _ _) looped

theorem handleDeletionEvent_deletes (coherent : db.Coherent) {after : Lmdb}
    (ran : (handleDeletionEvent externals request).run db = (.ok false, after)) :
    Deletes externals request db after := by
  obtain ⟨after', ran', deletes⟩ :=
    handleDeletionEvent_run coherent (handleDeletionEvent_acceptable coherent ran)
  cases ran.symm.trans ran'
  exact deletes

end Request

/-! ## Saving a request -/

section Save

variable {externals : Externals} {options : LmdbOptions} {order : HashOrder} {request : Event}
  {db : Lmdb}

theorem not_special_of_deletion {kind : Kind} (deletion : kind.asU16 = 5) :
    kind.isReplaceable = false ∧ kind.isAddressable = false ∧ (kind == .eventDeletion) = true ∧
      (kind == .requestToVanish) = false := by
  have isDeletion : (kind == .eventDeletion) = true := Kind.beq_iff.mpr deletion
  refine ⟨?_, ?_, isDeletion, ?_⟩
  · rw [Bool.eq_false_iff]
    intro replaceable
    cases (Kind.not_special_of_isReplaceable replaceable).1.symm.trans isDeletion
  · rw [Bool.eq_false_iff]
    intro addressable
    cases (Kind.not_special_of_isAddressable addressable).1.symm.trans isDeletion
  · rw [Bool.eq_false_iff]
    intro vanish
    have other : kind.asU16 = 62 := Kind.beq_iff.mp vanish
    rw [deletion] at other
    cases other

/-- A request replaces nothing. -/
theorem replaceAndStore_deletion (deletion : request.kind.asU16 = 5) :
    (replaceAndStore externals options order request).run db =
      (finishSave externals options order request).run db := by
  obtain ⟨notReplaceable, notAddressable, _⟩ := not_special_of_deletion deletion
  exact replaceAndStore_of_steps (replaceReplaceable_other notReplaceable db)
    (replaceAddressable_other (.inl notAddressable) db)

theorem vanishAndStore_ordinary (ordinary : (request.kind == .requestToVanish) = false) :
    (vanishAndStore externals options order request).run db =
      (.ok .success, db.store (.ofEvent request)) := by
  unfold vanishAndStore
  rw [ordinary, Bool.and_false, Bool.false_and]
  rfl

/-- What saving a request does once it is accepted. -/
inductive Accepts (externals : Externals) (options : LmdbOptions) (request : Event) (db : Lmdb) :
    Lmdb → Prop where
  | deletes (processes : options.processNip09 = true) (middle : Lmdb)
      (effect : Deletes externals request db middle) :
      Accepts externals options request db (middle.store (.ofEvent request))
  | stores (ignores : options.processNip09 = false) :
      Accepts externals options request db (db.store (.ofEvent request))

/-- Where deletions are processed, an accepted request was found valid. -/
theorem save_handles (coherent : db.Coherent) (deletion : request.kind.asU16 = 5)
    (processes : options.processNip09 = true) {after : Lmdb}
    (succeeds : (saveEventWithTxn externals options order request).run db = (.ok .success, after)) :
    ∃ middle, (handleDeletionEvent externals request).run db = (.ok false, middle) ∧
      after = middle.store (.ofEvent request) := by
  obtain ⟨_, _, isDeletion, notVanish⟩ := not_special_of_deletion deletion
  obtain ⟨admits, _⟩ := save_succeeds coherent succeeds
  rw [save_of_admits admits, replaceAndStore_deletion deletion] at succeeds
  unfold finishSave at succeeds
  rw [isDeletion, processes, Bool.and_true, if_pos rfl, run_bind] at succeeds
  rcases handled : (handleDeletionEvent externals request).run db with ⟨outcome, middle⟩
  rw [handled] at succeeds
  cases outcome with
  | error error => cases succeeds
  | ok invalid =>
      cases invalid with
      | true => cases succeeds
      | false =>
          have stored : (vanishAndStore externals options order request).run middle =
              (.ok .success, after) := succeeds
          rw [vanishAndStore_ordinary notVanish] at stored
          cases stored
          exact ⟨middle, rfl, rfl⟩

theorem save_accepts (coherent : db.Coherent) (deletion : request.kind.asU16 = 5) {after : Lmdb}
    (succeeds : (saveEventWithTxn externals options order request).run db = (.ok .success, after)) :
    Admits options db request ∧ Accepts externals options request db after := by
  obtain ⟨_, _, isDeletion, notVanish⟩ := not_special_of_deletion deletion
  obtain ⟨admits, _⟩ := save_succeeds coherent succeeds
  refine ⟨admits, ?_⟩
  cases processes : options.processNip09 with
  | true =>
      obtain ⟨middle, handled, same⟩ := save_handles coherent deletion processes succeeds
      subst same
      exact .deletes processes middle (handleDeletionEvent_deletes coherent handled)
  | false =>
      rw [save_of_admits admits, replaceAndStore_deletion deletion] at succeeds
      unfold finishSave at succeeds
      rw [isDeletion, processes, Bool.and_true, if_neg Bool.false_ne_true,
        vanishAndStore_ordinary notVanish] at succeeds
      cases succeeds
      exact .stores processes

/-- An admitted request that is acceptable is accepted. -/
theorem save_acceptable (coherent : db.Coherent) (deletion : request.kind.asU16 = 5)
    (processes : options.processNip09 = true) (admits : Admits options db request)
    (acceptable : Acceptable externals request db) :
    ∃ after, (saveEventWithTxn externals options order request).run db = (.ok .success, after) := by
  obtain ⟨_, _, isDeletion, notVanish⟩ := not_special_of_deletion deletion
  obtain ⟨middle, handled, _⟩ := handleDeletionEvent_run coherent acceptable
  refine ⟨middle.store (.ofEvent request), ?_⟩
  rw [save_of_admits admits, replaceAndStore_deletion deletion]
  unfold finishSave
  rw [isDeletion, processes, Bool.and_true, if_pos rfl, run_bind, handled]
  exact vanishAndStore_ordinary notVanish

end Save

/-! ## What a request may remove -/

/-- The text of an `a` tag writes this coordinate: its kind, public key and
identifier with colons between them, of which the identifier may contain more. -/
def Writes (externals : Externals) (text : String) (coordinate : Coordinate) : Prop :=
  ∃ kind publicKey : List Char, ':' ∉ kind ∧ ':' ∉ publicKey ∧
    text.toList = kind ++ ':' :: (publicKey ++ ':' :: coordinate.identifier.toList) ∧
    Kind.fromStr kind = some coordinate.kind ∧
    externals.hexDecode (String.ofList publicKey) = some coordinate.publicKey

/-- The coordinate is the stored event's own. -/
def OwnCoordinate (coordinate : Coordinate) (event : DatabaseEvent) : Prop :=
  coordinate.kind.asU16 = event.kind ∧ coordinate.publicKey = event.pubkey ∧
    coordinate.identifier = event.identifier

/-- An `a` tag of the request writes the event's own coordinate. -/
def NamesCoordinate (externals : Externals) (request : Event) (event : DatabaseEvent) : Prop :=
  ∃ tag ∈ request.tags, tag.kind = "a" ∧ ∃ text, tag.content = some text ∧
    ∃ coordinate, Writes externals text coordinate ∧ OwnCoordinate coordinate event

/-- Every removed event is the request's author's, and named by ID or, not newer
than the request, by its own coordinate. -/
def DeletesPrecisely (externals : Externals) (request : Event) (before after : Lmdb) : Prop :=
  ∀ gone, before.Stored gone → ¬ after.Stored gone → gone.pubkey = request.pubkey ∧
    (gone.id ∈ Tags.eventIds externals request.tags ∨
      gone.createdAt ≤ request.createdAt ∧ NamesCoordinate externals request gone)

theorem Reaches.owner {coordinate : Coordinate} {event : DatabaseEvent}
    (reaches : Reaches coordinate event) : event.pubkey = coordinate.publicKey := by
  rcases reaches with replaceable | addressable
  · exact replaceable.2.1
  · exact addressable.2.1.1

/-- In every reached store, an accepted request is precise if and only if its
coordinates reach only events whose own coordinates it writes. -/
theorem run_deletesPrecisely_iff (externals : Externals) (options : LmdbOptions)
    (operations : List (HashOrder × IngesterOperation)) (order : HashOrder) (request : Event)
    (deletion : request.kind.asU16 = 5) (after : Lmdb)
    (accepted : (saveEventWithTxn externals options order request).run
      (run externals options operations) = (.ok .success, after)) :
    DeletesPrecisely externals request (run externals options operations) after ↔
      (options.processNip09 = true → ∀ event, (run externals options operations).Stored event →
        event.id ∉ Tags.eventIds externals request.tags → ReachedBy externals request event →
        NamesCoordinate externals request event) := by
  have coherent := run_coherent externals options operations
  obtain ⟨admits, accepts⟩ := save_accepts coherent deletion accepted
  have absent := admits.absent
  generalize run externals options operations = db at *
  cases accepts with
  | stores ignores =>
      constructor
      · exact fun _ processes => by cases ignores.symm.trans processes
      · intro _ gone stored removed
        exact absurd ((stored_store absent).mpr (.inr stored)) removed
  | deletes processes middle effect =>
      have absentAfter : middle.events.get? (DatabaseEvent.ofEvent request).id = none :=
        effect.loses.absent absent
      have removed : ∀ event, db.Stored event →
          (¬ (middle.store (.ofEvent request)).Stored event ↔ DeletedBy externals request event) := by
        intro event stored
        rw [stored_store absentAfter, effect.loses.stored]
        constructor
        · intro gone
          by_contra spared
          exact gone (.inr ⟨stored, spared⟩)
        · intro deleted kept
          rcases kept with new | old
          · rw [Stored, new] at stored
            cases absent.symm.trans stored
          · exact old.2 deleted
      constructor
      · intro precise _ event stored unlisted reached
        have gone := (removed event stored).mpr (.inr reached)
        rcases (precise event stored gone).2 with listed | named
        · exact absurd listed unlisted
        · exact named.2
      · intro exact gone stored isGone
        have deleted := (removed gone stored).mp isGone
        by_cases listed : gone.id ∈ Tags.eventIds externals request.tags
        · exact ⟨effect.targetsOwned gone stored listed, .inl listed⟩
        · have reached := deleted.resolve_left listed
          have named := exact processes gone stored listed reached
          obtain ⟨coordinate, member, reaches, notLater⟩ := reached
          exact ⟨reaches.owner.trans (effect.owned coordinate member), .inr ⟨notLater, named⟩⟩

def articleText (identifier : String) : String :=
  "30000:" ++ hexExternals.hexEncode sampleAuthor.val ++ ":" ++ identifier

def deletionOfArticle (id : UInt8) (createdAt : Timestamp) (identifier : String) : Event :=
  sampleEvent id createdAt .eventDeletion [sampleTag "a" (articleText identifier)]

/-- The request names the one stored article. -/
theorem run_deletesPrecisely_article : DeletesPrecisely hexExternals (deletionOfArticle 2 20 "a")
    (run hexExternals {} [(.id, .saveEvent (article 1 10 [sampleTag "d" "a"]))])
    ((saveEventWithTxn hexExternals {} .id (deletionOfArticle 2 20 "a")).run
      (run hexExternals {} [(.id, .saveEvent (article 1 10 [sampleTag "d" "a"]))])).2 := by
  have evaluated : ((saveEventWithTxn hexExternals {} .id (deletionOfArticle 2 20 "a")).run
        (run hexExternals {} [(.id, .saveEvent (article 1 10 [sampleTag "d" "a"]))])).1 = .ok .success ∧
      (run hexExternals {} [(.id, .saveEvent (article 1 10 [sampleTag "d" "a"]))]).events.values.all
        (fun event => event = .ofEvent (article 1 10 [sampleTag "d" "a"])) = true := by
    decide +kernel
  obtain ⟨accepted, only⟩ := evaluated
  apply (run_deletesPrecisely_iff hexExternals {}
    [(.id, .saveEvent (article 1 10 [sampleTag "d" "a"]))] .id (deletionOfArticle 2 20 "a") rfl _
    (run_eq_of_outcome accepted)).mpr
  intro _ event stored _ _
  rw [of_decide_eq_true (stored_of_values only stored)]
  refine ⟨_, List.mem_singleton.mpr rfl, rfl, articleText "a", rfl,
    ⟨.custom 30000, sampleAuthor, "a"⟩, ?_, rfl, rfl, rfl⟩
  exact ⟨"30000".toList, (hexExternals.hexEncode sampleAuthor.val).toList, by decide +kernel,
    by decide +kernel, by decide +kernel, by decide +kernel, by decide +kernel⟩

/-- The request writes the identifier `a:b`, and the article `a` goes. -/
theorem run_not_deletesPrecisely : ¬ ∀ externals options operations order request after,
    request.kind.asU16 = 5 →
    (saveEventWithTxn externals options order request).run (run externals options operations) =
      (.ok .success, after) →
    DeletesPrecisely externals request (run externals options operations) after := by
  intro precise
  let stored := article 1 10 [sampleTag "d" "a"]
  let request := deletionOfArticle 2 20 "a:b"
  let db := run hexExternals {} [(.id, .saveEvent stored)]
  have erased : ((saveEventWithTxn hexExternals {} .id request).run db).1 = .ok .success ∧
      db.Stored (.ofEvent stored) ∧
      ¬ ((saveEventWithTxn hexExternals {} .id request).run db).2.Stored (.ofEvent stored) := by
    unfold Stored
    decide +kernel
  obtain ⟨accepted, gone⟩ := erased
  have unlisted : (DatabaseEvent.ofEvent stored).id ∉ Tags.eventIds hexExternals request.tags := by
    decide +kernel
  obtain ⟨_, named⟩ := precise hexExternals {} [(.id, .saveEvent stored)] .id request _ rfl
    (run_eq_of_outcome accepted) _ gone.1 gone.2
  obtain ⟨_, tag, member, _, text, content, coordinate, writes, own⟩ :=
    named.resolve_left unlisted
  obtain ⟨kind, publicKey, _, _, sameText, _⟩ := writes
  cases List.mem_singleton.mp member
  cases content
  have identifier : coordinate.identifier = "a" := own.2.2
  have ends : (articleText "a:b").toList.getLast? = some 'b' := by decide +kernel
  have endsOtherwise : kind ++ ':' :: (publicKey ++ ':' :: "a".toList) =
      (kind ++ ':' :: publicKey ++ [':']) ++ ['a'] := by simp
  rw [sameText, identifier, endsOtherwise, List.getLast?_concat] at ends
  cases ends

end RustNostr.NostrLmdb.Lmdb
