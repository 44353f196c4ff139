import Mathlib
import RustNostr.NostrLmdb.Replaceable
import RustNostr.NostrLmdb.QueryResult

/-!
# Saving one event

What `save_event_with_txn` does on a coherent store, part by part: the checks
that come before any write, the removal of the versions that the event replaces,
and the rest.
-/

set_option autoImplicit false

namespace RustNostr.NostrLmdb.Lmdb

open Library Transaction

/-! ## Removing events -/

/-- The tombstone tables are as they were. -/
structure SameTombstones (before after : Lmdb) : Prop where
  deletedIds : after.deletedIds = before.deletedIds
  deletedIdsByAuthor : after.deletedIdsByAuthor = before.deletedIdsByAuthor
  deletedCoordinates : after.deletedCoordinates = before.deletedCoordinates
  vanishedPublicKeys : after.vanishedPublicKeys = before.vanishedPublicKeys

theorem SameTombstones.refl (db : Lmdb) : SameTombstones db db := ⟨rfl, rfl, rfl, rfl⟩

theorem SameTombstones.trans {first second third : Lmdb} (left : SameTombstones first second)
    (right : SameTombstones second third) : SameTombstones first third where
  deletedIds := right.deletedIds.trans left.deletedIds
  deletedIdsByAuthor := right.deletedIdsByAuthor.trans left.deletedIdsByAuthor
  deletedCoordinates := right.deletedCoordinates.trans left.deletedCoordinates
  vanishedPublicKeys := right.vanishedPublicKeys.trans left.vanishedPublicKeys

theorem remove_sameTombstones (db : Lmdb) (event : DatabaseEvent) :
    SameTombstones db (db.remove (EventIndexKeys.new event)) := by
  rw [remove_eq]
  exact ⟨rfl, rfl, rfl, rfl⟩

theorem removeAll_sameTombstones (db : Lmdb) (events : List DatabaseEvent) :
    SameTombstones db (db.removeAll (events.map EventIndexKeys.new)) := by
  induction events generalizing db with
  | nil => exact .refl db
  | cons event events ih => exact (db.remove_sameTombstones event).trans (ih _)

theorem store_sameTombstones (db : Lmdb) (event : DatabaseEvent) :
    SameTombstones db (db.store event) := by
  rw [store, indexEvent_eq]
  exact ⟨rfl, rfl, rfl, rfl⟩

namespace SameTombstones

variable {before after : Lmdb} (same : SameTombstones before after)

include same

theorem isDeleted (id : EventId) : after.isDeleted id = before.isDeleted id := by
  rw [Lmdb.isDeleted, same.deletedIds, Lmdb.isDeleted]

theorem isDeletedByAuthor (id : EventId) (author : PublicKey) :
    after.isDeletedByAuthor id author = before.isDeletedByAuthor id author := by
  rw [Lmdb.isDeletedByAuthor, same.deletedIdsByAuthor, Lmdb.isDeletedByAuthor]

theorem isPubkeyVanished (pk : PublicKey) :
    after.isPubkeyVanished pk = before.isPubkeyVanished pk := by
  rw [Lmdb.isPubkeyVanished, same.vanishedPublicKeys, Lmdb.isPubkeyVanished]

theorem whenIsCoordinateDeleted (coordinate : Coordinate) :
    after.whenIsCoordinateDeleted coordinate = before.whenIsCoordinateDeleted coordinate := by
  rw [Lmdb.whenIsCoordinateDeleted, same.deletedCoordinates, Lmdb.whenIsCoordinateDeleted]

theorem isCoordinateDeleted (event : Event) :
    after.isCoordinateDeleted event = before.isCoordinateDeleted event := by
  simp only [Lmdb.isCoordinateDeleted, same.whenIsCoordinateDeleted]

end SameTombstones

theorem isSome_insert {α : Type} [LinearOrder α] (set : SortedSet α) (element other : α)
    [Decidable (other = element)] : ((set.insert element).get? other).isSome =
      (decide (other = element) || (set.get? other).isSome) := by
  rw [SortedSet.insert, SortedTable.get?_put]
  split
  · next same => simp [same]
  · next different => simp [different]

theorem isDeleted_markDeleted (id other : EventId) (db : Lmdb) :
    (db.markDeleted id).isDeleted other = (decide (other = id) || db.isDeleted other) :=
  isSome_insert _ _ _

theorem isDeletedByAuthor_markDeletedByAuthor (id other : EventId) (author owner : PublicKey)
    (db : Lmdb) : (db.markDeletedByAuthor id author).isDeletedByAuthor other owner =
      (decide (makeAuthorDeletionKey other owner = makeAuthorDeletionKey id author) ||
        db.isDeletedByAuthor other owner) :=
  isSome_insert _ _ _

theorem isPubkeyVanished_markPubkeyVanished (pk other : PublicKey) (db : Lmdb) :
    (db.markPubkeyVanished pk).isPubkeyVanished other =
      (decide (other = pk) || db.isPubkeyVanished other) :=
  isSome_insert _ _ _

/-- From one coherent store to another without these events. -/
structure Removes (gone : DatabaseEvent → Prop) (before after : Lmdb) : Prop where
  coherent : after.Coherent
  stored : ∀ event, after.Stored event ↔ before.Stored event ∧ ¬ gone event
  tombstones : SameTombstones before after

theorem Removes.nothing {db : Lmdb} (coherent : db.Coherent) {gone : DatabaseEvent → Prop}
    (absent : ∀ event, db.Stored event → ¬ gone event) : Removes gone db db where
  coherent := coherent
  stored event := ⟨fun stored => ⟨stored, absent event stored⟩, And.left⟩
  tombstones := .refl db

/-- What is not stored is not stored later, if no event is added. -/
theorem absent_of_fewer {before after : Lmdb} (coherent : after.Coherent)
    (fewer : ∀ event, after.Stored event → before.Stored event) {id : EventId}
    (unknown : before.events.get? id = none) : after.events.get? id = none := by
  cases found : after.events.get? id with
  | none => rfl
  | some event =>
      have stored := fewer event (coherent.stored found)
      rw [Stored, coherent.keyed id event found, unknown] at stored
      cases stored

theorem Removes.absent {gone : DatabaseEvent → Prop} {before after : Lmdb}
    (removes : Removes gone before after) {id : EventId} (unknown : before.events.get? id = none) :
    after.events.get? id = none :=
  absent_of_fewer removes.coherent (fun event stored => ((removes.stored event).mp stored).1) unknown

theorem removeAll_removes {db : Lmdb} (coherent : db.Coherent) {events : List DatabaseEvent}
    {gone : DatabaseEvent → Prop} (mem : ∀ event, event ∈ events ↔ db.Stored event ∧ gone event) :
    Removes gone db (db.removeAll (events.map EventIndexKeys.new)) where
  coherent := Coherent.durable.removeAll coherent fun event member => ((mem event).mp member).1
  stored event := by
    rw [stored_removeAll]
    constructor
    · intro held
      exact ⟨held.1, fun goes => held.2 event ((mem event).mpr ⟨held.1, goes⟩) rfl⟩
    · intro held
      refine ⟨held.1, fun removed member same => held.2 ?_⟩
      obtain ⟨removedStored, goes⟩ := (mem removed).mp member
      rw [held.1.unique removedStored same]
      exact goes
  tombstones := db.removeAll_sameTombstones events

/-- A deletion by a filter without a limit removes what a query would find. -/
theorem delete_run {db : Lmdb} (coherent : db.Coherent) (order : HashOrder) (request : Filter)
    (unlimited : request.limit = none) :
    ∃ after, (delete order request).run db = (.ok (), after) ∧
      Removes (fun event => event.orderingKey ∈ db.answerable (DatabaseFilter.ofFilter order request))
        db after := by
  obtain ⟨events, queried, answers⟩ := query_answers coherent order request fun count limited => by
    rw [unlimited] at limited
    cases limited
  rw [unlimited] at queried answers
  have ran : (delete order request).run db =
      (.ok (), db.removeAll (events.map EventIndexKeys.new)) := by
    unfold delete
    rw [run_read_bind (fun db : Lmdb => db.query order request) queried]
    rfl
  refine ⟨_, ran, removeAll_removes coherent fun event => ?_⟩
  constructor
  · intro member
    exact ⟨answers.stored event member, answers.sound _ (List.mem_map_of_mem member)⟩
  · intro found
    obtain ⟨stored, answered⟩ := found
    have settled := BoundedScan.settled_none.mp (answers.settled _ answered)
    obtain ⟨other, otherMember, sameKey⟩ := List.mem_map.mp settled
    have same := (answers.stored other otherMember).unique stored
      (congrArg (fun key : OrderingKey => (ofLex key).2) sameKey)
    exact same ▸ otherMember

/-! ## Removing the events of a coordinate -/

/-- An event that the range scan of an author and kind reaches. -/
def Version (author : PublicKey) (kind : UInt16) (event : DatabaseEvent) : Prop :=
  event.pubkey = author ∧ event.kind = kind ∧ InRange event

/-- A version that the author and tag index lists for an identifier: it has the
cut and padded value of every `d` tag. -/
def Rival (author : PublicKey) (kind : UInt16) (identifier : String) (event : DatabaseEvent) :
    Prop :=
  Version author kind event ∧ HasTagPrefix .lowercaseD identifier event

theorem Removes.congr {gone gone' : DatabaseEvent → Prop} {before after : Lmdb}
    (removes : Removes gone before after)
    (same : ∀ event, before.Stored event → (gone' event ↔ gone event)) :
    Removes gone' before after where
  coherent := removes.coherent
  stored event := by
    rw [removes.stored event]
    constructor
    · exact fun held => ⟨held.1, fun goes => held.2 ((same event held.1).mp goes)⟩
    · exact fun held => ⟨held.1, fun goes => held.2 ((same event held.1).mpr goes)⟩
  tombstones := removes.tombstones

theorem removeReplaceable_run {db : Lmdb} (coherent : db.Coherent) (coordinate : Coordinate)
    (replaceable : coordinate.kind.isReplaceable = true) (until_ : Timestamp) :
    ∃ after, (removeReplaceable coordinate until_).run db = (.ok (), after) ∧
      Removes (fun event => Version coordinate.publicKey coordinate.kind.asU16 event ∧
        event.createdAt ≤ until_) db after := by
  obtain ⟨events, listed, _⟩ :=
    akcIter_lists coherent coordinate.publicKey coordinate.kind.asU16 .min until_
  have ran : (removeReplaceable coordinate until_).run db =
      (.ok (), db.removeAll (events.map EventIndexKeys.new)) := by
    have scanned := filterMap_getEventById fun event member => ((listed.mem event).mp member).1
    rw [← listed.ids_eq] at scanned
    rw [← scanned]
    unfold removeReplaceable
    rw [replaceable]
    rfl
  refine ⟨_, ran, removeAll_removes coherent fun event => ?_⟩
  rw [listed.mem event, Version, InRange]
  tauto

theorem removeAddressable_run {db : Lmdb} (coherent : db.Coherent) (coordinate : Coordinate)
    (addressable : coordinate.kind.isAddressable = true) (until_ : Timestamp) :
    ∃ after, (removeAddressable coordinate until_).run db = (.ok (), after) ∧
      Removes (fun event =>
        Rival coordinate.publicKey coordinate.kind.asU16 coordinate.identifier event ∧
          event.createdAt ≤ until_) db after := by
  obtain ⟨events, listed, _⟩ :=
    atcIter_lists coherent coordinate.publicKey .lowercaseD coordinate.identifier .min until_
  have ran : (removeAddressable coordinate until_).run db = (.ok (), db.removeAll
      ((events.filter fun event => event.kind = coordinate.kind.asU16).map EventIndexKeys.new)) := by
    have scanned := filterMap_getEventById fun event member => ((listed.mem event).mp member).1
    rw [← listed.ids_eq] at scanned
    rw [← scanned]
    unfold removeAddressable
    rw [addressable]
    rfl
  refine ⟨_, ran, removeAll_removes coherent fun event => ?_⟩
  rw [List.mem_filter, listed.mem event, decide_eq_true_iff, Rival, Version, InRange]
  tauto

/-! ## Replacing older versions -/

theorem hasEventBeenReplaced_iff {stored : DatabaseEvent} {event : Event} :
    hasEventBeenReplaced stored event = true ↔
      stored.orderingKey < (DatabaseEvent.ofEvent event).orderingKey := by
  rw [DatabaseEvent.orderingKey, DatabaseEvent.orderingKey, Prod.Lex.toLex_lt_toLex,
    OrderDual.toDual_lt_toDual, EmbeddingLike.apply_eq_iff_eq]
  unfold hasEventBeenReplaced
  change _ ↔ event.createdAt < stored.createdAt ∨ stored.createdAt = event.createdAt ∧ _ < event.id
  split
  · next newer => simp [newer]
  · next notNewer =>
      split
      · next same => simp [same]
      · next other => simp [notNewer, other]

/-- The first of the events in a sorted listing stands against the new event if
any of them does. -/
theorem head_replaces {event : Event} {head : DatabaseEvent} {rest : List DatabaseEvent}
    (sorted : (head :: rest).Pairwise fun left right => left.orderingKey < right.orderingKey)
    {stored : DatabaseEvent} (member : stored ∈ head :: rest)
    (stays : hasEventBeenReplaced stored event = true) : hasEventBeenReplaced head event = true := by
  cases List.mem_cons.mp member with
  | inl same => exact same ▸ stays
  | inr later =>
      have before := (List.pairwise_cons.mp sorted).1 stored later
      exact hasEventBeenReplaced_iff.mpr (before.trans (hasEventBeenReplaced_iff.mp stays))

/-- The step leaves the store alone if one of these versions stands against the
event, and removes them all otherwise. -/
def Replaces (versions : DatabaseEvent → Prop) (event : Event) (step : Txn Bool) : Prop :=
  ∀ db : Lmdb, db.Coherent →
    ((∃ stored, db.Stored stored ∧ versions stored ∧ hasEventBeenReplaced stored event = true) →
      step.run db = (.ok true, db)) ∧
    ((∀ stored, db.Stored stored → versions stored → hasEventBeenReplaced stored event = false) →
      ∃ after, step.run db = (.ok false, after) ∧ Removes versions db after)

/-- What such a step does with the listing of the versions, newest first: it
looks at the first one, and removes them up to a time no earlier than the
event's. -/
def ScansVersions (versions : DatabaseEvent → Prop) (event : Event) (step : Txn Bool) (db : Lmdb) :
    List DatabaseEvent → Prop
  | [] => step.run db = (.ok false, db)
  | head :: _ =>
      if hasEventBeenReplaced head event then step.run db = (.ok true, db)
      else ∃ until_ after, event.createdAt ≤ until_ ∧ step.run db = (.ok false, after) ∧
        Removes (fun stored => versions stored ∧ stored.createdAt ≤ until_) db after

theorem replaces_of_scan {versions : DatabaseEvent → Prop} {event : Event} {step : Txn Bool}
    (scans : ∀ db : Lmdb, db.Coherent → ∃ events : List DatabaseEvent,
      (∀ stored, stored ∈ events ↔ db.Stored stored ∧ versions stored) ∧
      (events.Pairwise fun left right => left.orderingKey < right.orderingKey) ∧
      ScansVersions versions event step db events) : Replaces versions event step := by
  intro db coherent
  obtain ⟨events, mem, sorted, scanned⟩ := scans db coherent
  cases events with
  | nil =>
      have none : ∀ stored, db.Stored stored → ¬ versions stored :=
        fun stored present version => by cases (mem stored).mpr ⟨present, version⟩
      constructor
      · intro some
        obtain ⟨stored, present, version, _⟩ := some
        exact absurd version (none stored present)
      · exact fun _ => ⟨db, scanned, .nothing coherent none⟩
  | cons head rest =>
      obtain ⟨headStored, headVersion⟩ := (mem head).mp List.mem_cons_self
      simp only [ScansVersions] at scanned
      split at scanned
      · next stays =>
          refine ⟨fun _ => scanned, fun clear => ?_⟩
          rw [clear head headStored headVersion] at stays
          cases stays
      · next newer =>
          constructor
          · intro some
            obtain ⟨stored, present, version, beats⟩ := some
            exact absurd (head_replaces sorted ((mem stored).mpr ⟨present, version⟩) beats) newer
          · intro clear
            obtain ⟨until_, after, late, ran, removes⟩ := scanned
            refine ⟨after, ran, removes.congr fun stored present => ?_⟩
            refine ⟨fun version => ⟨version, le_trans (not_lt.mp fun later => ?_) late⟩, And.left⟩
            have beats := clear stored present version
            rw [hasEventBeenReplaced, if_pos later] at beats
            cases beats

theorem replaceReplaceable_replaces {event : Event} (replaceable : event.kind.isReplaceable = true) :
    Replaces (Version event.pubkey event.kind.asU16) event (replaceReplaceable event) := by
  apply replaces_of_scan
  intro db coherent
  obtain ⟨events, listed, sorted⟩ := akcIter_lists coherent event.pubkey event.kind.asU16 .min .max
  have mem : ∀ stored, stored ∈ events ↔
      db.Stored stored ∧ Version event.pubkey event.kind.asU16 stored := fun stored => by
    rw [listed.mem stored, Version, InRange]
    have bounded := Timestamp.le_max stored.createdAt
    tauto
  refine ⟨events, mem, sorted, ?_⟩
  cases events with
  | nil =>
      have found : db.findReplaceableEvent event.pubkey event.kind = .ok none := by
        unfold findReplaceableEvent
        rw [replaceable, listed.ids_eq]
        rfl
      unfold ScansVersions replaceReplaceable
      rw [if_pos replaceable,
        run_read_bind (fun db : Lmdb => db.findReplaceableEvent event.pubkey event.kind) found]
      rfl
  | cons head rest =>
      have found : db.findReplaceableEvent event.pubkey event.kind = .ok (some head) := by
        have present : db.getEventById head.id = some head := ((mem head).mp List.mem_cons_self).1
        unfold findReplaceableEvent
        rw [replaceable, listed.ids_eq]
        exact congrArg Except.ok present
      unfold ScansVersions replaceReplaceable
      rw [if_pos replaceable,
        run_read_bind (fun db : Lmdb => db.findReplaceableEvent event.pubkey event.kind) found]
      dsimp only
      cases hasEventBeenReplaced head event with
      | true => rfl
      | false =>
          obtain ⟨after, removed, removes⟩ := removeReplaceable_run coherent
            { kind := event.kind, publicKey := event.pubkey, identifier := "" }
            replaceable event.createdAt
          refine ⟨event.createdAt, after, le_refl _, ?_, removes⟩
          rw [if_neg Bool.false_ne_true, run_bind, removed]
          rfl

theorem firstOfKind_of_stored {db : Lmdb} {kind : UInt16} {events : List DatabaseEvent}
    (stored : ∀ event ∈ events, db.Stored event) :
    db.firstOfKind kind (events.map DatabaseEvent.id) =
      .ok (events.filter fun event => event.kind = kind).head? := by
  induction events with
  | nil => rfl
  | cons event events ih =>
      have found : db.getEventById event.id = some event := stored event List.mem_cons_self
      have later := ih fun other member => stored other (.tail _ member)
      rw [List.map_cons, firstOfKind, found, List.filter_cons]
      by_cases same : event.kind = kind
      · simp [same]
      · simp [same, later]

/-- The addressable event that was looked up decides how the step goes on. -/
theorem replaceAddressable_of_found {event : Event} {identifier : String}
    (addressable : event.kind.isAddressable = true)
    (identified : Tags.identifier event.tags = some identifier) {db : Lmdb}
    {newest : Option DatabaseEvent} :
    db.findAddressableEvent { kind := event.kind, publicKey := event.pubkey, identifier } =
      .ok newest → (replaceAddressable event).run db =
      (match newest with
        | none => return false
        | some stored => do
            if hasEventBeenReplaced stored event then return true
            removeAddressable { kind := event.kind, publicKey := event.pubkey, identifier } .max
            return false : Txn Bool).run db := by
  intro found
  unfold replaceAddressable
  rw [if_pos addressable, identified]
  apply (run_read_bind (fun db : Lmdb => db.findAddressableEvent
    { kind := event.kind, publicKey := event.pubkey, identifier }) found _).trans
  cases newest <;> rfl

theorem replaceAddressable_replaces {event : Event} {identifier : String}
    (addressable : event.kind.isAddressable = true)
    (identified : Tags.identifier event.tags = some identifier) :
    Replaces (Rival event.pubkey event.kind.asU16 identifier) event (replaceAddressable event) := by
  apply replaces_of_scan
  intro db coherent
  obtain ⟨listing, listed, sorted⟩ :=
    atcIter_lists coherent event.pubkey .lowercaseD identifier .min .max
  let coordinate : Coordinate := { kind := event.kind, publicKey := event.pubkey, identifier }
  let events := listing.filter fun stored => stored.kind = event.kind.asU16
  have mem : ∀ stored, stored ∈ events ↔
      db.Stored stored ∧ Rival event.pubkey event.kind.asU16 identifier stored := fun stored => by
    rw [List.mem_filter, listed.mem stored, decide_eq_true_iff, Rival, Version, InRange]
    have bounded := Timestamp.le_max stored.createdAt
    tauto
  have found : db.findAddressableEvent coordinate = .ok events.head? := by
    unfold findAddressableEvent
    rw [if_neg (by simp [coordinate, addressable])]
    dsimp only [coordinate]
    rw [listed.ids_eq]
    exact firstOfKind_of_stored fun stored member => ((listed.mem stored).mp member).1
  have ran := replaceAddressable_of_found addressable identified found
  refine ⟨events, mem, sorted.filter _, ?_⟩
  clear_value events
  cases events with
  | nil => exact ran
  | cons head rest =>
      rw [List.head?_cons] at ran
      simp only [ScansVersions]
      cases stays : hasEventBeenReplaced head event with
      | true =>
          rw [if_pos rfl, ran]
          simp only [stays, if_true]
          rfl
      | false =>
          rw [if_neg Bool.false_ne_true]
          obtain ⟨after, removed, removes⟩ := removeAddressable_run coherent coordinate addressable .max
          refine ⟨.max, after, Timestamp.le_max _, ?_, removes⟩
          rw [ran]
          simp only [stays, Bool.false_eq_true, if_false]
          rw [run_bind, removed]
          rfl

theorem replaceReplaceable_other {event : Event} (other : event.kind.isReplaceable = false)
    (db : Lmdb) : (replaceReplaceable event).run db = (.ok false, db) := by
  unfold replaceReplaceable
  rw [other]
  rfl

theorem replaceAddressable_other {event : Event}
    (other : event.kind.isAddressable = false ∨ Tags.identifier event.tags = none) (db : Lmdb) :
    (replaceAddressable event).run db = (.ok false, db) := by
  unfold replaceAddressable
  cases addressable : event.kind.isAddressable with
  | false => rfl
  | true =>
      cases other with
      | inl notAddressable => cases addressable.symm.trans notAddressable
      | inr absent =>
          rw [absent]
          rfl

/-! ## The checks before any write -/

/-- Nothing that is looked up before the first write stands against the event. -/
structure Admits (options : LmdbOptions) (db : Lmdb) (event : Event) : Prop where
  notEphemeral : event.kind.isEphemeral = false
  fresh : db.hasEvent event.id = false
  notDeleted : db.isDeleted event.id = false
  notDeletedByAuthor :
    (options.processNip09 && event.kind != .eventDeletion &&
      db.isDeletedByAuthor event.id event.pubkey) = false
  notVanished : db.isPubkeyVanished event.pubkey = false
  coordinateAlive : db.isCoordinateDeleted event = false

/-- What follows these checks. -/
def replaceAndStore (externals : Externals) (options : LmdbOptions) (order : HashOrder)
    (event : Event) : Txn SaveEventStatus := do
  if ← replaceReplaceable event then return .rejected .replaced
  if ← replaceAddressable event then return .rejected .replaced
  if options.processNip09 && event.kind == .eventDeletion then
    if ← handleDeletionEvent externals event then return .rejected .invalidDelete
  if options.processNip62 && event.kind == .requestToVanish &&
      Nip62.isValidVanishRequestForRelay externals event.tags options.relayUrl then
    handleRequestToVanish externals order event.pubkey
  modify fun db => db.store (.ofEvent event)
  return .success

section Save

variable {externals : Externals} {options : LmdbOptions} {order : HashOrder} {event : Event}
  {db : Lmdb}

theorem save_of_admits (admits : Admits options db event) :
    (saveEventWithTxn externals options order event).run db =
      (replaceAndStore externals options order event).run db := by
  simp only [saveEventWithTxn, run_get_bind, admits.notEphemeral, admits.fresh, admits.notDeleted,
    admits.notDeletedByAuthor, admits.notVanished, admits.coordinateAlive, Bool.false_eq_true,
    if_false]
  rfl

/-- Only a tombstone of the author is turned into one of the ID. -/
def Promoted (options : LmdbOptions) (event : Event) (before after : Lmdb) : Prop :=
  options.processNip09 = true ∧ (event.kind != .eventDeletion) = true ∧
    before.isDeletedByAuthor event.id event.pubkey = true ∧
    after = before.markDeleted event.id

/-- Why an event that is not admitted is refused. -/
inductive Refusal (db : Lmdb) (event : Event) : RejectedReason → Prop where
  | ephemeral (holds : event.kind.isEphemeral = true) : Refusal db event .ephemeral
  | duplicate (holds : db.hasEvent event.id = true) : Refusal db event .duplicate
  | deleted : Refusal db event .deleted
  | vanished : Refusal db event .vanished

theorem save_of_not_admits (refuses : ¬ Admits options db event) :
    ∃ reason after, Refusal db event reason ∧
      (saveEventWithTxn externals options order event).run db = (.ok (.rejected reason), after) ∧
      (after = db ∨ Promoted options event db after) := by
  unfold saveEventWithTxn
  cases ephemeral : event.kind.isEphemeral with
  | true => exact ⟨.ephemeral, db, .ephemeral ephemeral, rfl, .inl rfl⟩
  | false =>
  rw [if_neg Bool.false_ne_true, run_get_bind]
  cases fresh : db.hasEvent event.id with
  | true => exact ⟨.duplicate, db, .duplicate fresh, rfl, .inl rfl⟩
  | false =>
  rw [if_neg Bool.false_ne_true, run_get_bind]
  cases deleted : db.isDeleted event.id with
  | true => exact ⟨.deleted, db, .deleted, rfl, .inl rfl⟩
  | false =>
  rw [if_neg Bool.false_ne_true, run_get_bind]
  cases byAuthor : options.processNip09 && event.kind != .eventDeletion &&
      db.isDeletedByAuthor event.id event.pubkey with
  | true =>
      simp only [Bool.and_eq_true, and_assoc] at byAuthor
      exact ⟨.deleted, _, .deleted, rfl, .inr ⟨byAuthor.1, byAuthor.2.1, byAuthor.2.2, rfl⟩⟩
  | false =>
  rw [if_neg Bool.false_ne_true, run_get_bind]
  cases vanished : db.isPubkeyVanished event.pubkey with
  | true => exact ⟨.vanished, db, .vanished, rfl, .inl rfl⟩
  | false =>
  rw [if_neg Bool.false_ne_true, run_get_bind]
  cases coordinate : db.isCoordinateDeleted event with
  | true => exact ⟨.deleted, db, .deleted, rfl, .inl rfl⟩
  | false => exact absurd ⟨ephemeral, fresh, deleted, byAuthor, vanished, coordinate⟩ refuses

/-! ## What follows the checks -/

/-- The stored events that the event replaces, or that keep it out. -/
def versionsOf (event : Event) (stored : DatabaseEvent) : Prop :=
  (event.kind.isReplaceable = true ∧ Version event.pubkey event.kind.asU16 stored) ∨
    (event.kind.isAddressable = true ∧ ∃ identifier, Tags.identifier event.tags = some identifier ∧
      Rival event.pubkey event.kind.asU16 identifier stored)

def vanishAndStore (externals : Externals) (options : LmdbOptions) (order : HashOrder)
    (event : Event) : Txn SaveEventStatus := do
  if options.processNip62 && event.kind == .requestToVanish &&
      Nip62.isValidVanishRequestForRelay externals event.tags options.relayUrl then
    handleRequestToVanish externals order event.pubkey
  modify fun db => db.store (.ofEvent event)
  return .success

/-- What follows the replacement. -/
def finishSave (externals : Externals) (options : LmdbOptions) (order : HashOrder)
    (event : Event) : Txn SaveEventStatus := do
  if options.processNip09 && event.kind == .eventDeletion then
    if ← handleDeletionEvent externals event then return .rejected .invalidDelete
  vanishAndStore externals options order event

theorem replaceAndStore_of_steps {stays : Bool} {middle after : Lmdb}
    (first : (replaceReplaceable event).run db = (.ok false, middle))
    (second : (replaceAddressable event).run middle = (.ok stays, after)) :
    (replaceAndStore externals options order event).run db =
      if stays then (.ok (.rejected .replaced), after)
      else (finishSave externals options order event).run after := by
  unfold replaceAndStore
  rw [run_bind, first]
  dsimp only
  rw [if_neg Bool.false_ne_true, run_bind, second]
  cases stays <;> rfl

/-- The event is kept out by a version that stands against it, or takes the
place of all its versions. -/
theorem replaceAndStore_run (coherent : db.Coherent) :
    ((∃ stored, db.Stored stored ∧ versionsOf event stored ∧
        hasEventBeenReplaced stored event = true) →
      (replaceAndStore externals options order event).run db =
        (.ok (.rejected .replaced), db)) ∧
    ((∀ stored, db.Stored stored → versionsOf event stored →
        hasEventBeenReplaced stored event = false) →
      ∃ middle, Removes (versionsOf event) db middle ∧
        (replaceAndStore externals options order event).run db =
          (finishSave externals options order event).run middle) := by
  cases replaceable : event.kind.isReplaceable with
  | true =>
      have notAddressable := Kind.not_isAddressable_of_isReplaceable replaceable
      have same : versionsOf event = Version event.pubkey event.kind.asU16 := by
        funext stored
        simp [versionsOf, replaceable, notAddressable]
      rw [same]
      obtain ⟨stays, moves⟩ := replaceReplaceable_replaces replaceable db coherent
      constructor
      · intro beaten
        unfold replaceAndStore
        rw [run_bind, stays beaten]
        rfl
      · intro clear
        obtain ⟨middle, ran, removes⟩ := moves clear
        exact ⟨middle, removes, replaceAndStore_of_steps ran
          (replaceAddressable_other (.inl notAddressable) middle)⟩
  | false =>
      have first := replaceReplaceable_other replaceable db
      by_cases identified : event.kind.isAddressable = true ∧ (Tags.identifier event.tags).isSome
      · obtain ⟨addressable, present⟩ := identified
        obtain ⟨identifier, identified⟩ := Option.isSome_iff_exists.mp present
        have same : versionsOf event = Rival event.pubkey event.kind.asU16 identifier := by
          funext stored
          simp [versionsOf, replaceable, addressable, identified]
        rw [same]
        obtain ⟨stays, moves⟩ := replaceAddressable_replaces addressable identified db coherent
        constructor
        · exact fun beaten => replaceAndStore_of_steps first (stays beaten)
        · intro clear
          obtain ⟨after, ran, removes⟩ := moves clear
          exact ⟨after, removes, replaceAndStore_of_steps first ran⟩
      · have other : event.kind.isAddressable = false ∨ Tags.identifier event.tags = none := by
          cases addressable : event.kind.isAddressable with
          | false => exact .inl rfl
          | true => exact .inr (by simpa [addressable] using identified)
        have none : ∀ stored, ¬ versionsOf event stored := by
          intro stored version
          cases version with
          | inl version => cases replaceable.symm.trans version.1
          | inr version =>
              obtain ⟨addressable, identifier, present, _⟩ := version
              cases other with
              | inl notAddressable => cases notAddressable.symm.trans addressable
              | inr absent => cases absent.symm.trans present
        constructor
        · intro some
          obtain ⟨stored, _, version, _⟩ := some
          exact absurd version (none stored)
        · exact fun _ => ⟨db, .nothing coherent fun stored _ => none stored,
            replaceAndStore_of_steps first (replaceAddressable_other other db)⟩

theorem finishSave_ordinary (ordinary : (event.kind == .eventDeletion) = false ∧
    (event.kind == .requestToVanish) = false) :
    (finishSave externals options order event).run db =
      (.ok .success, db.store (.ofEvent event)) := by
  unfold finishSave vanishAndStore
  rw [ordinary.1, ordinary.2, Bool.and_false, Bool.and_false, Bool.false_and]
  rfl

/-! ## Deletion targets -/

/-- A deletion request reaches the stored events that it names by ID, all of
them its author's. -/
theorem collectTargets_some {author : PublicKey} {ids : List EventId}
    {known : List (EventId × EventIndexKeys)} {unknown : List EventId}
    (collected : db.collectTargets author ids = some (known, unknown)) :
    known = ids.filterMap (fun id => (db.getEventById id).map fun target =>
      (id, EventIndexKeys.new target)) ∧
    unknown = ids.filter (fun id => (db.getEventById id).isNone) ∧
    ∀ id ∈ ids, ∀ target, db.getEventById id = some target → target.pubkey = author := by
  induction ids generalizing known unknown with
  | nil =>
      cases collected
      exact ⟨rfl, rfl, fun id member => by cases member⟩
  | cons id ids ih =>
      rcases collectTargets_cons collected with
        ⟨others, absent, rest, shape⟩ | ⟨target, others, found, owner, rest, shape⟩
      · obtain ⟨knownEq, unknownEq, owners⟩ := ih rest
        refine ⟨by simp [absent, knownEq], by simp [absent, shape, unknownEq], fun other member => ?_⟩
        cases List.mem_cons.mp member with
        | inl same => simp [same, absent]
        | inr later => exact owners other later
      · obtain ⟨knownEq, unknownEq, owners⟩ := ih rest
        refine ⟨by simp [found, shape, knownEq], by simp [found, unknownEq], fun other member => ?_⟩
        cases List.mem_cons.mp member with
        | inl same => simpa [same, found] using owner
        | inr later => exact owners other later

theorem collectTargets_infos {author : PublicKey} {ids : List EventId}
    {known : List (EventId × EventIndexKeys)} {unknown : List EventId}
    (collected : db.collectTargets author ids = some (known, unknown)) :
    known.map Prod.snd = (ids.filterMap db.getEventById).map EventIndexKeys.new := by
  rw [(collectTargets_some collected).1, List.map_filterMap, List.map_filterMap]
  congr
  funext id
  cases db.getEventById id <;> rfl

/-! ## Rejections -/

theorem handleDeletionEvent_rejects {after : Lmdb}
    (rejects : (handleDeletionEvent externals event).run db = (.ok true, after)) : after = db := by
  have returns : ∀ (program : Txn PUnit) (start : Lmdb),
      (program >>= fun _ => (return false : Txn Bool)).run start ≠ (.ok true, after) := by
    intro program start ran
    rw [run_bind] at ran
    rcases h : program.run start with ⟨outcome, middle⟩
    rw [h] at ran
    cases outcome <;> cases ran
  unfold handleDeletionEvent at rejects
  dsimp only at rejects
  by_cases foreign : (Tags.coordinates externals event.tags).any
      (fun coordinate => coordinate.publicKey ≠ event.pubkey) = true
  · rw [if_pos foreign] at rejects
    cases rejects
    rfl
  · rw [if_neg foreign, run_get_bind] at rejects
    cases collected : db.collectTargets event.pubkey (Tags.eventIds externals event.tags) with
    | none =>
        rw [collected] at rejects
        cases rejects
        rfl
    | some targets =>
        rw [collected] at rejects
        dsimp only at rejects
        rw [run_bind] at rejects
        exact absurd rejects (returns _ _)

theorem vanishAndStore_returns {status : SaveEventStatus} {after : Lmdb}
    (ran : (vanishAndStore externals options order event).run db = (.ok status, after)) :
    status = .success := by
  unfold vanishAndStore at ran
  split at ran
  · rw [run_bind] at ran
    rcases h : (handleRequestToVanish externals order event.pubkey).run db with ⟨outcome, middle⟩
    rw [h] at ran
    cases outcome with
    | error error => cases ran
    | ok _ =>
        cases ran
        rfl
  · cases ran
    rfl

theorem finishSave_rejects {reason : RejectedReason} {after : Lmdb}
    (rejects : (finishSave externals options order event).run db = (.ok (.rejected reason), after)) :
    reason = .invalidDelete ∧ after = db := by
  unfold finishSave at rejects
  split at rejects
  · rw [run_bind] at rejects
    rcases handled : (handleDeletionEvent externals event).run db with ⟨outcome, middle⟩
    rw [handled] at rejects
    cases outcome with
    | error error => cases rejects
    | ok invalid =>
        cases invalid with
        | true =>
            cases rejects
            exact ⟨rfl, handleDeletionEvent_rejects handled⟩
        | false => cases vanishAndStore_returns rejects
  · cases vanishAndStore_returns rejects

theorem replaceAndStore_rejects (coherent : db.Coherent) {reason : RejectedReason} {after : Lmdb}
    (rejects : (replaceAndStore externals options order event).run db =
      (.ok (.rejected reason), after)) :
    (reason = .replaced ∨ reason = .invalidDelete) ∧ after = db := by
  by_cases special : event.kind.isReplaceable = true ∨ event.kind.isAddressable = true
  · obtain ⟨stays, moves⟩ := @replaceAndStore_run externals options order event db coherent
    by_cases beaten : ∃ stored, db.Stored stored ∧ versionsOf event stored ∧
        hasEventBeenReplaced stored event = true
    · rw [stays beaten] at rejects
      cases rejects
      exact ⟨.inl rfl, rfl⟩
    · obtain ⟨middle, _, ran⟩ := moves fun stored present version =>
        Bool.eq_false_iff.mpr fun beats => beaten ⟨stored, present, version, beats⟩
      have ordinary : (event.kind == .eventDeletion) = false ∧
          (event.kind == .requestToVanish) = false := by
        cases special with
        | inl replaceable => exact Kind.not_special_of_isReplaceable replaceable
        | inr addressable => exact Kind.not_special_of_isAddressable addressable
      rw [ran, finishSave_ordinary ordinary] at rejects
      cases rejects
  · simp only [not_or, Bool.not_eq_true] at special
    rw [replaceAndStore_of_steps (replaceReplaceable_other special.1 db)
      (replaceAddressable_other (.inl special.2) db)] at rejects
    obtain ⟨invalid, same⟩ := finishSave_rejects rejects
    exact ⟨.inr invalid, same⟩

/-- A rejected save leaves the store as it is, but for a tombstone that it may
promote. -/
theorem save_rejected (coherent : db.Coherent) {reason : RejectedReason} {after : Lmdb}
    (rejects : (saveEventWithTxn externals options order event).run db =
      (.ok (.rejected reason), after)) : after = db ∨ Promoted options event db after := by
  by_cases admits : Admits options db event
  · rw [save_of_admits admits] at rejects
    exact .inl (replaceAndStore_rejects coherent rejects).2
  · obtain ⟨_, after', _, ran, kept⟩ := @save_of_not_admits externals options order event db admits
    cases rejects.symm.trans ran
    exact kept

end Save

end RustNostr.NostrLmdb.Lmdb
