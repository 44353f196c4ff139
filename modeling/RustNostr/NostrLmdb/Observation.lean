import Mathlib
import RustNostr.NostrLmdb.Saving
import RustNostr.NostrLmdb.QueryRuns

/-!
# What can be observed of a store

Queries and counts look at the events and their indexes only, so two stores that
differ in their tombstones answer alike. What later operations answer also
depends on the tombstones: here a relation between stores that every operation
keeps is a bisimulation.
-/

set_option autoImplicit false

namespace RustNostr.NostrLmdb.Lmdb

open Library Transaction

/-- The events and indexes are as they were. -/
structure SameEvents (before after : Lmdb) : Prop where
  events : after.events = before.events
  ciIndex : after.ciIndex = before.ciIndex
  tcIndex : after.tcIndex = before.tcIndex
  acIndex : after.acIndex = before.acIndex
  akcIndex : after.akcIndex = before.akcIndex
  atcIndex : after.atcIndex = before.atcIndex
  kcIndex : after.kcIndex = before.kcIndex
  ktcIndex : after.ktcIndex = before.ktcIndex

namespace SameEvents

variable {before after : Lmdb} (same : SameEvents before after)

include same

theorem getEventById (id : EventId) : after.getEventById id = before.getEventById id := by
  rw [Lmdb.getEventById, same.events, Lmdb.getEventById]

theorem scan (filter : DatabaseFilter) (limit : Option Nat) (firstOnly : Bool)
    (ids : List EventId) (count : Nat) (state : QueryState) :
    after.scan filter limit firstOnly ids count state =
      before.scan filter limit firstOnly ids count state := by
  induction ids generalizing count state with
  | nil => rfl
  | cons id ids ih => simp only [Lmdb.scan, same.getEventById, ih]

theorem queryByIds (filter : DatabaseFilter) (limit : Option Nat) (ids : List EventId)
    (output : Output) : after.queryByIds filter limit ids output =
      before.queryByIds filter limit ids output := by
  induction ids generalizing output with
  | nil => rfl
  | cons id ids ih => simp only [Lmdb.queryByIds, same.getEventById, ih]

theorem query (order : HashOrder) (request : Filter) :
    after.query order request = before.query order request := by
  have found : after.getEventById = before.getEventById := funext same.getEventById
  simp only [Lmdb.query, same.queryByIds, queryByAuthorsAndKinds, queryByAuthorsAndTags,
    queryByAuthorsKindsAndTags, queryByKindsAndTags, queryByTags, queryByAuthors, queryByKinds,
    queryByScraping, iterateFilterUntilLimit, same.scan, akcIter, atcIter, ktcIter, tcIter, acIter,
    kcIter, ciIter, same.akcIndex, same.atcIndex, same.ktcIndex, same.tcIndex, same.acIndex,
    same.kcIndex, same.ciIndex, found]

theorem count (order : HashOrder) (request : Filter) :
    after.count order request = before.count order request := by
  simp only [Lmdb.count, same.query, same.ciIndex, ciIter]

theorem collectTargets (author : PublicKey) (ids : List EventId) :
    after.collectTargets author ids = before.collectTargets author ids := by
  induction ids with
  | nil => rfl
  | cons id ids ih => simp only [Lmdb.collectTargets, same.getEventById, ih]

theorem findReplaceableEvent (author : PublicKey) (kind : Kind) :
    after.findReplaceableEvent author kind = before.findReplaceableEvent author kind := by
  simp only [Lmdb.findReplaceableEvent, akcIter, same.akcIndex, same.getEventById]

theorem findAddressableEvent (addr : Coordinate) :
    after.findAddressableEvent addr = before.findAddressableEvent addr := by
  have first : ∀ (kind : UInt16) (ids : List EventId),
      after.firstOfKind kind ids = before.firstOfKind kind ids := by
    intro kind ids
    induction ids with
    | nil => rfl
    | cons id ids ih => simp only [firstOfKind, same.getEventById, ih]
  simp only [Lmdb.findAddressableEvent, atcIter, same.atcIndex, first]

end SameEvents

/-- The two stores answer every query and count alike. -/
def AnswersAlike (left right : Lmdb) : Prop :=
  ∀ order request, right.query order request = left.query order request ∧
    right.count order request = left.count order request

theorem SameEvents.answersAlike {before after : Lmdb} (same : SameEvents before after) :
    AnswersAlike before after :=
  fun order request => ⟨same.query order request, same.count order request⟩

theorem SameEvents.refl (db : Lmdb) : SameEvents db db := ⟨rfl, rfl, rfl, rfl, rfl, rfl, rfl, rfl⟩

theorem SameEvents.remove {left right : Lmdb} (same : SameEvents left right)
    (event : DatabaseEvent) : SameEvents (left.remove (EventIndexKeys.new event))
      (right.remove (EventIndexKeys.new event)) := by
  rw [remove_eq, remove_eq]
  constructor <;> simp only [same.events, same.ciIndex, same.tcIndex, same.acIndex, same.akcIndex,
    same.atcIndex, same.kcIndex, same.ktcIndex]

theorem SameEvents.store {left right : Lmdb} (same : SameEvents left right)
    (event : DatabaseEvent) : SameEvents (left.store event) (right.store event) := by
  rw [Lmdb.store, Lmdb.store, indexEvent_eq, indexEvent_eq]
  constructor <;> simp only [same.events, same.ciIndex, same.tcIndex, same.acIndex, same.akcIndex,
    same.atcIndex, same.kcIndex, same.ktcIndex]

/-! ## Relations between stores -/

/-- Related stores have the same events, and stay related when the same change
is made to both. -/
structure Bisimilar (related : Lmdb → Lmdb → Prop) : Prop where
  refl : ∀ db, related db db
  sameEvents : ∀ left right, related left right → SameEvents left right
  remove : ∀ left right event, related left right →
    related (left.remove (EventIndexKeys.new event)) (right.remove (EventIndexKeys.new event))
  store : ∀ left right event, related left right → related (left.store event) (right.store event)
  markDeleted : ∀ left right id, related left right →
    related (left.markDeleted id) (right.markDeleted id)
  markDeletedByAuthor : ∀ left right id author, related left right →
    related (left.markDeletedByAuthor id author) (right.markDeletedByAuthor id author)
  markCoordinate : ∀ (left right : Lmdb) key when, related left right →
    related { left with deletedCoordinates := left.deletedCoordinates.put key when }
      { right with deletedCoordinates := right.deletedCoordinates.put key when }
  markPubkeyVanished : ∀ left right pk, related left right →
    related (left.markPubkeyVanished pk) (right.markPubkeyVanished pk)

/-- No tombstone tells the two stores apart when this event is saved. -/
structure TombstonesAgree (options : LmdbOptions) (event : Event) (left right : Lmdb) : Prop where
  deleted : right.isDeleted event.id = left.isDeleted event.id
  byAuthor : (options.processNip09 && event.kind != .eventDeletion &&
      right.isDeletedByAuthor event.id event.pubkey) =
    (options.processNip09 && event.kind != .eventDeletion &&
      left.isDeletedByAuthor event.id event.pubkey)
  vanished : right.isPubkeyVanished event.pubkey = left.isPubkeyVanished event.pubkey
  coordinate : right.isCoordinateDeleted event = left.isCoordinateDeleted event

namespace Bisimilar

variable {related : Lmdb → Lmdb → Prop} (bisimilar : Bisimilar related)

include bisimilar

theorem removeAll {left right : Lmdb} (holds : related left right) (events : List DatabaseEvent) :
    related (left.removeAll (events.map EventIndexKeys.new))
      (right.removeAll (events.map EventIndexKeys.new)) := by
  induction events generalizing left right with
  | nil => exact holds
  | cons event events ih => exact ih (bisimilar.remove left right event holds)

theorem getEventById {left right : Lmdb} (holds : related left right) :
    right.getEventById = left.getEventById :=
  funext (bisimilar.sameEvents left right holds).getEventById

theorem respects_delete (order : HashOrder) (filter : Filter) :
    Respects related (delete order filter) :=
  Respects.read_bind (fun left right holds =>
    (bisimilar.sameEvents left right holds).query order filter) fun events =>
      Respects.modify fun _ _ holds => bisimilar.removeAll holds events

theorem respects_removeReplaceable (coordinate : Coordinate) (until_ : Timestamp) :
    Respects related (removeReplaceable coordinate until_) := by
  refine Respects.ite (Respects.throw _) (Respects.modify fun left right holds => ?_)
  rw [akcIter, akcIter, (bisimilar.sameEvents left right holds).akcIndex,
    bisimilar.getEventById holds]
  exact bisimilar.removeAll holds _

theorem respects_removeAddressable (coordinate : Coordinate) (until_ : Timestamp) :
    Respects related (removeAddressable coordinate until_) := by
  refine Respects.ite (Respects.throw _) (Respects.modify fun left right holds => ?_)
  rw [atcIter, atcIter, (bisimilar.sameEvents left right holds).atcIndex,
    bisimilar.getEventById holds]
  exact bisimilar.removeAll holds _

theorem respects_replaceReplaceable (event : Event) : Respects related (replaceReplaceable event) := by
  refine Respects.ite ?_ (Respects.pure _)
  refine Respects.read_bind (fun left right holds =>
    (bisimilar.sameEvents left right holds).findReplaceableEvent event.pubkey event.kind) ?_
  intro stored
  cases stored with
  | none => exact Respects.pure _
  | some stored =>
      exact Respects.ite (Respects.pure _)
        (Respects.bind (bisimilar.respects_removeReplaceable _ _) fun _ => Respects.pure _)

theorem respects_replaceAddressable (event : Event) : Respects related (replaceAddressable event) := by
  refine Respects.ite ?_ (Respects.pure _)
  cases Tags.identifier event.tags with
  | none => exact Respects.pure _
  | some identifier =>
      refine Respects.read_bind (fun left right holds =>
        (bisimilar.sameEvents left right holds).findAddressableEvent _) ?_
      intro stored
      cases stored with
      | none => exact Respects.pure _
      | some stored =>
          exact Respects.ite (Respects.pure _)
            (Respects.bind (bisimilar.respects_removeAddressable _ _) fun _ => Respects.pure _)

theorem respects_deleteCoordinate (createdAt : Timestamp) (coordinate : Coordinate) :
    Respects related (deleteCoordinate createdAt coordinate) := by
  refine Respects.bind ?_ fun _ => ?_
  · exact Respects.ite (Respects.throw _)
      (Respects.modify fun left right holds => bisimilar.markCoordinate left right _ _ holds)
  · exact Respects.ite (bisimilar.respects_removeReplaceable _ _)
      (Respects.ite (bisimilar.respects_removeAddressable _ _) (Respects.pure _))

theorem markUnknown {left right : Lmdb} (holds : related left right) (author : PublicKey)
    (ids : List EventId) : related (ids.foldl (fun db id => db.markDeletedByAuthor id author) left)
      (ids.foldl (fun db id => db.markDeletedByAuthor id author) right) := by
  induction ids generalizing left right with
  | nil => exact holds
  | cons id ids ih => exact ih (bisimilar.markDeletedByAuthor left right id author holds)

theorem processTargets {left right : Lmdb} (holds : related left right)
    {targets : List (EventId × EventIndexKeys)} {events : List DatabaseEvent}
    (infos : targets.map Prod.snd = events.map EventIndexKeys.new) :
    related (targets.foldl (fun db (id, info) => (db.markDeleted id).remove info) left)
      (targets.foldl (fun db (id, info) => (db.markDeleted id).remove info) right) := by
  induction targets generalizing left right events with
  | nil => exact holds
  | cons target targets ih =>
      cases events with
      | nil => cases infos
      | cons event events =>
          obtain ⟨id, info⟩ := target
          obtain ⟨sameInfo, rest⟩ := List.cons.inj infos
          dsimp only at sameInfo
          subst sameInfo
          exact ih (bisimilar.remove _ _ event (bisimilar.markDeleted left right id holds)) rest

theorem respects_handleDeletionEvent (externals : Externals) (event : Event) :
    Respects related (handleDeletionEvent externals event) := by
  refine Respects.ite (Respects.pure _) (Respects.get_bind fun left right holds => ?_)
  rw [(bisimilar.sameEvents left right holds).collectTargets]
  cases collected : left.collectTargets event.pubkey (Tags.eventIds externals event.tags) with
  | none => exact Respects.pure true left right holds
  | some targets =>
      have infos := collectTargets_infos collected
      refine Respects.bind (Respects.modify ?_) (fun _ => ?_) left right holds
      · exact fun left right holds => bisimilar.markUnknown holds event.pubkey _
      · refine Respects.bind (Respects.modify ?_) fun _ => ?_
        · exact fun left right holds => bisimilar.processTargets holds infos
        · exact Respects.bind (Respects.forM fun coordinate _ =>
            bisimilar.respects_deleteCoordinate _ coordinate) fun _ => Respects.pure _

theorem respects_handleRequestToVanish (externals : Externals) (order : HashOrder) (pubkey : PublicKey) :
    Respects related (handleRequestToVanish externals order pubkey) :=
  Respects.bind (Respects.modify fun left right holds =>
    bisimilar.markPubkeyVanished left right pubkey holds) fun _ =>
    Respects.bind (bisimilar.respects_delete _ _) fun _ => bisimilar.respects_delete _ _

theorem respects_saveEventWithTxn (externals : Externals) {options : LmdbOptions} (order : HashOrder)
    {event : Event}
    (agree : ∀ left right, related left right → TombstonesAgree options event left right) :
    Respects related (saveEventWithTxn externals options order event) := by
  refine Respects.ite (Respects.pure _) (Respects.get_bind_same (fun left right holds => ?_)
    fun _ => ?_)
  · rw [hasEvent, hasEvent, bisimilar.getEventById holds]
  refine Respects.ite (Respects.pure _) (Respects.get_bind_same (fun left right holds => ?_)
    fun _ => ?_)
  · rw [(agree left right holds).deleted]
  refine Respects.ite (Respects.pure _) (Respects.get_bind_same (fun left right holds => ?_)
    fun _ => ?_)
  · rw [(agree left right holds).byAuthor]
  refine Respects.ite ?_ (Respects.get_bind_same (fun left right holds => ?_) fun _ => ?_)
  · exact Respects.bind (Respects.modify fun left right holds =>
      bisimilar.markDeleted left right event.id holds) fun _ => Respects.pure _
  · rw [(agree left right holds).vanished]
  refine Respects.ite (Respects.pure _) (Respects.get_bind_same (fun left right holds => ?_)
    fun _ => ?_)
  · rw [(agree left right holds).coordinate]
  refine Respects.ite (Respects.pure _) ?_
  refine Respects.bind (bisimilar.respects_replaceReplaceable event) fun _ => ?_
  refine Respects.ite (Respects.pure _) ?_
  refine Respects.bind (bisimilar.respects_replaceAddressable event) fun _ => ?_
  refine Respects.ite (Respects.pure _) ?_
  have stores : Respects related (do
      modify fun db => db.store (.ofEvent event)
      return .success : Txn SaveEventStatus) :=
    Respects.bind (Respects.modify fun left right holds =>
      bisimilar.store left right _ holds) fun _ => Respects.pure _
  have vanishes : Respects related (do
      if options.processNip62 && event.kind == .requestToVanish &&
          Nip62.isValidVanishRequestForRelay externals event.tags options.relayUrl then
        handleRequestToVanish externals order event.pubkey
      modify fun db => db.store (.ofEvent event)
      return .success : Txn SaveEventStatus) :=
    Respects.ite (Respects.bind (bisimilar.respects_handleRequestToVanish _ _ _) fun _ => stores) stores
  refine Respects.ite ?_ vanishes
  exact Respects.bind (bisimilar.respects_handleDeletionEvent externals event) fun _ =>
    Respects.ite (Respects.pure _) vanishes

/-- Both stores are rebuilt from the same events. -/
theorem reindex {left right : Lmdb} (holds : related left right) :
    related left.reindex right.reindex := by
  have same : right.reindex = left.reindex := by
    unfold Lmdb.reindex wipeIndexes
    rw [(bisimilar.sameEvents left right holds).events]
  exact same ▸ bisimilar.refl _

theorem respects_processOperation {externals : Externals} {options : LmdbOptions} {order : HashOrder}
    {operation : IngesterOperation}
    (saves : ∀ event, operation = .saveEvent event →
      Respects related (saveEventWithTxn externals options order event)) :
    Respects related (processOperation externals options order operation) := by
  cases operation with
  | reindex =>
      exact Respects.bind (Respects.modify fun _ _ holds => bisimilar.reindex holds) fun _ =>
        Respects.pure _
  | saveEvent event => exact Respects.bind (saves event rfl) fun _ => Respects.pure _
  | delete filter => exact Respects.bind (bisimilar.respects_delete order filter) fun _ => Respects.pure _
  | wipe =>
      exact Respects.bind (Respects.modify fun _ _ _ => bisimilar.refl _) fun _ => Respects.pure _

end Bisimilar

/-! ## Sequences of operations -/

/-- Runs one operation after the other, each in a transaction of its own, and
tells how each went. -/
def perform (externals : Externals) (options : LmdbOptions) :
    List (HashOrder × IngesterOperation) → Lmdb →
      List (Except StoreError OperationResult) × Lmdb
  | [], db => ([], db)
  | (order, operation) :: rest, db =>
      let (answer, middle) := (processOperation externals options order operation).commit db
      let (answers, after) := perform externals options rest middle
      (answer :: answers, after)

theorem commit_save {externals : Externals} {options : LmdbOptions} {order : HashOrder}
    {event : Event} {db after : Lmdb} {status : SaveEventStatus}
    (ran : (saveEventWithTxn externals options order event).run db = (.ok status, after)) :
    (processOperation externals options order (.saveEvent event)).commit db =
      (.ok (.save status), after) := by
  apply commit_of_run
  unfold processOperation
  rw [run_bind, ran]
  rfl

theorem commit_delete {externals : Externals} {options : LmdbOptions} {order : HashOrder}
    {request : Filter} {db after : Lmdb}
    (ran : (delete order request).run db = (.ok (), after)) :
    (processOperation externals options order (.delete request)).commit db = (.ok .done, after) := by
  apply commit_of_run
  unfold processOperation
  rw [run_bind, ran]
  rfl

theorem Bisimilar.perform_alike {related : Lmdb → Lmdb → Prop} (bisimilar : Bisimilar related)
    {externals : Externals} {options : LmdbOptions}
    {operations : List (HashOrder × IngesterOperation)}
    (saves : ∀ order event, (order, .saveEvent event) ∈ operations →
      Respects related (saveEventWithTxn externals options order event))
    {left right : Lmdb} (holds : related left right) :
    (perform externals options operations right).1 =
        (perform externals options operations left).1 ∧
      related (perform externals options operations left).2
        (perform externals options operations right).2 := by
  induction operations generalizing left right with
  | nil => exact ⟨rfl, holds⟩
  | cons operation operations ih =>
      obtain ⟨order, operation⟩ := operation
      have respects := @Bisimilar.respects_processOperation _ bisimilar externals options order operation
        fun event same => saves order event (same ▸ List.mem_cons_self)
      obtain ⟨sameAnswer, middle⟩ := respects.commit holds
      obtain ⟨sameAnswers, reached⟩ :=
        ih (fun order event member => saves order event (.tail _ member)) middle
      exact ⟨congrArg₂ List.cons sameAnswer sameAnswers, reached⟩

/-! ## A rejected save -/

/-- The right store may have turned the author's tombstone for this ID into one
for every author. -/
def OrPromoted (id : EventId) (author : PublicKey) (left right : Lmdb) : Prop :=
  right = left ∨ right = left.markDeleted id ∧ left.isDeletedByAuthor id author = true

theorem markDeleted_comm (id other : EventId) (db : Lmdb) :
    (db.markDeleted id).markDeleted other = (db.markDeleted other).markDeleted id := by
  have ids : (db.deletedIds.insert id).insert other = (db.deletedIds.insert other).insert id := by
    apply SortedTable.ext_get?
    intro key
    simp only [SortedSet.insert, SortedTable.get?_put]
    split <;> split <;> rfl
  unfold markDeleted
  rw [ids]

theorem OrPromoted.bisimilar (id : EventId) (author : PublicKey) :
    Bisimilar (OrPromoted id author) where
  refl _ := .inl rfl
  sameEvents left right holds := by
    cases holds with
    | inl same => exact same ▸ .refl left
    | inr promoted =>
        rw [promoted.1]
        exact ⟨rfl, rfl, rfl, rfl, rfl, rfl, rfl, rfl⟩
  remove left right event holds := by
    cases holds with
    | inl same => exact .inl (same ▸ rfl)
    | inr promoted =>
        rw [promoted.1]
        refine .inr ⟨?_, ?_⟩
        · rw [remove_eq, remove_eq]
          rfl
        · rw [(left.remove_sameTombstones event).isDeletedByAuthor]
          exact promoted.2
  store left right event holds := by
    cases holds with
    | inl same => exact .inl (same ▸ rfl)
    | inr promoted =>
        rw [promoted.1]
        refine .inr ⟨?_, ?_⟩
        · rw [store, store, indexEvent_eq, indexEvent_eq]
          rfl
        · rw [(left.store_sameTombstones event).isDeletedByAuthor]
          exact promoted.2
  markDeleted left right other holds := by
    cases holds with
    | inl same => exact .inl (same ▸ rfl)
    | inr promoted => exact .inr ⟨promoted.1 ▸ markDeleted_comm id other left, promoted.2⟩
  markDeletedByAuthor left right other author' holds := by
    cases holds with
    | inl same => exact .inl (same ▸ rfl)
    | inr promoted =>
        refine .inr ⟨promoted.1 ▸ rfl, ?_⟩
        rw [isDeletedByAuthor_markDeletedByAuthor, promoted.2, Bool.or_true]
  markCoordinate left right key when holds := by
    cases holds with
    | inl same => exact .inl (same ▸ rfl)
    | inr promoted => exact .inr ⟨promoted.1 ▸ rfl, promoted.2⟩
  markPubkeyVanished left right pk holds := by
    cases holds with
    | inl same => exact .inl (same ▸ rfl)
    | inr promoted => exact .inr ⟨promoted.1 ▸ rfl, promoted.2⟩

theorem OrPromoted.tombstonesAgree {id : EventId} {author : PublicKey} {left right : Lmdb}
    (holds : OrPromoted id author left right) (options : LmdbOptions) {event : Event}
    (other : event.id ≠ id) : TombstonesAgree options event left right := by
  cases holds with
  | inl same =>
      subst same
      exact ⟨rfl, rfl, rfl, rfl⟩
  | inr promoted =>
      obtain ⟨same, _⟩ := promoted
      subst same
      exact ⟨by rw [isDeleted_markDeleted, decide_eq_false other, Bool.false_or], rfl, rfl, rfl⟩

/-- The event itself is refused on both sides, and promoted where it was not. -/
theorem OrPromoted.respects_own {externals : Externals} {options : LmdbOptions} {order : HashOrder}
    {event : Event} (processes : options.processNip09 = true)
    (ordinary : (event.kind != .eventDeletion) = true) :
    Respects (OrPromoted event.id event.pubkey)
      (saveEventWithTxn externals options order event) := by
  intro left right holds
  cases holds with
  | inl same =>
      subst same
      exact ⟨rfl, .inl rfl⟩
  | inr promoted =>
      obtain ⟨same, byAuthor⟩ := promoted
      subst same
      have deleted : (left.markDeleted event.id).isDeleted event.id = true := by
        rw [isDeleted_markDeleted, decide_eq_true rfl, Bool.true_or]
      have fresh : (left.markDeleted event.id).hasEvent event.id = left.hasEvent event.id := rfl
      unfold saveEventWithTxn
      cases event.kind.isEphemeral with
      | true => exact ⟨rfl, .inr ⟨rfl, byAuthor⟩⟩
      | false =>
      rw [if_neg Bool.false_ne_true, run_get_bind, run_get_bind, fresh]
      cases left.hasEvent event.id with
      | true => exact ⟨rfl, .inr ⟨rfl, byAuthor⟩⟩
      | false =>
      rw [if_neg Bool.false_ne_true, run_get_bind, run_get_bind, deleted]
      cases left.isDeleted event.id with
      | true => exact ⟨rfl, .inr ⟨rfl, byAuthor⟩⟩
      | false =>
          rw [if_neg Bool.false_ne_true, run_get_bind, processes, ordinary, byAuthor]
          exact ⟨rfl, .inl rfl⟩

/-- Every saved event with this ID is an ordinary event of the same author. -/
def NoImpostor (event : Event) (operations : List (HashOrder × IngesterOperation)) : Prop :=
  ∀ order other, (order, .saveEvent other) ∈ operations → other.id = event.id →
    other.pubkey = event.pubkey ∧ (other.kind != .eventDeletion) = true

/-- Queries, counts and the operations that follow answer as if the event had
not been saved. -/
structure Unobservable (externals : Externals) (options : LmdbOptions) (event : Event)
    (before after : Lmdb) : Prop where
  unchanged : after = before ∨ Promoted options event before after
  sameEvents : SameEvents before after
  answersAlike : AnswersAlike before after
  later : ∀ operations, (after = before ∨ NoImpostor event operations) →
    (perform externals options operations after).1 =
        (perform externals options operations before).1 ∧
      SameEvents (perform externals options operations before).2
        (perform externals options operations after).2 ∧
      AnswersAlike (perform externals options operations before).2
        (perform externals options operations after).2

theorem Promoted.unobservable {externals : Externals} {options : LmdbOptions} {event : Event}
    {before after : Lmdb} (promoted : Promoted options event before after) :
    Unobservable externals options event before after := by
  obtain ⟨processes, ordinary, byAuthor, same⟩ := promoted
  have holds : OrPromoted event.id event.pubkey before after := .inr ⟨same, byAuthor⟩
  have bisimilar := OrPromoted.bisimilar event.id event.pubkey
  have sameEvents := bisimilar.sameEvents before after holds
  refine ⟨.inr ⟨processes, ordinary, byAuthor, same⟩, sameEvents, sameEvents.answersAlike, ?_⟩
  intro operations distinct
  cases distinct with
  | inl unchanged => exact unchanged ▸ ⟨rfl, .refl _, (SameEvents.refl _).answersAlike⟩
  | inr noImpostor =>
      have saves : ∀ order other, (order, .saveEvent other) ∈ operations →
          Respects (OrPromoted event.id event.pubkey)
            (saveEventWithTxn externals options order other) := by
        intro order other member
        by_cases sameId : other.id = event.id
        · obtain ⟨owner, otherOrdinary⟩ := noImpostor order other member sameId
          rw [← sameId, ← owner]
          exact OrPromoted.respects_own processes otherOrdinary
        · exact bisimilar.respects_saveEventWithTxn externals order fun _ _ holds =>
            holds.tombstonesAgree options sameId
      obtain ⟨answers, reached⟩ := bisimilar.perform_alike saves holds
      exact ⟨answers, bisimilar.sameEvents _ _ reached,
        (bisimilar.sameEvents _ _ reached).answersAlike⟩

/-- In every reached store, a rejected save cannot be observed. -/
theorem run_rejection_unobservable (externals : Externals) (options : LmdbOptions)
    (operations : List (HashOrder × IngesterOperation)) (order : HashOrder) (event : Event)
    (reason : RejectedReason) (after : Lmdb)
    (rejected : (saveEventWithTxn externals options order event).run
      (run externals options operations) = (.ok (.rejected reason), after)) :
    Unobservable externals options event (run externals options operations) after := by
  have coherent := run_coherent externals options operations
  cases save_rejected coherent rejected with
  | inl same =>
      subst same
      have sameEvents := SameEvents.refl (run externals options operations)
      exact ⟨.inl rfl, sameEvents, sameEvents.answersAlike, fun _ _ =>
        ⟨rfl, .refl _, (SameEvents.refl _).answersAlike⟩⟩
  | inr promoted => exact promoted.unobservable

def note : Event := sampleEvent 1 10 (.custom 1) []

def deletionOfNote : Event := sampleEvent 2 20 .eventDeletion [sampleTag "e" (hexId 1)]

/-- The note that its author deleted before it came. -/
theorem run_rejection_unobservable_deleted : Unobservable hexExternals {} note
    (run hexExternals {} [(.id, .saveEvent deletionOfNote)])
    ((saveEventWithTxn hexExternals {} .id note).run
      (run hexExternals {} [(.id, .saveEvent deletionOfNote)])).2 := by
  have rejected : ((saveEventWithTxn hexExternals {} .id note).run
      (run hexExternals {} [(.id, .saveEvent deletionOfNote)])).1 = .ok (.rejected .deleted) := by
    decide +kernel
  exact run_rejection_unobservable hexExternals {} [(.id, .saveEvent deletionOfNote)] .id note
    .deleted _ (run_eq_of_outcome rejected)

/-! ## Reindexing -/

theorem reindex_sameEvents {db : Lmdb} (coherent : db.Coherent) : SameEvents db db.reindex := by
  have sameTable := db.reindex_indexed.2
  have rebuilt : db.reindex.Indexed db.Stored :=
    coherent.reindex.indexed.congr _ fun event => by rw [Stored, Stored, sameTable]
  have indexed := coherent.indexed
  exact {
    events := sameTable
    ciIndex := indexed.ci.unique rebuilt.ci
    tcIndex := indexed.tc.unique rebuilt.tc
    acIndex := indexed.ac.unique rebuilt.ac
    akcIndex := indexed.akc.unique rebuilt.akc
    atcIndex := indexed.atc.unique rebuilt.atc
    kcIndex := indexed.kc.unique rebuilt.kc
    ktcIndex := indexed.ktc.unique rebuilt.ktc }

/-- Wiping the indexes wipes the tombstones with them. -/
theorem reindex_sameTombstones (db : Lmdb) : SameTombstones {} db.reindex := by
  have each : ∀ (events : List DatabaseEvent) (start : Lmdb), SameTombstones {} start →
      SameTombstones {} ((events.map EventIndexKeys.new).foldl indexEvent start) := by
    intro events
    induction events with
    | nil => exact fun _ same => same
    | cons event events ih =>
        intro start same
        refine ih _ (same.trans ?_)
        rw [indexEvent_eq]
        exact ⟨rfl, rfl, rfl, rfl⟩
  exact each db.events.values db.wipeIndexes ⟨rfl, rfl, rfl, rfl⟩

/-- A tombstone for its ID, its author or its coordinate refuses the event. -/
def tombstoneAgainst (options : LmdbOptions) (db : Lmdb) (event : Event) : Bool :=
  db.isDeleted event.id ||
    options.processNip09 && event.kind != .eventDeletion &&
      db.isDeletedByAuthor event.id event.pubkey ||
    db.isPubkeyVanished event.pubkey || db.isCoordinateDeleted event

theorem admits_iff {options : LmdbOptions} {db : Lmdb} {event : Event} :
    Admits options db event ↔ event.kind.isEphemeral = false ∧ db.hasEvent event.id = false ∧
      tombstoneAgainst options db event = false := by
  simp only [tombstoneAgainst, Bool.or_eq_false_iff, and_assoc]
  constructor
  · intro admits
    exact ⟨admits.notEphemeral, admits.fresh, admits.notDeleted, admits.notDeletedByAuthor,
      admits.notVanished, admits.coordinateAlive⟩
  · intro clear
    obtain ⟨notEphemeral, fresh, notDeleted, notDeletedByAuthor, notVanished, alive⟩ := clear
    exact ⟨notEphemeral, fresh, notDeleted, notDeletedByAuthor, notVanished, alive⟩

theorem SameTombstones.tombstoneAgainst {before after : Lmdb} (same : SameTombstones before after)
    (options : LmdbOptions) (event : Event) :
    tombstoneAgainst options after event = tombstoneAgainst options before event := by
  simp only [Lmdb.tombstoneAgainst, same.isDeleted, same.isDeletedByAuthor, same.isPubkeyVanished,
    same.isCoordinateDeleted]

theorem tombstoneAgainst_empty (options : LmdbOptions) (event : Event) :
    tombstoneAgainst options {} event = false := by
  have noId : isDeleted {} event.id = false := rfl
  have noAuthor : isDeletedByAuthor {} event.id event.pubkey = false := rfl
  have noPubkey : isPubkeyVanished {} event.pubkey = false := rfl
  have noCoordinate : isCoordinateDeleted {} event = false := by
    unfold isCoordinateDeleted
    cases event.coordinate <;> rfl
  rw [tombstoneAgainst, noId, noAuthor, noPubkey, noCoordinate, Bool.and_false]
  rfl

/-- The same events, and tombstones that no lookup can tell apart. -/
structure Alike (options : LmdbOptions) (left right : Lmdb) : Prop where
  events : SameEvents left right
  deleted : ∀ id, right.isDeleted id = left.isDeleted id
  byAuthor : options.processNip09 = true → ∀ id author,
    right.isDeletedByAuthor id author = left.isDeletedByAuthor id author
  vanished : ∀ pk, right.isPubkeyVanished pk = left.isPubkeyVanished pk
  coordinate : ∀ event, right.isCoordinateDeleted event = left.isCoordinateDeleted event

theorem Alike.of_sameTombstones {options : LmdbOptions} {left right left' right' : Lmdb}
    (alike : Alike options left right) (events : SameEvents left' right')
    (sameLeft : SameTombstones left left') (sameRight : SameTombstones right right') :
    Alike options left' right' where
  events := events
  deleted id := by rw [sameLeft.isDeleted, sameRight.isDeleted, alike.deleted]
  byAuthor processes id author := by
    rw [sameLeft.isDeletedByAuthor, sameRight.isDeletedByAuthor, alike.byAuthor processes]
  vanished pk := by rw [sameLeft.isPubkeyVanished, sameRight.isPubkeyVanished, alike.vanished]
  coordinate event := by
    rw [sameLeft.isCoordinateDeleted, sameRight.isCoordinateDeleted, alike.coordinate]

theorem isCoordinateDeleted_put {left right : Lmdb} {event : Event} {key : Bytes}
    {when : Timestamp}
    (same : right.isCoordinateDeleted event = left.isCoordinateDeleted event) :
    isCoordinateDeleted { right with deletedCoordinates := right.deletedCoordinates.put key when }
        event =
      isCoordinateDeleted { left with deletedCoordinates := left.deletedCoordinates.put key when }
        event := by
  unfold isCoordinateDeleted whenIsCoordinateDeleted at *
  cases named : event.coordinate with
  | none => rfl
  | some coordinate =>
      simp only [named] at same
      simp only [SortedTable.get?_put]
      by_cases marked : makeCoordinateIndexKey coordinate = key
      · simp only [if_pos marked]
      · simpa only [if_neg marked] using same

theorem Alike.bisimilar (options : LmdbOptions) : Bisimilar (Alike options) where
  refl db := ⟨.refl db, fun _ => rfl, fun _ _ _ => rfl, fun _ => rfl, fun _ => rfl⟩
  sameEvents _ _ alike := alike.events
  remove left right event alike := alike.of_sameTombstones (alike.events.remove event)
    (left.remove_sameTombstones event) (right.remove_sameTombstones event)
  store left right event alike := alike.of_sameTombstones (alike.events.store event)
    (left.store_sameTombstones event) (right.store_sameTombstones event)
  markDeleted left right id alike := {
    alike with
    events := { alike.events with }
    deleted := fun other => by rw [isDeleted_markDeleted, isDeleted_markDeleted, alike.deleted] }
  markDeletedByAuthor left right id author alike := {
    alike with
    events := { alike.events with }
    byAuthor := fun processes other owner => by
      rw [isDeletedByAuthor_markDeletedByAuthor, isDeletedByAuthor_markDeletedByAuthor,
        alike.byAuthor processes] }
  markCoordinate left right key when alike := {
    alike with
    events := { alike.events with }
    coordinate := fun event => isCoordinateDeleted_put (alike.coordinate event) }
  markPubkeyVanished left right pk alike := {
    alike with
    events := { alike.events with }
    vanished := fun other => by
      rw [isPubkeyVanished_markPubkeyVanished, isPubkeyVanished_markPubkeyVanished,
        alike.vanished] }

theorem Alike.tombstonesAgree {options : LmdbOptions} {left right : Lmdb}
    (alike : Alike options left right) (event : Event) :
    TombstonesAgree options event left right where
  deleted := alike.deleted event.id
  byAuthor := by
    cases processes : options.processNip09 with
    | false => rfl
    | true => rw [alike.byAuthor processes]
  vanished := alike.vanished event.pubkey
  coordinate := alike.coordinate event

/-- Neither queries and counts nor any later operations can tell that the store
was reindexed. -/
def ReindexNeutral (externals : Externals) (options : LmdbOptions) (db : Lmdb) : Prop :=
  AnswersAlike db db.reindex ∧ ∀ operations,
    (perform externals options operations db.reindex).1 =
      (perform externals options operations db).1

/-- No tombstone refuses any event that could be saved. -/
def RefusesNothing (options : LmdbOptions) (db : Lmdb) : Prop :=
  ∀ event : Event, event.kind.isEphemeral = false → tombstoneAgainst options db event = false

theorem RefusesNothing.alike {options : LmdbOptions} {db : Lmdb} (coherent : db.Coherent)
    (refusesNothing : RefusesNothing options db) : Alike options db db.reindex := by
  have blank := db.reindex_sameTombstones
  have spares : ∀ id pubkey, tombstoneAgainst options db { sampleEvent 0 0 (.custom 1) [] with
      id := id, pubkey := pubkey } = false := fun id pubkey => refusesNothing _ rfl
  simp only [tombstoneAgainst, Bool.or_eq_false_iff, and_assoc] at spares
  refine ⟨reindex_sameEvents coherent, fun id => ?_, fun processes id author => ?_, fun pk => ?_,
    fun event => ?_⟩
  · rw [blank.isDeleted]
    exact (spares id sampleAuthor).1.symm
  · have spared := (spares id author).2.1
    rw [processes] at spared
    rw [blank.isDeletedByAuthor]
    exact spared.symm
  · rw [blank.isPubkeyVanished]
    exact (spares (.replicate 32 0) pk).2.2.1.symm
  · rw [blank.isCoordinateDeleted]
    have none : isCoordinateDeleted {} event = false := by
      unfold isCoordinateDeleted
      cases event.coordinate <;> rfl
    rw [none]
    cases ephemeral : event.kind.isEphemeral with
    | false =>
        have spared := refusesNothing event ephemeral
        simp only [tombstoneAgainst, Bool.or_eq_false_iff] at spared
        exact spared.2.symm
    | true =>
        have unaddressed : event.coordinate = Option.none := by
          rw [Event.coordinate, Kind.not_isReplaceable_of_isEphemeral ephemeral,
            Kind.not_isAddressable_of_isEphemeral ephemeral]
          rfl
        rw [isCoordinateDeleted, unaddressed]

/-- The event is saved once any stored event with its ID is out of the way. -/
def saveAfresh (event : Event) : List (HashOrder × IngesterOperation) :=
  [(.id, .delete { ids := some (SortedSet.insert .empty event.id) }), (.id, .saveEvent event)]

theorem delete_id_run {db : Lmdb} (coherent : db.Coherent) (id : EventId) :
    ∃ after, (delete .id { ids := some (SortedSet.insert .empty id) }).run db = (.ok (), after) ∧
      Removes (fun event => event.id = id) db after := by
  let request : Filter := { ids := some (SortedSet.insert .empty id) }
  obtain ⟨after, ran, removes⟩ := delete_run coherent .id request rfl
  have sought : (DatabaseFilter.ofFilter .id request).ids = [id] := rfl
  have wants : ∀ event, (DatabaseFilter.ofFilter .id request).matchEvent event = true ↔
      event.id = id := by
    intro event
    have only : (DatabaseFilter.ofFilter .id request).matchEvent event =
        (DatabaseFilter.ofFilter .id request).idsMatch event := by
      simp [DatabaseFilter.matchEvent, DatabaseFilter.authorsMatch, DatabaseFilter.kindMatch,
        DatabaseFilter.tagMatch, DatabaseFilter.searchMatch, DatabaseFilter.ofFilter, request,
        HashOrder.id, SortedTable.empty]
    rw [only, DatabaseFilter.idsMatch, sought]
    simp
  refine ⟨after, ran, removes.congr fun event stored => ?_⟩
  constructor
  · intro sameId
    exact ⟨event, stored, (wants event).mpr sameId, rfl⟩
  · intro answered
    obtain ⟨other, otherStored, wanted, sameKey⟩ := answered
    have same := otherStored.unique stored
      (congrArg (fun key : OrderingKey => (ofLex key).2) sameKey)
    exact same ▸ (wants other).mp wanted

theorem perform_saveAfresh {externals : Externals} {options : LmdbOptions} {db : Lmdb}
    (coherent : db.Coherent) (event : Event) :
    ∃ middle, SameTombstones db middle ∧ middle.Coherent ∧ middle.hasEvent event.id = false ∧
      (perform externals options (saveAfresh event) db).1 = [.ok .done,
        ((processOperation externals options .id (.saveEvent event)).commit middle).1] := by
  obtain ⟨middle, ran, removes⟩ := delete_id_run coherent event.id
  refine ⟨middle, removes.tombstones, removes.coherent, ?_, ?_⟩
  · cases found : middle.getEventById event.id with
    | none => rw [hasEvent, found, Option.isSome_none]
    | some stored =>
        have sameId : stored.id = event.id := removes.coherent.keyed _ _ found
        exact absurd sameId ((removes.stored stored).mp (removes.coherent.stored found)).2
  · have committed := @commit_delete externals options .id _ db middle ran
    simp only [saveAfresh, perform, committed]

theorem save_refused {externals : Externals} {options : LmdbOptions} {order : HashOrder}
    {db : Lmdb} {event : Event} (notEphemeral : event.kind.isEphemeral = false)
    (fresh : db.hasEvent event.id = false) (against : tombstoneAgainst options db event = true) :
    ∃ reason, ((processOperation externals options order (.saveEvent event)).commit db).1 =
      .ok (.save (.rejected reason)) ∧ (reason = .deleted ∨ reason = .vanished) := by
  have refuses : ¬ Admits options db event := fun admits => by
    cases against.symm.trans (admits_iff.mp admits).2.2
  obtain ⟨reason, after, refusal, ran, _⟩ :=
    @save_of_not_admits externals options order event db refuses
  refine ⟨reason, ?_, ?_⟩
  · rw [commit_save ran]
  · cases refusal with
    | ephemeral holds => cases notEphemeral.symm.trans holds
    | duplicate holds => cases fresh.symm.trans holds
    | deleted => exact .inl rfl
    | vanished => exact .inr rfl

theorem save_not_refused {externals : Externals} {options : LmdbOptions} {order : HashOrder}
    {db : Lmdb} {event : Event} (coherent : db.Coherent) (admits : Admits options db event)
    {reason : RejectedReason}
    (answered : ((processOperation externals options order (.saveEvent event)).commit db).1 =
      .ok (.save (.rejected reason))) : reason = .replaced ∨ reason = .invalidDelete := by
  have ran : (processOperation externals options order (.saveEvent event)).run db =
      (do return .save (← replaceAndStore externals options order event) : Txn OperationResult).run
        db := by
    unfold processOperation
    rw [run_bind, save_of_admits admits, run_bind]
  rw [commit, ran, run_bind] at answered
  rcases saved : (replaceAndStore externals options order event).run db with ⟨outcome, after⟩
  rw [saved] at answered
  cases outcome with
  | error error => cases answered
  | ok status =>
      cases answered
      exact (replaceAndStore_rejects coherent saved).1

/-- In every reached store, reindexing is neutral if and only if no tombstone
refuses anything. -/
theorem run_reindexNeutral_iff (externals : Externals) (options : LmdbOptions)
    (operations : List (HashOrder × IngesterOperation)) :
    ReindexNeutral externals options (run externals options operations) ↔
      RefusesNothing options (run externals options operations) := by
  have coherent := run_coherent externals options operations
  generalize run externals options operations = db at *
  constructor
  · intro neutral event notEphemeral
    rw [← Bool.not_eq_true]
    intro against
    have same := neutral.2 (saveAfresh event)
    obtain ⟨middle, tombstones, _, fresh, answers⟩ :=
      @perform_saveAfresh externals options db coherent event
    obtain ⟨middle', tombstones', coherent', fresh', answers'⟩ :=
      @perform_saveAfresh externals options db.reindex coherent.reindex event
    obtain ⟨reason, refused, forTombstone⟩ := @save_refused externals options .id middle event
      notEphemeral fresh (by rw [tombstones.tombstoneAgainst, against])
    have clear : tombstoneAgainst options middle' event = false := by
      rw [tombstones'.tombstoneAgainst, db.reindex_sameTombstones.tombstoneAgainst,
        tombstoneAgainst_empty]
    rw [answers, answers', refused] at same
    have admitted := save_not_refused coherent' (admits_iff.mpr ⟨notEphemeral, fresh', clear⟩)
      (List.cons.inj (List.cons.inj same).2).1
    rcases forTombstone with deleted | vanished
    · subst deleted
      rcases admitted with replaced | invalid
      · cases replaced
      · cases invalid
    · subst vanished
      rcases admitted with replaced | invalid
      · cases replaced
      · cases invalid
  · intro refusesNothing
    have alike := refusesNothing.alike coherent
    refine ⟨alike.events.answersAlike, fun later => ?_⟩
    exact ((Alike.bisimilar options).perform_alike (fun order event _ =>
      (Alike.bisimilar options).respects_saveEventWithTxn externals order fun _ _ alike =>
        alike.tombstonesAgree event) alike).1

/-- The tombstone of an event that never came is gone after reindexing. -/
theorem reindex_not_neutral : ¬ ∀ externals options operations (later : List (HashOrder × Event)),
    (perform externals options (later.map fun (order, event) => (order, .saveEvent event))
      (run externals options operations).reindex).1 =
    (perform externals options (later.map fun (order, event) => (order, .saveEvent event))
      (run externals options operations)).1 := by
  intro neutral
  have same := neutral hexExternals {} [(.id, .saveEvent deletionOfNote)] [(.id, note)]
  have kept : (perform hexExternals {} [(.id, .saveEvent note)]
      (run hexExternals {} [(.id, .saveEvent deletionOfNote)])).1 =
      [.ok (.save (.rejected .deleted))] := by decide +kernel
  have forgotten : (perform hexExternals {} [(.id, .saveEvent note)]
      (run hexExternals {} [(.id, .saveEvent deletionOfNote)]).reindex).1 =
      [.ok (.save .success)] := by decide +kernel
  cases forgotten.symm.trans (same.trans kept)

end RustNostr.NostrLmdb.Lmdb
