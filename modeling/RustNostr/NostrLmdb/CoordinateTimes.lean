import Mathlib
import RustNostr.NostrLmdb.ArrivalOrder

/-!
# Deletion times of coordinates

The time remembered for a coordinate, beside the history of the deletion
requests that were accepted. The store does not keep the history; it is recorded
here to say what the remembered time should be.
-/

set_option autoImplicit false

namespace RustNostr

/-- `PartialEq for Coordinate`: the kinds are compared by their numbers. -/
structure Coordinate.Same (left right : Coordinate) : Prop where
  kind : left.kind.asU16 = right.kind.asU16
  publicKey : left.publicKey = right.publicKey
  identifier : left.identifier = right.identifier

theorem Coordinate.Same.symm {left right : Coordinate} (same : left.Same right) : right.Same left :=
  ⟨same.kind.symm, same.publicKey.symm, same.identifier.symm⟩

namespace NostrLmdb

open Library Transaction

/-! ## The keys -/

/-- Identifiers of every length are told apart: the length is part of the key as
long as the identifier is padded. -/
theorem makeCoordinateIndexKey_inj {left right : Coordinate} :
    makeCoordinateIndexKey left = makeCoordinateIndexKey right ↔ left.Same right := by
  constructor
  · intro sameKey
    unfold makeCoordinateIndexKey extendKeyWithTagValue at sameKey
    dsimp only at sameKey
    rw [if_pos (min_le_right _ _), if_pos (min_le_right _ _)] at sameKey
    simp only [List.append_assoc] at sameKey
    obtain ⟨sameKind, sameRest⟩ := List.append_inj sameKey (by simp)
    obtain ⟨samePublicKey, sameTail⟩ := List.append_inj sameRest
      (left.publicKey.2.trans right.publicKey.2.symm)
    obtain ⟨sameLength, sameValue⟩ := List.append_inj sameTail rfl
    refine ⟨kindBe_inj.mp sameKind, FixedBytes.bytes_inj.mp samePublicKey, ?_⟩
    have samePad : min (utf8 left.identifier).length tagValuePadLen =
        min (utf8 right.identifier).length tagValuePadLen := by
      have leftFits : min (utf8 left.identifier).length tagValuePadLen < 256 :=
        lt_of_le_of_lt (min_le_right _ _) (by decide)
      have rightFits : min (utf8 right.identifier).length tagValuePadLen < 256 :=
        lt_of_le_of_lt (min_le_right _ _) (by decide)
      have sameByte := congrArg UInt8.toNat (List.singleton_inj.mp sameLength)
      rwa [UInt8.toNat_ofNat_of_lt' leftFits, UInt8.toNat_ofNat_of_lt' rightFits] at sameByte
    rw [samePad] at sameValue
    exact utf8_injective (List.append_cancel_right sameValue)
  · intro same
    unfold makeCoordinateIndexKey
    rw [same.kind, same.publicKey, same.identifier]

namespace Lmdb

theorem rememberAll_unnamed {createdAt : Timestamp} {coordinates : List Coordinate}
    {coordinate : Coordinate} (unnamed : ∀ named ∈ coordinates, ¬ named.Same coordinate)
    (table : SortedTable Bytes Timestamp) :
    (rememberAll createdAt coordinates table).get? (makeCoordinateIndexKey coordinate) =
      table.get? (makeCoordinateIndexKey coordinate) := by
  induction coordinates generalizing table with
  | nil => rfl
  | cons first coordinates ih =>
      have otherKey : makeCoordinateIndexKey coordinate ≠ makeCoordinateIndexKey first :=
        fun sameKey => unnamed first List.mem_cons_self (makeCoordinateIndexKey_inj.mp sameKey).symm
      apply (ih (fun named member => unnamed named (.tail _ member))
        (table.put (makeCoordinateIndexKey first) createdAt)).trans
      rw [SortedTable.get?_put, if_neg otherKey]

theorem rememberAll_named {createdAt : Timestamp} {coordinates : List Coordinate}
    {coordinate : Coordinate} (named : ∃ other ∈ coordinates, other.Same coordinate)
    (table : SortedTable Bytes Timestamp) :
    (rememberAll createdAt coordinates table).get? (makeCoordinateIndexKey coordinate) =
      some createdAt := by
  induction coordinates generalizing table with
  | nil =>
      obtain ⟨_, member, _⟩ := named
      cases member
  | cons first coordinates ih =>
      by_cases later : ∃ other ∈ coordinates, other.Same coordinate
      · exact ih later (table.put (makeCoordinateIndexKey first) createdAt)
      · obtain ⟨other, member, same⟩ := named
        have isFirst : other = first := (List.mem_cons.mp member).resolve_right fun tail =>
          later ⟨other, tail, same⟩
        have sameKey := makeCoordinateIndexKey_inj.mpr (isFirst ▸ same).symm
        apply (rememberAll_unnamed (fun other tail sameOther => later ⟨other, tail, sameOther⟩)
          (table.put (makeCoordinateIndexKey first) createdAt)).trans
        rw [SortedTable.get?_put, if_pos sameKey]

/-! ## The history of accepted requests -/

/-- The deletion requests accepted since the tombstones were last wiped, newest
first, after one more operation. -/
def recordAccepted (operation : IngesterOperation) (answer : Except StoreError OperationResult)
    (history : List Event) : List Event :=
  match operation, answer with
  | .saveEvent event, .ok (.save .success) =>
      if event.kind == .eventDeletion then event :: history else history
  | .reindex, .ok _ => []
  | .wipe, .ok _ => []
  | _, _ => history

def recordStep (externals : Externals) (options : LmdbOptions) (state : List Event × Lmdb)
    (step : HashOrder × IngesterOperation) : List Event × Lmdb :=
  let (answer, after) := (processOperation externals options step.1 step.2).commit state.2
  (recordAccepted step.2 answer state.1, after)

/-- The history and the store after these operations on the empty store. -/
def recorded (externals : Externals) (options : LmdbOptions)
    (operations : List (HashOrder × IngesterOperation)) : List Event × Lmdb :=
  operations.foldl (recordStep externals options) ([], {})

/-- Recording the history does not change what is performed. -/
theorem recorded_store (externals : Externals) (options : LmdbOptions)
    (operations : List (HashOrder × IngesterOperation)) :
    (recorded externals options operations).2 = (perform externals options operations {}).2 := by
  have each : ∀ (history : List Event) (db : Lmdb),
      (operations.foldl (recordStep externals options) (history, db)).2 =
        (perform externals options operations db).2 := by
    induction operations with
    | nil => exact fun _ _ => rfl
    | cons first operations ih => exact fun _ _ => ih _ _
  exact each [] {}

theorem recorded_concat (externals : Externals) (options : LmdbOptions)
    (operations : List (HashOrder × IngesterOperation)) (last : HashOrder × IngesterOperation) :
    recorded externals options (operations ++ [last]) =
      recordStep externals options (recorded externals options operations) last := by
  rw [recorded, List.foldl_concat, recorded]

/-! ## The remembered times -/

def Names (externals : Externals) (coordinate : Coordinate) (request : Event) : Prop :=
  ∃ named ∈ Tags.coordinates externals request.tags, named.Same coordinate

/-- The creation times of the requests that name the coordinate. -/
def deletionTimes (externals : Externals) (history : List Event) (coordinate : Coordinate) :
    Set Timestamp :=
  {time | ∃ request ∈ history, Names externals coordinate request ∧ request.createdAt = time}

/-- The greatest of these times, if there are any. -/
def GreatestOf (times : Set Timestamp) : Option Timestamp → Prop
  | none => times = ∅
  | some time => IsGreatest times time

/-- The store remembers the greatest time of the history for every coordinate. -/
def Tracks (externals : Externals) (history : List Event) (db : Lmdb) : Prop :=
  ∀ coordinate, GreatestOf (deletionTimes externals history coordinate)
    (db.whenIsCoordinateDeleted coordinate)

/-- The store remembers the greatest times, and accepts no event that is not
newer than a request naming its coordinate. -/
structure RemembersGreatest (externals : Externals) (options : LmdbOptions) (history : List Event)
    (db : Lmdb) : Prop where
  greatest : Tracks externals history db
  refuses : ∀ event coordinate, event.coordinate = some coordinate →
    ∀ request ∈ history, Names externals coordinate request → event.createdAt ≤ request.createdAt →
      ∀ order, ((processOperation externals options order (.saveEvent event)).commit db).1 ≠
        .ok (.save .success)

section Step

variable {externals : Externals} {options : LmdbOptions} {history : List Event} {db : Lmdb}

/-- What is refused follows from what is remembered. -/
theorem Tracks.remembersGreatest (tracks : Tracks externals history db) :
    RemembersGreatest externals options history db where
  greatest := tracks
  refuses event coordinate own request member names notNewer order succeeds := by
    have named : request.createdAt ∈ deletionTimes externals history coordinate :=
      ⟨request, member, names, rfl⟩
    have remembered := tracks coordinate
    have refuses : ¬ Admits options db event := by
      intro admits
      have alive := admits.coordinateAlive
      unfold isCoordinateDeleted at alive
      rw [own] at alive
      cases found : db.whenIsCoordinateDeleted coordinate with
      | none =>
          rw [found] at remembered
          rw [remembered] at named
          cases named
      | some time =>
          rw [found] at remembered
          simp only [found] at alive
          exact of_decide_eq_false alive (le_trans notNewer (remembered.2 named))
    obtain ⟨reason, rejected⟩ := @save_rejected_of_not_admits externals options order event db refuses
    cases rejected.symm.trans succeeds

/-- A coordinate that the newest request does not name. -/
theorem deletionTimes_unnamed {request : Event} {coordinate : Coordinate}
    (unnamed : ¬ Names externals coordinate request) :
    deletionTimes externals (request :: history) coordinate =
      deletionTimes externals history coordinate := by
  ext time
  simp [deletionTimes, unnamed]

theorem deletionTimes_named {request : Event} {coordinate : Coordinate}
    (named : Names externals coordinate request) :
    deletionTimes externals (request :: history) coordinate =
      insert request.createdAt (deletionTimes externals history coordinate) := by
  ext time
  simp [deletionTimes, named, eq_comm]

/-- An accepted request names coordinates of which no later deletion is on
record, in a store that acts on deletion requests. -/
def InOrder (externals : Externals) (options : LmdbOptions) (history : List Event) (db : Lmdb)
    (order : HashOrder) (request : Event) : Prop :=
  request.kind.asU16 = 5 →
    ((processOperation externals options order (.saveEvent request)).commit db).1 =
      .ok (.save .success) →
    ∀ coordinate, Names externals coordinate request → options.processNip09 = true ∧
      ∀ past ∈ history, Names externals coordinate past → past.createdAt ≤ request.createdAt

theorem Tracks.empty {db : Lmdb} (blank : SameTombstones {} db) : Tracks externals [] db := by
  intro coordinate
  have forgotten : db.whenIsCoordinateDeleted coordinate = none := by
    rw [blank.whenIsCoordinateDeleted]
    rfl
  rw [forgotten]
  ext time
  simp [deletionTimes]

theorem Tracks.of_same {after : Lmdb} (tracks : Tracks externals history db)
    (same : after.deletedCoordinates = db.deletedCoordinates) : Tracks externals history after := by
  intro coordinate
  rw [whenIsCoordinateDeleted, same]
  exact tracks coordinate

/-- A request that arrives in order and takes effect. -/
theorem Tracks.request {request : Event} {after : Lmdb} (tracks : Tracks externals history db)
    (coordinates : after.deletedCoordinates = rememberAll request.createdAt
      (Tags.coordinates externals request.tags) db.deletedCoordinates)
    (inOrder : ∀ coordinate, Names externals coordinate request → ∀ past ∈ history,
      Names externals coordinate past → past.createdAt ≤ request.createdAt) :
    Tracks externals (request :: history) after := by
  intro coordinate
  rw [whenIsCoordinateDeleted, coordinates]
  by_cases named : Names externals coordinate request
  · rw [rememberAll_named named, deletionTimes_named named]
    refine ⟨Set.mem_insert _ _, fun time member => ?_⟩
    rcases Set.mem_insert_iff.mp member with same | earlier
    · exact same.le
    · obtain ⟨past, pastMember, pastNames, sameTime⟩ := earlier
      exact sameTime ▸ inOrder coordinate named past pastMember pastNames
  · rw [deletionTimes_unnamed named]
    rw [rememberAll_unnamed fun other member same => named ⟨other, member, same⟩]
    exact tracks coordinate

/-- A request that names no coordinate. -/
theorem Tracks.unnamed {request : Event} (tracks : Tracks externals history db)
    (unnamed : ∀ coordinate, ¬ Names externals coordinate request) :
    Tracks externals (request :: history) db := by
  intro coordinate
  rw [deletionTimes_unnamed (unnamed coordinate)]
  exact tracks coordinate

theorem recordAccepted_deletion {event : Event} (deletion : event.kind.asU16 = 5) :
    recordAccepted (.saveEvent event) (.ok (.save .success)) history = event :: history :=
  if_pos (Kind.beq_iff.mpr deletion)

theorem recordAccepted_other {event : Event} (other : event.kind.asU16 ≠ 5) :
    recordAccepted (.saveEvent event) (.ok (.save .success)) history = history :=
  if_neg fun deletion => other (Kind.beq_iff.mp deletion)

theorem Tracks.commits (tracks : Tracks externals history db) {operation : IngesterOperation}
    {answer : Except StoreError OperationResult} {after : Lmdb}
    (commits : Commits externals options db operation answer after)
    (inOrder : ∀ request, operation = .saveEvent request → answer = .ok (.save .success) →
      request.kind.asU16 = 5 → ∀ coordinate, Names externals coordinate request →
        options.processNip09 = true ∧
        ∀ past ∈ history, Names externals coordinate past → past.createdAt ≤ request.createdAt) :
    Tracks externals (recordAccepted operation answer history) after := by
  cases commits with
  | failed operation error => cases operation <;> exact tracks
  | reindexed => exact .empty db.reindex_sameTombstones
  | wiped => exact .empty (.refl _)
  | removed filter gone after removes => exact tracks.of_same removes.tombstones.deletedCoordinates
  | refused event reason => exact tracks
  | promoted event reason after promotes =>
      rw [promotes.2.2.2]
      exact tracks
  | requested event middle admits processes deletion effect =>
      have same := (middle.store_sameTombstones (.ofEvent event)).deletedCoordinates
      rw [recordAccepted_deletion deletion]
      exact tracks.request (same.trans effect.coordinates) fun coordinate named =>
        (inOrder event rfl rfl deletion coordinate named).2
  | vanished event middle admits processes request valid effect =>
      have other : event.kind.asU16 ≠ 5 := by
        rw [request]
        decide
      have same := middle.store_sameTombstones (.ofEvent event)
      rw [recordAccepted_other other]
      exact tracks.of_same (effect.tombstones.trans same).deletedCoordinates
  | stored event middle admits ordinary removes =>
      have same := (removes.tombstones.trans
        (middle.store_sameTombstones (.ofEvent event))).deletedCoordinates
      by_cases deletion : event.kind.asU16 = 5
      · have ignores := ordinary.1
        rw [Kind.beq_iff.mpr deletion, Bool.and_true] at ignores
        rw [recordAccepted_deletion deletion]
        apply (tracks.of_same same).unnamed
        intro coordinate named
        cases ignores.symm.trans (inOrder event rfl rfl deletion coordinate named).1
      · rw [recordAccepted_other deletion]
        exact tracks.of_same same

theorem Tracks.step (coherent : db.Coherent) (tracks : Tracks externals history db)
    {order : HashOrder} {operation : IngesterOperation}
    (inOrder : ∀ request, operation = .saveEvent request →
      InOrder externals options history db order request) :
    Tracks externals (recordStep externals options (history, db) (order, operation)).1
      (recordStep externals options (history, db) (order, operation)).2 := by
  apply tracks.commits (commit_commits coherent operation)
  intro request same accepted deletion
  subst same
  exact inOrder request rfl deletion accepted

end Step

/-! ## Every prefix of a run -/

section Run

variable {externals : Externals} {options : LmdbOptions}

/-- Where deletions are not processed, no time is remembered. -/
theorem perform_remembers_nothing (ignores : options.processNip09 = false)
    (operations : List (HashOrder × IngesterOperation)) :
    (perform externals options operations {}).2.deletedCoordinates = .empty := by
  apply (@perform_keeps externals options (fun db => db.deletedCoordinates = .empty) operations _ {}
    empty_coherent rfl).2
  intro db operation answer after _ _ commits nothing
  cases commits with
  | failed operation error => exact nothing
  | reindexed => exact db.reindex_sameTombstones.deletedCoordinates
  | wiped => rfl
  | removed filter gone after removes => exact removes.tombstones.deletedCoordinates.trans nothing
  | refused event reason => exact nothing
  | promoted event reason after promotes =>
      rw [promotes.2.2.2]
      exact nothing
  | requested event middle admits processes deletion effect => cases ignores.symm.trans processes
  | vanished event middle admits processes request valid effect =>
      exact (effect.tombstones.trans (middle.store_sameTombstones _)).deletedCoordinates.trans nothing
  | stored event middle admits ordinary removes =>
      exact (removes.tombstones.trans (middle.store_sameTombstones _)).deletedCoordinates.trans nothing

theorem recorded_coherent (operations : List (HashOrder × IngesterOperation)) :
    (recorded externals options operations).2.Coherent := by
  rw [recorded_store]
  exact perform_coherent externals options operations empty_coherent

/-- If the times are right after an accepted request, it came in order. -/
theorem Tracks.inOrder {history : List Event} {db after : Lmdb} {request : Event}
    (nothing : options.processNip09 = false → db.deletedCoordinates = .empty)
    (commits : Commits externals options db (.saveEvent request) (.ok (.save .success)) after)
    (deletion : request.kind.asU16 = 5) (tracks : Tracks externals (request :: history) after)
    {coordinate : Coordinate} (named : Names externals coordinate request) :
    options.processNip09 = true ∧
      ∀ past ∈ history, Names externals coordinate past → past.createdAt ≤ request.createdAt := by
  have tracked := tracks coordinate
  rw [deletionTimes_named named] at tracked
  cases commits with
  | requested event middle admits processes deletion effect =>
      have remembered : (middle.store (.ofEvent request)).whenIsCoordinateDeleted coordinate =
          some request.createdAt := by
        rw [(middle.store_sameTombstones _).whenIsCoordinateDeleted, whenIsCoordinateDeleted,
          effect.coordinates]
        exact rememberAll_named named _
      rw [remembered] at tracked
      refine ⟨processes, fun past member names => ?_⟩
      exact tracked.2 (Set.mem_insert_of_mem _ ⟨past, member, names, rfl⟩)
  | vanished event middle admits processes vanish valid effect =>
      rw [deletion] at vanish
      cases vanish
  | stored event middle admits ordinary removes =>
      have ignores := ordinary.1
      rw [Kind.beq_iff.mpr deletion, Bool.and_true] at ignores
      have forgotten : (middle.store (.ofEvent request)).whenIsCoordinateDeleted coordinate =
          none := by
        rw [(middle.store_sameTombstones _).whenIsCoordinateDeleted,
          removes.tombstones.whenIsCoordinateDeleted, whenIsCoordinateDeleted, nothing ignores]
        rfl
      rw [forgotten] at tracked
      have member := Set.mem_insert request.createdAt (deletionTimes externals history coordinate)
      rw [tracked] at member
      cases member

/-- In every run, the greatest times are remembered after every operation if and
only if the requests came in order. -/
theorem recorded_remembersGreatest_iff (externals : Externals) (options : LmdbOptions)
    (operations : List (HashOrder × IngesterOperation)) :
    (∀ earlier, earlier <+: operations → RemembersGreatest externals options
      (recorded externals options earlier).1 (recorded externals options earlier).2) ↔
    ∀ earlier order request, earlier ++ [(order, .saveEvent request)] <+: operations →
      InOrder externals options (recorded externals options earlier).1
        (recorded externals options earlier).2 order request := by
  constructor
  · intro remembers earlier order request reached deletion accepted coordinate named
    have coherent := @recorded_coherent externals options earlier
    have tracks := (remembers _ reached).greatest
    have commits := @commit_commits externals options order _ coherent (.saveEvent request)
    have nothing : options.processNip09 = false →
        (recorded externals options earlier).2.deletedCoordinates = .empty := by
      intro ignores
      rw [recorded_store]
      exact perform_remembers_nothing ignores earlier
    rw [recorded_concat] at tracks
    unfold recordStep at tracks
    dsimp only at tracks
    rw [accepted] at commits tracks
    rw [recordAccepted_deletion deletion] at tracks
    exact Tracks.inOrder nothing commits deletion tracks named
  · intro inOrder earlier reached
    apply Tracks.remembersGreatest
    induction earlier using List.reverseRecOn with
    | nil => exact Tracks.empty (.refl _)
    | append_singleton earlier last ih =>
        obtain ⟨order, operation⟩ := last
        have before := ih ((List.prefix_append _ _).trans reached)
        have coherent := @recorded_coherent externals options earlier
        rw [recorded_concat]
        apply Tracks.step coherent before
        intro request same
        subst same
        exact inOrder earlier order request reached

/-- The later of two requests was created earlier, and what lies between is
accepted. -/
theorem recorded_not_remembersGreatest : ¬ ∀ externals options operations,
    RemembersGreatest externals options (recorded externals options operations).1
      (recorded externals options operations).2 := by
  intro remembers
  let operations : List (HashOrder × IngesterOperation) :=
    [(.id, .saveEvent (deletionOfArticle 2 100 "a")), (.id, .saveEvent (deletionOfArticle 3 50 "a"))]
  have member : deletionOfArticle 2 100 "a" ∈ (recorded hexExternals {} operations).1 := by
    decide +kernel
  have accepted : ((processOperation hexExternals {} .id
      (.saveEvent (article 1 80 [sampleTag "d" "a"]))).commit
        (recorded hexExternals {} operations).2).1 = .ok (.save .success) := by decide +kernel
  have named : Names hexExternals ⟨.custom 30000, sampleAuthor, "a"⟩
      (deletionOfArticle 2 100 "a") := by
    have parsed : ∃ named ∈ Tags.coordinates hexExternals (deletionOfArticle 2 100 "a").tags,
        named.kind.asU16 = 30000 ∧ named.publicKey = sampleAuthor ∧ named.identifier = "a" := by
      decide +kernel
    obtain ⟨named, member, kind, publicKey, identifier⟩ := parsed
    exact ⟨named, member, kind, publicKey, identifier⟩
  exact (remembers hexExternals {} operations).refuses (article 1 80 [sampleTag "d" "a"]) _ rfl
    (deletionOfArticle 2 100 "a") member named (by decide) .id accepted

end Run

end Lmdb

end NostrLmdb

end RustNostr
