import Mathlib
import RustNostr.NostrLmdb.CoordinateTimes
import RustNostr.NostrSqlite.Runs

/-!
# Deletion times of coordinates in the SQLite store

The store keeps the time of the first request that names a coordinate. It is
compared with the history of the accepted requests, recorded beside the store.
-/

set_option autoImplicit false

namespace RustNostr.NostrSqlite

open Library
open NostrLmdb.Lmdb (Names deletionTimes GreatestOf deletionTimes_named deletionTimes_unnamed)

theorem coordinateKey_inj {left right : Coordinate} :
    coordinateKey left = coordinateKey right ↔ left.Same right := by
  simp only [coordinateKey, toLex_inj, Prod.mk.injEq, Int.natCast_inj, UInt16.toNat_inj]
  constructor
  · intro same
    exact ⟨same.2.1, same.1, same.2.2⟩
  · intro same
    exact ⟨same.publicKey, same.kind, same.identifier⟩

namespace Database

variable {externals : Externals} {options : NostrSqliteOptions} {engine : Engine}
variable {db after : Database} {event : Event} {coordinate : Coordinate}

/-! ## What a save remembers -/

/-- The times after a request that names these coordinates. -/
def rememberFirst (deletedAt : Timestamp) (coordinates : List Coordinate)
    (table : SortedTable CoordinateKey Int) : SortedTable CoordinateKey Int :=
  coordinates.foldl (fun table coordinate =>
    table.putNew (coordinateKey coordinate) (asI64 deletedAt)) table

theorem rememberFirst_unnamed {deletedAt : Timestamp} {coordinates : List Coordinate}
    (unnamed : ∀ named ∈ coordinates, ¬ named.Same coordinate)
    (table : SortedTable CoordinateKey Int) :
    (rememberFirst deletedAt coordinates table).get? (coordinateKey coordinate) =
      table.get? (coordinateKey coordinate) := by
  induction coordinates generalizing table with
  | nil => rfl
  | cons first coordinates ih =>
      have other : coordinateKey coordinate ≠ coordinateKey first := fun same =>
        unnamed first List.mem_cons_self (coordinateKey_inj.mp same).symm
      apply (ih (fun named member => unnamed named (.tail _ member)) _).trans
      rw [SortedTable.get?_putNew, if_neg other]

theorem rememberFirst_named {deletedAt : Timestamp} {coordinates : List Coordinate}
    (named : ∃ other ∈ coordinates, other.Same coordinate)
    (table : SortedTable CoordinateKey Int) :
    (rememberFirst deletedAt coordinates table).get? (coordinateKey coordinate) =
      some ((table.get? (coordinateKey coordinate)).getD (asI64 deletedAt)) := by
  induction coordinates generalizing table with
  | nil =>
      obtain ⟨_, member, _⟩ := named
      cases member
  | cons first coordinates ih =>
      by_cases is_first : first.Same coordinate
      · have put : (table.putNew (coordinateKey first) (asI64 deletedAt)).get?
            (coordinateKey coordinate) =
              some ((table.get? (coordinateKey coordinate)).getD (asI64 deletedAt)) := by
          rw [coordinateKey_inj.mpr is_first, SortedTable.get?_putNew, if_pos (.refl _)]
        by_cases later : ∃ other ∈ coordinates, other.Same coordinate
        · apply (ih later _).trans
          rw [put, Option.getD_some]
        · apply (rememberFirst_unnamed (fun other member same => later ⟨other, member, same⟩) _).trans
          exact put
      · have other : coordinateKey coordinate ≠ coordinateKey first := fun same =>
          is_first (coordinateKey_inj.mp same).symm
        obtain ⟨one, member, same⟩ := named
        have later : one ∈ coordinates := (List.mem_cons.mp member).resolve_left fun equal =>
          is_first (equal ▸ same)
        apply (ih ⟨one, later, same⟩ _).trans
        rw [SortedTable.get?_putNew, if_neg other]

theorem deleteCoordinate_deletedCoordinates (positive : 0 < asI64 event.createdAt) :
    (db.deleteCoordinate event coordinate).deletedCoordinates =
      db.deletedCoordinates.putNew (coordinateKey coordinate) (asI64 event.createdAt) := by
  unfold deleteCoordinate
  simp only [markCoordinateDeleted, if_pos positive]
  split
  · exact .refl _
  · split <;> exact .refl _

theorem deleteCoordinates_deletedCoordinates (positive : 0 < asI64 event.createdAt)
    {coordinates : List Coordinate} (accepted : deleteCoordinates event db coordinates = some after) :
    after.deletedCoordinates =
      rememberFirst event.createdAt coordinates db.deletedCoordinates := by
  induction coordinates generalizing db with
  | nil =>
      cases accepted
      exact .refl _
  | cons first coordinates ih =>
      rw [deleteCoordinates] at accepted
      split at accepted
      next => cases accepted
      next =>
        rw [ih accepted, deleteCoordinate_deletedCoordinates positive]
        exact .refl _

/-- A save that is committed remembers the coordinates of a processed request and
nothing else. -/
theorem saveTransaction_deletedCoordinates
    (accepted : db.saveTransaction externals options engine event = .ok after) :
    0 < asI64 event.createdAt ∧ after.deletedCoordinates =
      if options.processNip09 && event.kind == .eventDeletion then
        rememberFirst event.createdAt (Tags.coordinates externals event.tags) db.deletedCoordinates
      else db.deletedCoordinates := by
  obtain ⟨replaced, replaces, cleared, clears, middle, requests, inserts⟩ :=
    saveTransaction_ok.mp accepted
  obtain ⟨positive, _, inserted⟩ := inserted_eq_some.mp inserts
  have before : cleared.deletedCoordinates = db.deletedCoordinates :=
    ((replaceReplaceable_same replaces).trans (replaceAddressable_same clears)).deletedCoordinates
  have last : after.deletedCoordinates = middle.deletedCoordinates := by
    rw [← inserted]
    exact vanished_deletedCoordinates
  refine ⟨positive, ?_⟩
  unfold requested at requests
  split at requests
  · next processes =>
      obtain ⟨targeted, targets, coordinates⟩ := Option.bind_eq_some_iff.mp requests
      rw [if_pos processes, last, deleteCoordinates_deletedCoordinates positive coordinates,
        (deleteTargets_keeps targets).1, before]
  · next ignores =>
      cases requests
      rw [if_neg ignores, last, before]

/-! ## The history of accepted requests -/

/-- The deletion requests accepted since the last wipe, newest first, beside the
database. -/
def recordStep (externals : Externals) (options : NostrSqliteOptions)
    (state : List Event × Database) : Engine × Operation → List Event × Database
  | (engine, .save event) =>
      let (status, after) := state.2.saveEventSync externals options engine event
      (if status = .success ∧ event.kind == .eventDeletion then event :: state.1 else state.1, after)
  | (engine, .delete filter) => (state.1, state.2.delete engine filter)
  | (_, .wipe) => ([], state.2.wipe)

/-- The history and the database after these operations on an empty database. -/
def recorded (externals : Externals) (options : NostrSqliteOptions)
    (operations : List (Engine × Operation)) : List Event × Database :=
  operations.foldl (recordStep externals options) ([], {})

theorem recordStep_database (state : List Event × Database) (step : Engine × Operation) :
    (recordStep externals options state step).2 = state.2.perform externals options step := by
  obtain ⟨engine, operation⟩ := step
  cases operation <;> exact .refl _

/-- Recording the history does not change what is performed. -/
theorem recorded_database (externals : Externals) (options : NostrSqliteOptions)
    (operations : List (Engine × Operation)) :
    (recorded externals options operations).2 = run externals options operations := by
  have each : ∀ state : List Event × Database,
      (operations.foldl (recordStep externals options) state).2 =
        operations.foldl (perform externals options) state.2 := by
    induction operations with
    | nil => exact fun _ => .refl _
    | cons first operations ih =>
        intro state
        rw [List.foldl_cons, ih, recordStep_database]
        exact .refl _
  exact each ([], {})

theorem recorded_concat (externals : Externals) (options : NostrSqliteOptions)
    (operations : List (Engine × Operation)) (last : Engine × Operation) :
    recorded externals options (operations ++ [last]) =
      recordStep externals options (recorded externals options operations) last := by
  rw [recorded, List.foldl_concat, recorded]

/-! ## The remembered times -/

/-- The database remembers the greatest time of the history for every
coordinate. -/
def Tracks (externals : Externals) (history : List Event) (db : Database) : Prop :=
  ∀ coordinate, GreatestOf (deletionTimes externals history coordinate)
    (db.whenIsCoordinateDeleted coordinate)

/-- The database remembers the greatest times, and accepts no event that is not
newer than a request naming its coordinate. -/
structure RemembersGreatest (externals : Externals) (options : NostrSqliteOptions)
    (history : List Event) (db : Database) : Prop where
  greatest : Tracks externals history db
  refuses : ∀ event coordinate, event.coordinate = some coordinate →
    ∀ request ∈ history, Names externals coordinate request → event.createdAt ≤ request.createdAt →
      ∀ engine, (db.saveEventSync externals options engine event).1 ≠ .success

/-- For every coordinate that the request names, either an earlier request
naming it is at least as new, or this is the first one and requests are
processed. -/
def NoNewerThanFirst (externals : Externals) (options : NostrSqliteOptions) (history : List Event)
    (request : Event) : Prop :=
  ∀ coordinate, Names externals coordinate request →
    (∃ past ∈ history, Names externals coordinate past ∧ request.createdAt ≤ past.createdAt) ∨
      options.processNip09 = true ∧ ∀ past ∈ history, ¬ Names externals coordinate past

variable {history : List Event}

theorem refusal_of_notNewer {time : Timestamp} (own : event.coordinate = some coordinate)
    (remembered : db.whenIsCoordinateDeleted coordinate = some time)
    (notNewer : event.createdAt ≤ time) : db.refusal event ≠ none := by
  have dead : db.isCoordinateDeleted event = true := by
    rw [isCoordinateDeleted, own, Option.bind_some, remembered, Option.any_some]
    exact decide_eq_true notNewer
  unfold refusal
  rw [if_pos dead]
  split
  · simp
  · split
    · simp
    · split
      · simp
      · split <;> simp

theorem Tracks.remembersGreatest (tracks : Tracks externals history db) :
    RemembersGreatest externals options history db where
  greatest := tracks
  refuses event coordinate own request member names notNewer engine succeeds := by
    have named : request.createdAt ∈ deletionTimes externals history coordinate :=
      ⟨request, member, names, .refl _⟩
    have remembered := tracks coordinate
    cases found : db.whenIsCoordinateDeleted coordinate with
    | none =>
        rw [found] at remembered
        rw [remembered] at named
        cases named
    | some time =>
        rw [found] at remembered
        have refused := refusal_of_notNewer own found (le_trans notNewer (remembered.2 named))
        obtain ⟨reason, refused⟩ := Option.ne_none_iff_exists'.mp refused
        rw [saveEventSync, refused] at succeeds
        cases succeeds

theorem Tracks.empty (blank : db.deletedCoordinates = .empty) : Tracks externals [] db := by
  intro coordinate
  have forgotten : db.whenIsCoordinateDeleted coordinate = none := by
    rw [whenIsCoordinateDeleted, blank]
    exact .refl _
  rw [forgotten]
  ext time
  simp [deletionTimes]

theorem Tracks.of_same (tracks : Tracks externals history db)
    (same : after.deletedCoordinates = db.deletedCoordinates) : Tracks externals history after := by
  intro coordinate
  rw [whenIsCoordinateDeleted, same]
  exact tracks coordinate

/-! ## One request -/

/-- One more time, where the first is kept if times are kept at all. -/
theorem greatestOf_insert_iff {times : Set Timestamp} {remembered : Option Timestamp}
    {time : Timestamp} {processes : Bool} (tracked : GreatestOf times remembered) :
    GreatestOf (insert time times) (if processes then some (remembered.getD time) else remembered) ↔
      (∃ past ∈ times, time ≤ past) ∨ processes = true ∧ times = ∅ := by
  cases remembered with
  | none =>
      have none_yet : times = ∅ := tracked
      subst none_yet
      cases processes with
      | true =>
          have greatest : IsGreatest (insert time (∅ : Set Timestamp)) time := by
            simp [isGreatest_singleton]
          exact ⟨fun _ => .inr ⟨.refl _, .refl _⟩, fun _ => greatest⟩
      | false =>
          simp [GreatestOf]
  | some first =>
      have greatest : IsGreatest times first := tracked
      have kept : (if processes = true then some ((some first).getD time) else some first) =
          some first := by cases processes <;> exact .refl _
      rw [kept]
      constructor
      · intro still
        exact .inl ⟨first, greatest.1, still.2 (Set.mem_insert _ _)⟩
      · intro older
        cases older with
        | inl older =>
            obtain ⟨past, member, le⟩ := older
            refine ⟨Set.mem_insert_of_mem _ greatest.1, fun other inserted => ?_⟩
            cases Set.mem_insert_iff.mp inserted with
            | inl same => exact same ▸ le_trans le (greatest.2 member)
            | inr earlier => exact greatest.2 earlier
        | inr none_yet =>
            rw [none_yet.2] at greatest
            cases greatest.1

theorem toTimestamp_asI64 {time : Timestamp} (positive : 0 < asI64 time) :
    UInt64.ofNat (asI64 time).toNat = time := by
  rw [asI64_of_lt (asI64_pos.mp positive).2, Int.toNat_natCast, UInt64.ofNat_toNat]

theorem whenIsCoordinateDeleted_named {request : Event} {processes : Bool}
    (positive : 0 < asI64 request.createdAt)
    (coordinates : after.deletedCoordinates = if processes then
      rememberFirst request.createdAt (Tags.coordinates externals request.tags)
        db.deletedCoordinates else db.deletedCoordinates)
    (named : Names externals coordinate request) :
    after.whenIsCoordinateDeleted coordinate =
      if processes then some ((db.whenIsCoordinateDeleted coordinate).getD request.createdAt)
      else db.whenIsCoordinateDeleted coordinate := by
  simp only [whenIsCoordinateDeleted, coordinates]
  cases processes with
  | false => exact .refl _
  | true =>
      simp only [if_true, rememberFirst_named named, Option.map_some]
      cases db.deletedCoordinates.get? (coordinateKey coordinate) with
      | none => rw [Option.getD_none, Option.map_none, Option.getD_none, toTimestamp_asI64 positive]
      | some first => exact .refl _

theorem whenIsCoordinateDeleted_unnamed {request : Event} {processes : Bool}
    (coordinates : after.deletedCoordinates = if processes then
      rememberFirst request.createdAt (Tags.coordinates externals request.tags)
        db.deletedCoordinates else db.deletedCoordinates)
    (unnamed : ¬ Names externals coordinate request) :
    after.whenIsCoordinateDeleted coordinate = db.whenIsCoordinateDeleted coordinate := by
  simp only [whenIsCoordinateDeleted, coordinates]
  cases processes with
  | false => exact .refl _
  | true =>
      rw [if_pos (.refl _), rememberFirst_unnamed fun other member same =>
        unnamed ⟨other, member, same⟩]

theorem Tracks.request_iff (tracks : Tracks externals history db)
    (deletion : (event.kind == .eventDeletion) = true)
    (accepted : db.saveTransaction externals options engine event = .ok after) :
    Tracks externals (event :: history) after ↔
      NoNewerThanFirst externals options history event := by
  obtain ⟨positive, coordinates⟩ := saveTransaction_deletedCoordinates accepted
  rw [deletion, Bool.and_true] at coordinates
  apply forall_congr'
  intro coordinate
  by_cases named : Names externals coordinate event
  · rw [deletionTimes_named named, whenIsCoordinateDeleted_named positive coordinates named,
      greatestOf_insert_iff (tracks coordinate)]
    have none_yet : deletionTimes externals history coordinate = ∅ ↔
        ∀ past ∈ history, ¬ Names externals coordinate past := by
      rw [Set.eq_empty_iff_forall_notMem]
      exact ⟨fun absent past member names => absent _ ⟨past, member, names, .refl _⟩,
        fun absent _ ⟨past, member, names, _⟩ => absent past member names⟩
    have older : (∃ past ∈ deletionTimes externals history coordinate, event.createdAt ≤ past) ↔
        ∃ past ∈ history, Names externals coordinate past ∧ event.createdAt ≤ past.createdAt := by
      constructor
      · rintro ⟨_, ⟨past, member, names, rfl⟩, le⟩
        exact ⟨past, member, names, le⟩
      · rintro ⟨past, member, names, le⟩
        exact ⟨_, ⟨past, member, names, .refl _⟩, le⟩
    rw [none_yet, older]
    simp only [named, true_implies]
  · rw [deletionTimes_unnamed named, whenIsCoordinateDeleted_unnamed coordinates named]
    simp only [named, false_implies, iff_true]
    exact tracks coordinate

/-! ## Every prefix of a run -/

theorem recordStep_rejected
    (rejected : (db.saveEventSync externals options engine event).1 ≠ .success) :
    recordStep externals options (history, db) (engine, .save event) = (history, db) := by
  have same := saveEventSync_rejected rejected
  unfold recordStep
  dsimp only
  rw [if_neg fun accepted => rejected accepted.1, same]

theorem recordStep_accepted
    (accepted : (db.saveEventSync externals options engine event).1 = .success) :
    recordStep externals options (history, db) (engine, .save event) =
      (if event.kind == .eventDeletion then event :: history else history,
        (db.saveEventSync externals options engine event).2) := by
  unfold recordStep
  dsimp only
  simp only [accepted, true_and]

/-- An accepted event that is no request leaves the times as they are. -/
theorem Tracks.ordinary (tracks : Tracks externals history db)
    (other : (event.kind == .eventDeletion) = false)
    (accepted : db.saveTransaction externals options engine event = .ok after) :
    Tracks externals history after := by
  obtain ⟨_, coordinates⟩ := saveTransaction_deletedCoordinates accepted
  rw [other, Bool.and_false, if_neg Bool.false_ne_true] at coordinates
  exact tracks.of_same coordinates

theorem Tracks.step (tracks : Tracks externals history db) (step : Engine × Operation)
    (inTime : ∀ engine request, step = (engine, .save request) → request.kind == .eventDeletion →
      (db.saveEventSync externals options engine request).1 = .success →
        NoNewerThanFirst externals options history request) :
    Tracks externals (recordStep externals options (history, db) step).1
      (recordStep externals options (history, db) step).2 := by
  obtain ⟨engine, operation⟩ := step
  cases operation with
  | delete filter => exact tracks.of_same (.refl _)
  | wipe => exact .empty (.refl _)
  | save event =>
      by_cases accepted : (db.saveEventSync externals options engine event).1 = .success
      · have committed := (saveEventSync_success.mp accepted).2
        rw [recordStep_accepted accepted]
        cases deletion : event.kind == .eventDeletion with
        | true =>
            exact (tracks.request_iff deletion committed).mpr
              (inTime engine event (.refl _) deletion accepted)
        | false => exact tracks.ordinary deletion committed
      · rw [recordStep_rejected accepted]
        exact tracks

/-- In every run, the greatest times are remembered after every operation if and
only if no accepted request is newer than all that named its coordinate before. -/
theorem recorded_keepsGreatest_iff (externals : Externals) (options : NostrSqliteOptions)
    (operations : List (Engine × Operation)) :
    (∀ earlier, earlier <+: operations → RemembersGreatest externals options
      (recorded externals options earlier).1 (recorded externals options earlier).2) ↔
    ∀ earlier engine request, earlier ++ [(engine, .save request)] <+: operations →
      request.kind == .eventDeletion →
      ((recorded externals options earlier).2.saveEventSync externals options engine request).1 =
        .success →
      NoNewerThanFirst externals options (recorded externals options earlier).1 request := by
  constructor
  · intro remembers earlier engine request reached deletion accepted
    have before := (remembers earlier ((List.prefix_append _ _).trans reached)).greatest
    have tracks := (remembers _ reached).greatest
    rw [recorded_concat, recordStep_accepted accepted, if_pos deletion] at tracks
    exact (before.request_iff deletion (saveEventSync_success.mp accepted).2).mp tracks
  · intro inTime earlier reached
    apply Tracks.remembersGreatest
    induction earlier using List.reverseRecOn with
    | nil => exact .empty (.refl _)
    | append_singleton earlier last ih =>
        have before := ih ((List.prefix_append _ _).trans reached)
        rw [recorded_concat]
        apply Tracks.step before last
        intro engine request same deletion accepted
        subst same
        exact inTime earlier engine request reached deletion accepted

open NostrLmdb.Lmdb (sampleAuthor sampleTag article deletionOfArticle)

/-- The later of two requests was created later, and what lies between is
accepted. -/
theorem recorded_not_keepsGreatest : ¬ ∀ externals options operations,
    RemembersGreatest externals options (recorded externals options operations).1
      (recorded externals options operations).2 := by
  intro remembers
  let operations : List (Engine × Operation) :=
    [(.plain, .save (deletionOfArticle 2 50 "a")), (.plain, .save (deletionOfArticle 3 100 "a"))]
  have member : deletionOfArticle 3 100 "a" ∈ (recorded hexExternals {} operations).1 := by
    decide +kernel
  have accepted : ((recorded hexExternals {} operations).2.saveEventSync hexExternals {} .plain
      (article 1 80 [sampleTag "d" "a"])).1 = .success := by decide +kernel
  have named : Names hexExternals ⟨.custom 30000, sampleAuthor, "a"⟩
      (deletionOfArticle 3 100 "a") := by
    have parsed : ∃ named ∈ Tags.coordinates hexExternals (deletionOfArticle 3 100 "a").tags,
        named.kind.asU16 = 30000 ∧ named.publicKey = sampleAuthor ∧ named.identifier = "a" := by
      decide +kernel
    obtain ⟨named, member, kind, publicKey, identifier⟩ := parsed
    exact ⟨named, member, kind, publicKey, identifier⟩
  exact (remembers hexExternals {} operations).refuses (article 1 80 [sampleTag "d" "a"]) _ rfl
    (deletionOfArticle 3 100 "a") member named (by decide) .plain accepted

end Database

end RustNostr.NostrSqlite
