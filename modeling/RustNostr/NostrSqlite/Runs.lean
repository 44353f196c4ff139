import Mathlib
import RustNostr.NostrSqlite.Store

/-!
# Runs of the SQLite store

Every sequence of saves, deletions and wipes from an empty database. The engine
may order rows differently from one operation to the next.
-/

set_option autoImplicit false

namespace RustNostr.NostrSqlite

open Library

theorem asI64_lt (number : UInt64) : asI64 number < 2 ^ 63 := by
  have bound := number.toNat_lt
  unfold asI64
  split <;> omega

theorem asI64_of_lt {number : UInt64} (small : number.toNat < 2 ^ 63) :
    asI64 number = number.toNat := if_pos small

/-- Only a small number becomes a positive one. -/
theorem asI64_pos {number : UInt64} : 0 < asI64 number ↔ 0 < number.toNat ∧ number.toNat < 2 ^ 63 := by
  have bound := number.toNat_lt
  unfold asI64
  split <;> omega

@[simp] theorem eventId_tagKey (name : SingleLetterTag) (value : String) (id : EventId) :
    TagKey.eventId (tagKey name value id) = id := rfl

theorem tagKey_inj {name name' : SingleLetterTag} {value value' : String} {id id' : EventId} :
    tagKey name value id = tagKey name' value' id' ↔ (name, value) = (name', value') ∧ id = id' := by
  simp only [tagKey, toLex_inj, Prod.mk.injEq, and_assoc]

/-- What the checks of the table admit. -/
structure EventDb.Checked (row : EventDb) : Prop where
  created : 0 < row.createdAt
  representable : row.createdAt < 2 ^ 63
  kind_nonneg : 0 ≤ row.kind
  kind_lt : row.kind < 65536

theorem rowOf_checked {event : Event} (created : 0 < asI64 event.createdAt) :
    (Database.rowOf event).Checked where
  created := created
  representable := asI64_lt event.createdAt
  kind_nonneg := Int.natCast_nonneg _
  kind_lt := by
    have bound := event.kind.asU16.toNat_lt
    unfold Database.rowOf
    dsimp only
    omega

inductive Operation where
  | save (event : Event)
  | delete (filter : Filter)
  | wipe

namespace Database

variable (externals : Externals) (options : NostrSqliteOptions)

def perform (db : Database) : Engine × Operation → Database
  | (engine, .save event) => (db.saveEventSync externals options engine event).2
  | (engine, .delete filter) => db.delete engine filter
  | (_, .wipe) => db.wipe

def run (operations : List (Engine × Operation)) : Database :=
  operations.foldl (perform externals options) {}

/-! ## The steps of a transaction -/

/-- The deletions that the event requests. -/
def requested (db : Database) (event : Event) : Option Database :=
  if options.processNip09 && event.kind == .eventDeletion then db.handleDeletionEvent externals event
  else some db

def vanished (db : Database) (event : Event) : Database :=
  if isVanishRequest externals options event then db.handleRequestToVanish externals event.pubkey
  else db

/-- The event and its tags. -/
def inserted (db : Database) (event : Event) : Option Database :=
  (db.insertEventTx event).map fun db => db.insertTags event

variable {externals : Externals} {options : NostrSqliteOptions} {engine : Engine}
variable {db after : Database} {event : Event}

private theorem elim_ok {step : Option Database} {reason : RejectedReason}
    {next : Database → Except RejectedReason Database} :
    (step.elim (throw reason) pure >>= next) = .ok after ↔
      ∃ middle, step = some middle ∧ next middle = .ok after := by
  cases step with
  | none =>
      constructor
      · intro accepted
        cases accepted
      · rintro ⟨_, absent, _⟩
        cases absent
  | some middle => simp [pure_bind]

private theorem insert_ok {reason : RejectedReason} :
    ((db.insertEventTx event).elim (throw reason) fun db => pure (db.insertTags event) :
      Except RejectedReason Database) = .ok after ↔ db.inserted event = some after := by
  unfold inserted
  cases db.insertEventTx event with
  | none =>
      constructor
      · intro accepted
        cases accepted
      · intro absent
        cases absent
  | some middle => simp [pure, Except.pure]

/-- A committed transaction has passed through these states. -/
theorem saveTransaction_ok :
    db.saveTransaction externals options engine event = .ok after ↔
      ∃ replaced, db.replaceReplaceable engine event = some replaced ∧
        ∃ cleared, replaced.replaceAddressable engine event = some cleared ∧
          ∃ middle, cleared.requested externals options event = some middle ∧
            (middle.vanished externals options event).inserted event = some after := by
  unfold saveTransaction requested vanished
  simp only [elim_ok]
  split
  next => simp only [elim_ok, insert_ok]
  next => simp only [pure_bind, insert_ok, Option.some.injEq, exists_eq_left']

/-! ## What the steps leave alone -/

/-- The tables of what was deleted and of who has vanished. -/
structure SameTombstones (db after : Database) : Prop where
  deletedIds : after.deletedIds = db.deletedIds
  deletedCoordinates : after.deletedCoordinates = db.deletedCoordinates
  vanishedPublicKeys : after.vanishedPublicKeys = db.vanishedPublicKeys

theorem SameTombstones.refl (db : Database) : SameTombstones db db :=
  ⟨.refl _, .refl _, .refl _⟩

theorem SameTombstones.trans {middle : Database} (first : SameTombstones db middle)
    (second : SameTombstones middle after) : SameTombstones db after where
  deletedIds := second.deletedIds.trans first.deletedIds
  deletedCoordinates := second.deletedCoordinates.trans first.deletedCoordinates
  vanishedPublicKeys := second.vanishedPublicKeys.trans first.vanishedPublicKeys

theorem deleteEvents_same (db : Database) (gone : EventDb → Bool) :
    SameTombstones db (db.deleteEvents gone) := ⟨.refl _, .refl _, .refl _⟩

theorem replaceFirst_same {rows : List EventDb}
    (accepted : db.replaceFirst engine event rows = some after) : SameTombstones db after := by
  unfold replaceFirst at accepted
  split at accepted
  · cases accepted
    exact .refl db
  · split at accepted
    · cases accepted
    · cases accepted
      exact deleteEvents_same db _

theorem replaceReplaceable_same (accepted : db.replaceReplaceable engine event = some after) :
    SameTombstones db after := by
  unfold replaceReplaceable at accepted
  split at accepted
  · exact replaceFirst_same accepted
  · cases accepted
    exact .refl db

theorem replaceAddressable_same (accepted : db.replaceAddressable engine event = some after) :
    SameTombstones db after := by
  unfold replaceAddressable at accepted
  split at accepted
  · split at accepted
    · exact replaceFirst_same accepted
    · cases accepted
      exact .refl db
  · cases accepted
    exact .refl db

theorem deleteTargets_keeps {ids : List EventId} (accepted : deleteTargets event db ids = some after) :
    after.deletedCoordinates = db.deletedCoordinates ∧
      after.vanishedPublicKeys = db.vanishedPublicKeys := by
  induction ids generalizing db with
  | nil =>
      cases accepted
      exact ⟨.refl _, .refl _⟩
  | cons id ids ih =>
      rw [deleteTargets] at accepted
      split at accepted
      next => exact ih accepted
      next =>
        split at accepted
        next => cases accepted
        next =>
          obtain ⟨coordinates, vanished⟩ := ih accepted
          exact ⟨coordinates.trans (.refl _), vanished.trans (.refl _)⟩

theorem deleteCoordinate_keeps {coordinate : Coordinate} :
    (db.deleteCoordinate event coordinate).vanishedPublicKeys = db.vanishedPublicKeys := by
  have marked : (db.markCoordinateDeleted coordinate event.createdAt).vanishedPublicKeys =
      db.vanishedPublicKeys := by
    unfold markCoordinateDeleted
    split <;> exact .refl _
  unfold deleteCoordinate
  dsimp only
  split
  · exact marked
  · split <;> exact marked

theorem deleteCoordinates_keeps {coordinates : List Coordinate}
    (accepted : deleteCoordinates event db coordinates = some after) :
    after.vanishedPublicKeys = db.vanishedPublicKeys := by
  induction coordinates generalizing db with
  | nil =>
      cases accepted
      exact .refl _
  | cons first coordinates ih =>
      rw [deleteCoordinates] at accepted
      split at accepted
      next => cases accepted
      next =>
        exact (ih accepted).trans deleteCoordinate_keeps

theorem requested_keeps (accepted : db.requested externals options event = some after) :
    after.vanishedPublicKeys = db.vanishedPublicKeys := by
  unfold requested at accepted
  split at accepted
  · obtain ⟨middle, targets, coordinates⟩ := Option.bind_eq_some_iff.mp accepted
    exact (deleteCoordinates_keeps coordinates).trans (deleteTargets_keeps targets).2
  · cases accepted
    exact .refl _

theorem vanished_deletedCoordinates :
    (db.vanished externals options event).deletedCoordinates = db.deletedCoordinates := by
  unfold vanished
  split <;> exact .refl _

/-- A save succeeds if nothing refuses the event and its transaction is
committed. -/
theorem saveEventSync_success : (db.saveEventSync externals options engine event).1 = .success ↔
    db.refusal event = none ∧ db.saveTransaction externals options engine event =
      .ok (db.saveEventSync externals options engine event).2 := by
  unfold saveEventSync
  cases db.refusal event with
  | some reason => simp
  | none =>
      cases transaction : db.saveTransaction externals options engine event with
      | ok saved => simp
      | error reason => simp

theorem saveEventSync_rejected
    (rejected : (db.saveEventSync externals options engine event).1 ≠ .success) :
    (db.saveEventSync externals options engine event).2 = db := by
  unfold saveEventSync at rejected ⊢
  cases refused : db.refusal event with
  | some reason => exact .refl _
  | none =>
      rw [refused] at rejected
      cases transaction : db.saveTransaction externals options engine event with
      | ok saved =>
          rw [transaction] at rejected
          exact absurd (.refl _) rejected
      | error reason => exact .refl _

/-! ## What the tables describe -/

/-- Every row passes the checks and stands under its ID, and the tags are those
of the events. -/
structure Valid (db : Database) : Prop where
  keyed : ∀ id row, db.events.get? id = some row → row.id = id
  checked : ∀ id row, db.events.get? id = some row → row.Checked
  tagged : ∀ name value id, db.eventTags.get? (tagKey name value id) = some () ↔
    ∃ row, db.events.get? id = some row ∧ (name, value) ∈ extractTags row.tags

theorem Valid.empty (vanished : SortedSet PublicKey) :
    Valid { vanishedPublicKeys := vanished } where
  keyed _ _ found := by cases found
  checked _ _ found := by cases found
  tagged name value id := by
    constructor
    · intro found
      cases found
    · rintro ⟨_, found, _⟩
      cases found

theorem Valid.of_same (valid : db.Valid) (events : after.events = db.events)
    (eventTags : after.eventTags = db.eventTags) : after.Valid := by
  constructor
  · rw [events]
    exact valid.keyed
  · rw [events]
    exact valid.checked
  · rw [events, eventTags]
    exact valid.tagged

theorem get?_deleteEvents (gone : EventDb → Bool) (id : EventId) :
    (db.deleteEvents gone).events.get? id = (db.events.get? id).filter fun row => !gone row :=
  SortedTable.get?_filter db.events _ id

theorem get?_deleteEvents_eq_some {gone : EventDb → Bool} {id : EventId} {row : EventDb} :
    (db.deleteEvents gone).events.get? id = some row ↔
      db.events.get? id = some row ∧ gone row = false := by
  rw [get?_deleteEvents, Option.filter_eq_some_iff, Bool.not_eq_true']

theorem Valid.deleteEvents (valid : db.Valid) (gone : EventDb → Bool) :
    (db.deleteEvents gone).Valid where
  keyed id row found := valid.keyed id row (get?_deleteEvents_eq_some.mp found).1
  checked id row found := valid.checked id row (get?_deleteEvents_eq_some.mp found).1
  tagged name value id := by
    have kept : (db.deleteEvents gone).eventTags.get? (tagKey name value id) = some () ↔
        db.eventTags.get? (tagKey name value id) = some () ∧
          (db.events.get? id).any gone = false := by
      rw [Database.deleteEvents, SortedTable.get?_filter, Option.filter_eq_some_iff,
        Bool.not_eq_true', eventId_tagKey]
    simp only [kept, valid.tagged, get?_deleteEvents_eq_some]
    constructor
    · rintro ⟨⟨row, found, tag⟩, stays⟩
      rw [found] at stays
      exact ⟨row, ⟨found, stays⟩, tag⟩
    · rintro ⟨row, ⟨found, stays⟩, tag⟩
      refine ⟨⟨row, found, tag⟩, ?_⟩
      rw [found]
      exact stays

theorem Valid.markCoordinateDeleted (valid : db.Valid) (coordinate : Coordinate)
    (deletedAt : Timestamp) : (db.markCoordinateDeleted coordinate deletedAt).Valid := by
  unfold Database.markCoordinateDeleted
  split
  · exact valid.of_same (.refl _) (.refl _)
  · exact valid

theorem Valid.deleteTargets (valid : db.Valid) {ids : List EventId}
    (accepted : deleteTargets event db ids = some after) : after.Valid := by
  induction ids generalizing db with
  | nil =>
      cases accepted
      exact valid
  | cons id ids ih =>
      rw [Database.deleteTargets] at accepted
      split at accepted
      next => exact ih valid accepted
      next =>
        split at accepted
        next => cases accepted
        next =>
          exact ih ((valid.of_same (.refl _) (.refl _) : (db.markEventAsDeleted id).Valid).deleteEvents _)
            accepted

theorem Valid.deleteCoordinate (valid : db.Valid) (coordinate : Coordinate) :
    (db.deleteCoordinate event coordinate).Valid := by
  have marked := valid.markCoordinateDeleted coordinate event.createdAt
  unfold Database.deleteCoordinate
  dsimp only
  split
  · exact marked.deleteEvents _
  · split
    · exact marked.deleteEvents _
    · exact marked

theorem Valid.deleteCoordinates (valid : db.Valid) {coordinates : List Coordinate}
    (accepted : deleteCoordinates event db coordinates = some after) : after.Valid := by
  induction coordinates generalizing db with
  | nil =>
      cases accepted
      exact valid
  | cons coordinate coordinates ih =>
      rw [Database.deleteCoordinates] at accepted
      split at accepted
      next => cases accepted
      next => exact ih (valid.deleteCoordinate coordinate) accepted

theorem Valid.requested (valid : db.Valid)
    (accepted : db.requested externals options event = some after) : after.Valid := by
  unfold Database.requested at accepted
  split at accepted
  · obtain ⟨middle, targets, coordinates⟩ := Option.bind_eq_some_iff.mp accepted
    exact (valid.deleteTargets targets).deleteCoordinates coordinates
  · cases accepted
    exact valid

theorem Valid.vanished (valid : db.Valid) : (db.vanished externals options event).Valid := by
  unfold Database.vanished
  split
  · have marked : (db.markPubkeyAsVanished event.pubkey).Valid := valid.of_same (.refl _) (.refl _)
    exact (marked.deleteEvents _).deleteEvents _
  · exact valid

theorem Valid.replaceFirst (valid : db.Valid) {rows : List EventDb}
    (accepted : db.replaceFirst engine event rows = some after) : after.Valid := by
  unfold Database.replaceFirst at accepted
  split at accepted
  · cases accepted
    exact valid
  · split at accepted
    · cases accepted
    · cases accepted
      exact valid.deleteEvents _

theorem Valid.replaceReplaceable (valid : db.Valid)
    (accepted : db.replaceReplaceable engine event = some after) : after.Valid := by
  unfold Database.replaceReplaceable at accepted
  split at accepted
  · exact valid.replaceFirst accepted
  · cases accepted
    exact valid

theorem Valid.replaceAddressable (valid : db.Valid)
    (accepted : db.replaceAddressable engine event = some after) : after.Valid := by
  unfold Database.replaceAddressable at accepted
  split at accepted
  · split at accepted
    · exact valid.replaceFirst accepted
    · cases accepted
      exact valid
  · cases accepted
    exact valid

theorem get?_insertTags (name : SingleLetterTag) (value : String) (id : EventId) :
    (db.insertTags event).eventTags.get? (tagKey name value id) = some () ↔
      id = event.id ∧ (name, value) ∈ extractTags event.tags ∨
        db.eventTags.get? (tagKey name value id) = some () := by
  have each : ∀ (tags : List (SingleLetterTag × String)) (set : SortedSet TagKey),
      (tags.foldl (fun set tag => set.insert (tagKey tag.1 tag.2 event.id)) set).get?
          (tagKey name value id) = some () ↔
        id = event.id ∧ (name, value) ∈ tags ∨ set.get? (tagKey name value id) = some () := by
    intro tags
    induction tags with
    | nil => simp
    | cons first tags ih =>
        intro set
        obtain ⟨name', value'⟩ := first
        rw [List.foldl_cons, ih]
        dsimp only [SortedSet.insert]
        rw [SortedTable.get?_put]
        simp only [tagKey_inj, List.mem_cons]
        split
        next same => simp [same]
        next different => grind
  exact each _ _

theorem inserted_eq_some : db.inserted event = some after ↔
    0 < asI64 event.createdAt ∧ db.hasEvent event.id = false ∧
      { db with events := db.events.put event.id (rowOf event) }.insertTags event = after := by
  unfold inserted insertEventTx
  split
  next insertable =>
    simp only [Option.map_some, Option.some.injEq]
    simp only [Bool.not_eq_true'] at insertable
    simp only [insertable, true_and]
  next refused =>
    simp only [Bool.not_eq_true'] at refused
    simp only [Option.map_none, reduceCtorEq, false_iff]
    exact fun ⟨created, unknown, _⟩ => refused ⟨created, unknown⟩

theorem Valid.inserted (valid : db.Valid) (accepted : db.inserted event = some after) :
    after.Valid := by
  obtain ⟨created, unknown, rfl⟩ := inserted_eq_some.mp accepted
  have absent : db.events.get? event.id = none := by
    simpa [hasEvent] using unknown
  have stored : ∀ id row,
      (db.events.put event.id (rowOf event)).get? id = some row ↔
        id = event.id ∧ row = rowOf event ∨ db.events.get? id = some row := by
    intro id row
    rw [SortedTable.get?_put]
    split
    next same => simp [same, absent, eq_comm]
    next different => simp [different]
  constructor
  · intro id row found
    cases (stored id row).mp found with
    | inl new => rw [new.2, new.1, rowOf]
    | inr old => exact valid.keyed id row old
  · intro id row found
    cases (stored id row).mp found with
    | inl new => exact new.2 ▸ rowOf_checked created
    | inr old => exact valid.checked id row old
  · intro name value id
    rw [get?_insertTags]
    have tagged := valid.tagged name value id
    simp only [Database.insertTags, stored]
    constructor
    · rintro (⟨same, tag⟩ | old)
      · exact ⟨rowOf event, .inl ⟨same, .refl _⟩, tag⟩
      · obtain ⟨row, found, tag⟩ := tagged.mp old
        exact ⟨row, .inr found, tag⟩
    · rintro ⟨row, ⟨same, new⟩ | found, tag⟩
      · rw [new] at tag
        exact .inl ⟨same, tag⟩
      · exact .inr (tagged.mpr ⟨row, found, tag⟩)

theorem Valid.saveTransaction (valid : db.Valid)
    (accepted : db.saveTransaction externals options engine event = .ok after) : after.Valid := by
  obtain ⟨replaced, replaces, cleared, clears, middle, requests, inserts⟩ :=
    saveTransaction_ok.mp accepted
  have requested := ((valid.replaceReplaceable replaces).replaceAddressable clears).requested requests
  exact requested.vanished.inserted inserts

theorem Valid.saveEventSync (valid : db.Valid) :
    (db.saveEventSync externals options engine event).2.Valid := by
  unfold Database.saveEventSync
  split
  · exact valid
  · split
    next accepted => exact valid.saveTransaction accepted
    next => exact valid

theorem Valid.wipe (db : Database) : db.wipe.Valid := .empty db.vanishedPublicKeys

theorem Valid.perform (valid : db.Valid) (step : Engine × Operation) :
    (db.perform externals options step).Valid := by
  obtain ⟨engine, operation⟩ := step
  cases operation with
  | save event => exact valid.saveEventSync
  | delete filter => exact valid.deleteEvents _
  | wipe => exact .wipe db

theorem run_valid (externals : Externals) (options : NostrSqliteOptions)
    (operations : List (Engine × Operation)) : (run externals options operations).Valid := by
  have each : ∀ db : Database, db.Valid →
      (operations.foldl (Database.perform externals options) db).Valid := by
    induction operations with
    | nil => exact fun _ valid => valid
    | cons first operations ih => exact fun _ valid => ih _ (valid.perform first)
  exact each {} (.empty .empty)

end Database

end RustNostr.NostrSqlite
