import Mathlib
import RustNostr.NostrSqlite.Queries

/-!
# Counts and statuses of the SQLite store

The count applies the limit of the filter to its one row, not to the rows that
it counts. The insert leaves an event out that the checks of the table do not
admit, and the save takes that for a duplicate.
-/

set_option autoImplicit false

namespace RustNostr.NostrSqlite.Database

open Library
open NostrLmdb.Lmdb (sampleExternals sampleEvent)

variable {externals : Externals} {options : NostrSqliteOptions} {engine : Engine}
variable {db after : Database} {event : Event} {filter : Filter}

/-! ## Counts -/

/-- The limit in force, as it is bound to the statement. -/
def boundLimit (filter : Filter) : Int := asI64 (UInt64.ofNat (queryLimit filter))

/-- The filter is expressed in one way for a query and for a count. -/
theorem buildFilter_count (filter : Filter) :
    buildFilter (withLimit filter eventsQueryLimit) .count =
      buildFilter (withLimit filter eventsQueryLimit) .select := by
  rw [buildFilter_query, withLimit_eq]
  unfold buildFilter filterIsEmpty
  simp only [Option.isNone_some, Bool.and_false, Bool.false_and]
  rfl

theorem count_eq (db : Database) (engine : Engine) (filter : Filter) :
    db.count engine filter = if boundLimit filter = 0 then none
      else some (db.selected engine
        (buildFilter (withLimit filter eventsQueryLimit) .select)).length := by
  rw [count, buildFilter_count, buildFilter_query, boundLimit]
  simp only [Option.some.injEq]

/-- Every row of the answer stands for an event of its own. -/
theorem Valid.length_query (valid : db.Valid) (engine : Engine) (filter : Filter) :
    (db.query engine filter).length = (db.answered engine filter).length := by
  have different := valid.query_different engine filter
  have distinct : ((db.answered engine filter).filterMap EventDb.toEvent).Nodup :=
    different.imp fun apart same => apart (congrArg Event.orderingKey same)
  have perm : (db.query engine filter).Perm
      ((db.answered engine filter).filterMap EventDb.toEvent) :=
    (List.perm_ext_iff_of_nodup (valid.ordered_query engine filter).nodup distinct).mpr
      (EventSet.mem_collect different)
  rw [perm.length_eq, List.filterMap_length_eq_length]
  intro row member
  have stored := (mem_selected.mp (answered_subset db engine filter row member)).1.1
  obtain ⟨found, same⟩ := (valid.checked_of_mem stored).exists_toEvent
  rw [same, Option.isSome_some]

theorem length_limitRows (limit : Int) (rows : List EventDb) :
    (limitRows limit rows).length = rows.length ↔ limit < 0 ∨ (rows.length : Int) ≤ limit := by
  unfold limitRows
  split
  · next negative => exact iff_of_true rfl (.inl negative)
  · next natural =>
      rw [List.length_take]
      omega

/-- The row meets the conditions of the filter and, if tags are asked for, has
one. -/
structure Selects (db : Database) (engine : Engine) (filter : Filter) (row : EventDb) : Prop where
  stored : row ∈ db.events.values
  tagged : filter.genericTags.entries.isEmpty = false → ∃ name value,
    db.eventTags.get? (tagKey name value row.id) = some ()
  holds : ∀ condition ∈ filterConditions filter, db.holds engine row condition = true

theorem mem_selected_filter {row : EventDb} :
    row ∈ db.selected engine (buildFilter (withLimit filter eventsQueryLimit) .select) ↔
      db.Selects engine filter row := by
  rw [mem_selected, buildFilter_query]
  simp only [Bool.not_eq_true']
  constructor
  · intro found
    exact ⟨found.1.1, found.1.2, found.2⟩
  · intro selects
    exact ⟨⟨selects.stored, selects.tagged⟩, selects.holds⟩

/-- The limit is not zero, and there are no more matching rows than it allows; a
limit that does not fit a signed number is none. -/
def CountFits (db : Database) (engine : Engine) (filter : Filter) : Prop :=
  boundLimit filter ≠ 0 ∧ (boundLimit filter < 0 ∨
    ∀ rows : List EventDb, rows.Nodup → (∀ row ∈ rows, db.Selects engine filter row) →
      (rows.length : Int) ≤ boundLimit filter)

/-- The count succeeds with the number of the events that a query returns,
however the engine orders the rows of one time. -/
def CountsAnswers (db : Database) (engine : Engine) (filter : Filter) : Prop :=
  ∀ order, db.count engine filter =
    some (db.query { engine with order := order } filter).length

theorem Valid.countsAnswers_iff (valid : db.Valid) (engine : Engine) (filter : Filter) :
    db.CountsAnswers engine filter ↔ db.CountFits engine filter := by
  have answered_length : ∀ order, (db.query { engine with order := order } filter).length =
      (limitRows (boundLimit filter) (order.arrange (db.selected engine
        (buildFilter (withLimit filter eventsQueryLimit) .select)))).length := by
    intro order
    rw [valid.length_query, answered_eq]
    rfl
  have fits_iff : (∀ rows : List EventDb, rows.Nodup →
      (∀ row ∈ rows, db.Selects engine filter row) → (rows.length : Int) ≤ boundLimit filter) ↔
        ((db.selected engine
          (buildFilter (withLimit filter eventsQueryLimit) .select)).length : Int) ≤
            boundLimit filter := by
    constructor
    · intro few
      exact few _ (List.nodup_dedup _) fun row member => mem_selected_filter.mp member
    · intro few rows distinct selects
      have included : rows ⊆ db.selected engine
          (buildFilter (withLimit filter eventsQueryLimit) .select) :=
        fun row member => mem_selected_filter.mpr (selects row member)
      have fewer := (distinct.subperm included).length_le
      omega
  have each : ∀ order : Arrangement fun row : EventDb => OrderDual.toDual row.createdAt,
      (db.query { engine with order := order } filter).length = (db.selected engine
        (buildFilter (withLimit filter eventsQueryLimit) .select)).length ↔
      boundLimit filter < 0 ∨ ((db.selected engine
        (buildFilter (withLimit filter eventsQueryLimit) .select)).length : Int) ≤
          boundLimit filter := by
    intro order
    have cut := length_limitRows (boundLimit filter) (order.arrange (db.selected engine
      (buildFilter (withLimit filter eventsQueryLimit) .select)))
    rwa [(order.perm _).length_eq, ← answered_length order] at cut
  unfold CountsAnswers CountFits
  rw [fits_iff, count_eq]
  split
  · next zero =>
      refine iff_of_false (fun counts => ?_) fun fits => fits.1 zero
      cases counts engine.order
  · next positive =>
      constructor
      · intro counts
        exact ⟨positive, (each engine.order).mp (Option.some.inj (counts engine.order)).symm⟩
      · intro fits order
        exact congrArg some ((each order).mpr fits.2).symm

/-! ## What stays absent -/

/-- No row is added or changed. -/
def Shrinks (db after : Database) : Prop :=
  ∀ id row, after.events.get? id = some row → db.events.get? id = some row

theorem Shrinks.refl (db : Database) : Shrinks db db := fun _ _ found => found

theorem Shrinks.trans {middle : Database} (first : Shrinks db middle)
    (second : Shrinks middle after) : Shrinks db after :=
  fun id row found => first id row (second id row found)

theorem Shrinks.hasEvent (shrinks : Shrinks db after) {id : EventId}
    (unknown : db.hasEvent id = false) : after.hasEvent id = false := by
  cases found : after.events.get? id with
  | none => simp [Database.hasEvent, found]
  | some row =>
      rw [Database.hasEvent, shrinks id row found] at unknown
      cases unknown

theorem deleteEvents_shrinks (db : Database) (gone : EventDb → Bool) :
    Shrinks db (db.deleteEvents gone) :=
  fun _ _ found => (get?_deleteEvents_eq_some.mp found).1

theorem replaceFirst_shrinks {rows : List EventDb}
    (accepted : db.replaceFirst engine event rows = some after) : Shrinks db after := by
  unfold replaceFirst at accepted
  split at accepted
  · cases accepted
    exact .refl db
  · split at accepted
    · cases accepted
    · cases accepted
      exact deleteEvents_shrinks db _

theorem replaceReplaceable_shrinks (accepted : db.replaceReplaceable engine event = some after) :
    Shrinks db after := by
  unfold replaceReplaceable at accepted
  split at accepted
  · exact replaceFirst_shrinks accepted
  · cases accepted
    exact .refl db

theorem replaceAddressable_shrinks (accepted : db.replaceAddressable engine event = some after) :
    Shrinks db after := by
  unfold replaceAddressable at accepted
  split at accepted
  · split at accepted
    · exact replaceFirst_shrinks accepted
    · cases accepted
      exact .refl db
  · cases accepted
    exact .refl db

theorem deleteTargets_shrinks {ids : List EventId}
    (accepted : deleteTargets event db ids = some after) : Shrinks db after := by
  induction ids generalizing db with
  | nil =>
      cases accepted
      exact .refl _
  | cons id ids ih =>
      rw [deleteTargets] at accepted
      split at accepted
      next => exact ih accepted
      next =>
        split at accepted
        next => cases accepted
        next => exact (deleteEvents_shrinks (db.markEventAsDeleted id) _).trans (ih accepted)

theorem deleteCoordinate_shrinks (coordinate : Coordinate) :
    Shrinks db (db.deleteCoordinate event coordinate) := by
  have marked : Shrinks db (db.markCoordinateDeleted coordinate event.createdAt) := by
    unfold markCoordinateDeleted
    split <;> exact .refl db
  unfold deleteCoordinate
  dsimp only
  split
  · exact marked.trans (deleteEvents_shrinks _ _)
  · split
    · exact marked.trans (deleteEvents_shrinks _ _)
    · exact marked

theorem deleteCoordinates_shrinks {coordinates : List Coordinate}
    (accepted : deleteCoordinates event db coordinates = some after) : Shrinks db after := by
  induction coordinates generalizing db with
  | nil =>
      cases accepted
      exact .refl _
  | cons coordinate coordinates ih =>
      rw [deleteCoordinates] at accepted
      split at accepted
      next => cases accepted
      next => exact (deleteCoordinate_shrinks coordinate).trans (ih accepted)

theorem requested_shrinks (accepted : db.requested externals options event = some after) :
    Shrinks db after := by
  unfold requested at accepted
  split at accepted
  · obtain ⟨middle, targets, coordinates⟩ := Option.bind_eq_some_iff.mp accepted
    exact (deleteTargets_shrinks targets).trans (deleteCoordinates_shrinks coordinates)
  · cases accepted
    exact .refl db

theorem vanished_shrinks : Shrinks db (db.vanished externals options event) := by
  unfold vanished handleRequestToVanish
  split
  · exact (deleteEvents_shrinks (db.markPubkeyAsVanished event.pubkey) _).trans
      (deleteEvents_shrinks _ _)
  · exact .refl db

/-! ## Statuses -/

/-- What the request names is its author's. -/
structure Owned (externals : Externals) (event : Event) (db : Database) : Prop where
  targets : ∀ id ∈ Tags.eventIds externals event.tags, ∀ target,
    db.events.get? id = some target → target.pubkey = event.pubkey
  coordinates : ∀ coordinate ∈ Tags.coordinates externals event.tags,
    coordinate.publicKey = event.pubkey

theorem Valid.deleteTargets_isSome_iff (valid : db.Valid) {ids : List EventId} :
    (Database.deleteTargets event db ids).isSome = true ↔
      ∀ id ∈ ids, ∀ target, db.events.get? id = some target → target.pubkey = event.pubkey := by
  induction ids generalizing db with
  | nil => simp [Database.deleteTargets]
  | cons id ids ih =>
      rw [Database.deleteTargets]
      cases found : db.events.get? id with
      | none =>
          rw [List.forall_mem_cons, found]
          simpa using ih valid
      | some target =>
          dsimp only
          by_cases own : target.pubkey = event.pubkey
          · have next := ih ((valid.of_same rfl rfl : (db.markEventAsDeleted id).Valid).deleteEvents
              fun row => row.id = id)
            rw [if_neg (not_not.mpr own)]
            refine next.trans ⟨fun later => ?_, fun all other member row kept => ?_⟩
            · rw [List.forall_mem_cons]
              refine ⟨fun row same => ?_, fun other member row same => ?_⟩
              · rw [found] at same
                cases same
                exact own
              · by_cases here : other = id
                · rw [here, found] at same
                  cases same
                  exact own
                · refine later other member row (get?_deleteEvents_eq_some.mpr ⟨same, ?_⟩)
                  rw [valid.keyed other row same]
                  exact decide_eq_false here
            · exact all other (.tail _ member) row (get?_deleteEvents_eq_some.mp kept).1
          · rw [if_pos own]
            exact iff_of_false Bool.false_ne_true fun all =>
              own (all id List.mem_cons_self target found)

theorem deleteCoordinates_isSome_iff {coordinates : List Coordinate} :
    (deleteCoordinates event db coordinates).isSome = true ↔
      ∀ coordinate ∈ coordinates, coordinate.publicKey = event.pubkey := by
  induction coordinates generalizing db with
  | nil => simp [deleteCoordinates]
  | cons coordinate coordinates ih =>
      rw [deleteCoordinates, List.forall_mem_cons]
      split
      next foreign => exact iff_of_false Bool.false_ne_true fun all => foreign all.1
      next own =>
        rw [ih]
        exact (and_iff_right (not_not.mp own)).symm

theorem Valid.handleDeletionEvent_isSome_iff (valid : db.Valid) :
    (db.handleDeletionEvent externals event).isSome = true ↔ Owned externals event db := by
  have parts : (db.handleDeletionEvent externals event).isSome = true ↔
      (Database.deleteTargets event db (Tags.eventIds externals event.tags)).isSome = true ∧
        ∀ coordinate ∈ Tags.coordinates externals event.tags,
          coordinate.publicKey = event.pubkey := by
    unfold handleDeletionEvent
    cases Database.deleteTargets event db (Tags.eventIds externals event.tags) with
    | none => simp
    | some middle => simpa using deleteCoordinates_isSome_iff
  rw [parts, valid.deleteTargets_isSome_iff]
  exact ⟨fun owned => ⟨owned.1, owned.2⟩, fun owned => ⟨owned.targets, owned.coordinates⟩⟩

/-- No stored version of the event is found. -/
structure Unrivalled (event : Event) (db : Database) : Prop where
  replaceable : event.kind.isReplaceable = true → ∀ row ∈ db.events.values,
    ¬ (row.pubkey = event.pubkey ∧ row.kind = event.kind.asU16.toNat)
  addressable : event.kind.isAddressable = true → ∀ identifier,
    Tags.identifier event.tags = some identifier → ∀ row ∈ db.events.values,
      ¬ (row.pubkey = event.pubkey ∧ row.kind = event.kind.asU16.toNat ∧
        db.hasTag .lowercaseD identifier row = true)

/-- An event that the checks of the table do not admit is older than every row. -/
theorem Valid.replaceFirst_unadmitted (valid : db.Valid) (unadmitted : ¬ 0 < asI64 event.createdAt)
    {rows : List EventDb} (within : ∀ row ∈ rows, row ∈ db.events.values) :
    db.replaceFirst engine event rows = if rows = [] then some db else none := by
  unfold Database.replaceFirst
  cases found : engine.first rows with
  | none => rw [if_pos (engine.first_none rows found)]
  | some stored =>
      have member := engine.first_mem rows stored found
      have created := (valid.checked_of_mem (within stored member)).created
      have replaced : hasEventBeenReplaced stored event = true := by
        unfold hasEventBeenReplaced
        rw [if_pos (by omega)]
      rw [if_neg (List.ne_nil_of_mem member)]
      exact if_pos replaced

theorem Valid.replace_unadmitted (valid : db.Valid) (unadmitted : ¬ 0 < asI64 event.createdAt) :
    (Unrivalled event db → db.replaceReplaceable engine event = some db ∧
      db.replaceAddressable engine event = some db) ∧
    (¬ Unrivalled event db → db.replaceReplaceable engine event = none ∨
      db.replaceReplaceable engine event = some db ∧
        db.replaceAddressable engine event = none) := by
  have within : ∀ (keeps : EventDb → Bool), ∀ row ∈ db.events.values.filter keeps,
      row ∈ db.events.values := fun _ _ member => (List.mem_filter.mp member).1
  have replaceable : db.replaceReplaceable engine event =
      if event.kind.isReplaceable = true → ∀ row ∈ db.events.values,
        ¬ (row.pubkey = event.pubkey ∧ row.kind = event.kind.asU16.toNat) then some db
      else none := by
    unfold Database.replaceReplaceable
    cases event.kind.isReplaceable with
    | false => simp
    | true =>
        rw [if_pos rfl, valid.replaceFirst_unadmitted unadmitted (within _)]
        simp [List.filter_eq_nil_iff]
  have addressable : db.replaceAddressable engine event =
      if event.kind.isAddressable = true → ∀ identifier,
        Tags.identifier event.tags = some identifier → ∀ row ∈ db.events.values,
          ¬ (row.pubkey = event.pubkey ∧ row.kind = event.kind.asU16.toNat ∧
            db.hasTag .lowercaseD identifier row = true) then some db
      else none := by
    unfold Database.replaceAddressable
    cases event.kind.isAddressable with
    | false => simp
    | true =>
        rw [if_pos rfl]
        cases Tags.identifier event.tags with
        | none => simp
        | some identifier =>
            dsimp only
            rw [valid.replaceFirst_unadmitted unadmitted (within _)]
            simp [List.filter_eq_nil_iff]
  rw [replaceable, addressable]
  constructor
  · intro unrivalled
    exact ⟨if_pos unrivalled.replaceable, if_pos unrivalled.addressable⟩
  · intro rivalled
    split
    · next first => exact .inr ⟨rfl, if_neg fun second => rivalled ⟨first, second⟩⟩
    · exact .inl rfl

private theorem elim_error {step : Option Database} {given reason : RejectedReason}
    (other : given ≠ reason) {next : Database → Except RejectedReason Database} :
    (step.elim (throw given) pure >>= next) = .error reason ↔
      ∃ middle, step = some middle ∧ next middle = .error reason := by
  cases step with
  | none =>
      refine iff_of_false (fun same => other ?_) fun found => ?_
      · cases same
        rfl
      · obtain ⟨_, absent, _⟩ := found
        cases absent
  | some middle => simp [pure_bind]

private theorem insert_error :
    ((db.insertEventTx event).elim (throw .duplicate) fun db => pure (db.insertTags event) :
      Except RejectedReason Database) = .error .duplicate ↔ db.inserted event = none := by
  unfold inserted
  cases db.insertEventTx event with
  | none => exact iff_of_true rfl rfl
  | some middle => exact iff_of_false (fun same => by cases same) fun same => by cases same

/-- Only the insert takes an event for a duplicate. -/
theorem saveTransaction_duplicate :
    db.saveTransaction externals options engine event = .error .duplicate ↔
      ∃ replaced, db.replaceReplaceable engine event = some replaced ∧
        ∃ cleared, replaced.replaceAddressable engine event = some cleared ∧
          ∃ middle, cleared.requested externals options event = some middle ∧
            (middle.vanished externals options event).inserted event = none := by
  have notReplaced : RejectedReason.replaced ≠ .duplicate := by decide
  have notInvalid : RejectedReason.invalidDelete ≠ .duplicate := by decide
  unfold saveTransaction requested vanished
  simp only [elim_error notReplaced]
  split
  next => simp only [elim_error notInvalid, insert_error]
  next => simp only [pure_bind, insert_error, Option.some.injEq, exists_eq_left']

theorem inserted_eq_none (unknown : db.hasEvent event.id = false) :
    db.inserted event = none ↔ ¬ 0 < asI64 event.createdAt := by
  rw [Option.eq_none_iff_forall_ne_some]
  constructor
  · exact fun refused created => refused _ (inserted_eq_some.mpr ⟨created, unknown, rfl⟩)
  · exact fun unadmitted _ accepted => unadmitted (inserted_eq_some.mp accepted).1

/-- The event is new and nothing stands against it, but the checks of the table
do not admit its time. -/
structure Absorbed (externals : Externals) (options : NostrSqliteOptions) (event : Event)
    (db : Database) : Prop where
  unrefused : db.refusal event = none
  unadmitted : event.createdAt.toNat = 0 ∨ 2 ^ 63 ≤ event.createdAt.toNat
  unrivalled : Unrivalled event db
  owned : options.processNip09 = true → event.kind.asU16 = 5 → Owned externals event db

/-- The save answers that it knows the ID only if it does. -/
def TellsDuplicates (externals : Externals) (options : NostrSqliteOptions) (engine : Engine)
    (event : Event) (db : Database) : Prop :=
  (db.saveEventSync externals options engine event).1 = .rejected .duplicate →
    db.hasEvent event.id = true

theorem known_of_refused (refused : db.refusal event = some .duplicate) :
    db.hasEvent event.id = true := by
  unfold refusal at refused
  split at refused
  · cases refused
  · split at refused
    · next known => exact known
    · repeat
        split at refused
        · cases refused
      cases refused

theorem unknown_of_unrefused (unrefused : db.refusal event = none) :
    db.hasEvent event.id = false := by
  unfold refusal at unrefused
  split at unrefused
  · cases unrefused
  · split at unrefused
    · cases unrefused
    · next unknown => exact Bool.eq_false_iff.mpr unknown

theorem Valid.requested_isSome_iff (valid : db.Valid) :
    (db.requested externals options event).isSome = true ↔
      (options.processNip09 = true → event.kind.asU16 = 5 → Owned externals event db) := by
  have deletes : (options.processNip09 && event.kind == .eventDeletion) = true ↔
      options.processNip09 = true ∧ event.kind.asU16 = 5 := by
    rw [Bool.and_eq_true, Kind.beq_iff]
    rfl
  unfold Database.requested
  split
  · next asks =>
      rw [valid.handleDeletionEvent_isSome_iff]
      obtain ⟨processes, deletion⟩ := deletes.mp asks
      exact ⟨fun owned _ _ => owned, fun owned => owned processes deletion⟩
  · next plain =>
      exact iff_of_true rfl fun processes deletion =>
        absurd (deletes.mpr ⟨processes, deletion⟩) plain

/-- Nothing else than the insert answers that the event is a duplicate. -/
theorem Valid.saveTransaction_duplicate_iff (valid : db.Valid)
    (unknown : db.hasEvent event.id = false) :
    db.saveTransaction externals options engine event = .error .duplicate ↔
      ¬ 0 < asI64 event.createdAt ∧ Unrivalled event db ∧
        (db.requested externals options event).isSome = true := by
  rw [saveTransaction_duplicate]
  constructor
  · intro found
    obtain ⟨replaced, replaces, cleared, clears, middle, requests, ignored⟩ := found
    have shrinks := (replaceReplaceable_shrinks replaces).trans
      ((replaceAddressable_shrinks clears).trans ((requested_shrinks requests).trans
        (@vanished_shrinks externals options middle event)))
    have unadmitted := (inserted_eq_none (shrinks.hasEvent unknown)).mp ignored
    obtain ⟨stands, falls⟩ := @Valid.replace_unadmitted engine db event valid unadmitted
    by_cases unrivalled : Unrivalled event db
    · obtain ⟨first, second⟩ := stands unrivalled
      cases replaces.symm.trans first
      cases clears.symm.trans second
      exact ⟨unadmitted, unrivalled, Option.isSome_of_eq_some requests⟩
    · cases falls unrivalled with
      | inl first => cases replaces.symm.trans first
      | inr second =>
          cases replaces.symm.trans second.1
          cases clears.symm.trans second.2
  · intro absorbed
    obtain ⟨unadmitted, unrivalled, requests⟩ := absorbed
    obtain ⟨stands, _⟩ := @Valid.replace_unadmitted engine db event valid unadmitted
    obtain ⟨first, second⟩ := stands unrivalled
    obtain ⟨middle, requests⟩ := Option.isSome_iff_exists.mp requests
    have shrinks := (requested_shrinks requests).trans
      (@vanished_shrinks externals options middle event)
    exact ⟨db, first, db, second, middle, requests,
      (inserted_eq_none (shrinks.hasEvent unknown)).mpr unadmitted⟩

theorem Valid.tellsDuplicates_iff (valid : db.Valid) :
    TellsDuplicates externals options engine event db ↔ ¬ Absorbed externals options event db := by
  have unadmitted_iff : ¬ 0 < asI64 event.createdAt ↔
      event.createdAt.toNat = 0 ∨ 2 ^ 63 ≤ event.createdAt.toNat := by
    rw [asI64_pos]
    omega
  cases refused : db.refusal event with
  | some reason =>
      refine iff_of_true (fun duplicate => ?_) fun absorbed => ?_
      · have told : reason = .duplicate := by
          unfold Database.saveEventSync at duplicate
          rw [refused] at duplicate
          cases duplicate
          rfl
        exact known_of_refused (told ▸ refused)
      · have unrefused := absorbed.unrefused
        rw [refused] at unrefused
        cases unrefused
  | none =>
      have unknown := unknown_of_unrefused refused
      have answered : (db.saveEventSync externals options engine event).1 = .rejected .duplicate ↔
          db.saveTransaction externals options engine event = .error .duplicate := by
        unfold Database.saveEventSync
        rw [refused]
        cases db.saveTransaction externals options engine event with
        | ok saved => exact iff_of_false (fun same => by cases same) fun same => by cases same
        | error reason => simp
      unfold TellsDuplicates
      rw [answered, valid.saveTransaction_duplicate_iff unknown, unknown, unadmitted_iff,
        valid.requested_isSome_iff]
      constructor
      · intro tells absorbed
        exact Bool.false_ne_true
          (tells ⟨absorbed.unadmitted, absorbed.unrivalled, absorbed.owned⟩)
      · intro within found
        exact absurd ⟨refused, found.1, found.2.1, found.2.2⟩ within

/-- In every reachable state, a count is the number of events that the query
returns exactly if the limit is not reached, and a save is taken for a duplicate
wrongly exactly if the event is new and its time is not admitted. -/
theorem run_tellsTruth_iff (externals : Externals) (options : NostrSqliteOptions)
    (operations : List (Engine × Operation)) :
    (∀ engine filter, (run externals options operations).CountsAnswers engine filter ↔
      (run externals options operations).CountFits engine filter) ∧
    ∀ engine event,
      TellsDuplicates externals options engine event (run externals options operations) ↔
        ¬ Absorbed externals options event (run externals options operations) :=
  ⟨(run_valid externals options operations).countsAnswers_iff,
    fun _ _ => (run_valid externals options operations).tellsDuplicates_iff⟩

/-- A limit of zero makes the count fail, a limit of one is not applied to what is
counted, and an event of time zero is taken for a duplicate. -/
theorem run_not_tellsTruth :
    (¬ (sampleRun sampleNotes).CountsAnswers .plain { limit := some 0 }) ∧
    (¬ (sampleRun sampleNotes).CountsAnswers .plain { limit := some 1 }) ∧
    ¬ TellsDuplicates sampleExternals {} .plain (sampleEvent 1 0 (.custom 1) []) (sampleRun []) := by
  refine ⟨fun counts => ?_, fun counts => ?_, fun tells => ?_⟩
  · have failed : (sampleRun sampleNotes).count .plain { limit := some 0 } = none := by
      decide +kernel
    cases failed.symm.trans (counts (.stable _))
  · have two : (sampleRun sampleNotes).count .plain { limit := some 1 } = some 2 := by
      decide +kernel
    have one : ((sampleRun sampleNotes).query { Engine.plain with order := .stable _ }
        { limit := some 1 }).length = 1 := by decide +kernel
    have same := two.symm.trans (counts (.stable _))
    rw [one] at same
    cases same
  · have answer : ((sampleRun []).saveEventSync sampleExternals {} .plain
        (sampleEvent 1 0 (.custom 1) [])).1 = .rejected .duplicate := by decide +kernel
    have known := tells answer
    revert known
    decide +kernel

end RustNostr.NostrSqlite.Database
