import Mathlib
import RustNostr.NostrLmdb.Observation

/-!
# Coordinates

The stored events of one coordinate: kind, author and, for an addressable event,
the `d` identifier. A save looks for them in ranges of the index tables, which
hold cut and padded tag values and no kind.
-/

set_option autoImplicit false

namespace RustNostr.NostrLmdb

open Library Transaction

/-- A missing `d` tag is the empty identifier, as in `Event::coordinate`. -/
def DatabaseEvent.identifier (event : DatabaseEvent) : String :=
  (Tags.identifier event.tags).getD ""

/-- The kind number is in a range of which one event per coordinate is kept. -/
def DatabaseEvent.KeptOnce (event : DatabaseEvent) : Prop :=
  (Kind.fromU16 event.kind).isReplaceable = true ∨ (Kind.fromU16 event.kind).isAddressable = true

structure SameCoordinate (left right : DatabaseEvent) : Prop where
  kind : left.kind = right.kind
  author : left.pubkey = right.pubkey
  identifier : (Kind.fromU16 left.kind).isAddressable = true → left.identifier = right.identifier

theorem SameCoordinate.symm {left right : DatabaseEvent} (same : SameCoordinate left right) :
    SameCoordinate right left where
  kind := same.kind.symm
  author := same.author.symm
  identifier addressable := (same.identifier (same.kind ▸ addressable)).symm

namespace Lmdb

/-! ## What a successful save does -/

section Save

variable {externals : Externals} {options : LmdbOptions} {order : HashOrder} {event : Event}
  {db : Lmdb}

theorem save_succeeds (coherent : db.Coherent) {after : Lmdb}
    (succeeds : (saveEventWithTxn externals options order event).run db = (.ok .success, after)) :
    Admits options db event ∧
      (∀ stored, db.Stored stored → versionsOf event stored →
        hasEventBeenReplaced stored event = false) ∧
      ∃ middle, Removes (versionsOf event) db middle ∧
        (finishSave externals options order event).run middle = (.ok .success, after) := by
  by_cases admits : Admits options db event
  · rw [save_of_admits admits] at succeeds
    obtain ⟨stays, moves⟩ := @replaceAndStore_run externals options order event db coherent
    by_cases beaten : ∃ stored, db.Stored stored ∧ versionsOf event stored ∧
        hasEventBeenReplaced stored event = true
    · rw [stays beaten] at succeeds
      cases succeeds
    · have clear : ∀ stored, db.Stored stored → versionsOf event stored →
          hasEventBeenReplaced stored event = false := fun stored present version =>
        Bool.eq_false_iff.mpr fun beats => beaten ⟨stored, present, version, beats⟩
      obtain ⟨middle, removes, ran⟩ := moves clear
      exact ⟨admits, clear, middle, removes, ran.symm.trans succeeds⟩
  · obtain ⟨reason, other, _, ran, _⟩ :=
      @save_of_not_admits externals options order event db admits
    cases succeeds.symm.trans ran

theorem versionsOf_kind {stored : DatabaseEvent} (version : versionsOf event stored) :
    stored.kind = event.kind.asU16 := by
  rcases version with replaceable | addressable
  · exact replaceable.2.2.1
  · obtain ⟨_, _, _, rival⟩ := addressable
    exact rival.1.2.1

theorem Admits.absent (admits : Admits options db event) : db.events.get? event.id = none := by
  have fresh := admits.fresh
  rwa [hasEvent, Option.isSome_eq_false_iff, Option.isNone_iff_eq_none] at fresh

/-- An event that has no special effect is stored in place of its versions. -/
theorem save_ordinary_succeeds (coherent : db.Coherent)
    (ordinary : (event.kind == .eventDeletion) = false ∧ (event.kind == .requestToVanish) = false)
    (admits : Admits options db event)
    (clear : ∀ stored, db.Stored stored → versionsOf event stored →
      hasEventBeenReplaced stored event = false) :
    ∃ after, (saveEventWithTxn externals options order event).run db = (.ok .success, after) ∧
      after.Coherent ∧ SameTombstones db after ∧
      ∀ stored, after.Stored stored ↔
        stored = .ofEvent event ∨ db.Stored stored ∧ ¬ versionsOf event stored := by
  obtain ⟨middle, removes, ran⟩ :=
    (@replaceAndStore_run externals options order event db coherent).2 clear
  have absent : middle.events.get? (DatabaseEvent.ofEvent event).id = none :=
    removes.absent admits.absent
  refine ⟨middle.store (.ofEvent event), ?_, removes.coherent.store absent, ?_, fun stored => ?_⟩
  · rw [save_of_admits admits, ran, finishSave_ordinary ordinary]
  · exact removes.tombstones.trans (middle.store_sameTombstones _)
  · rw [stored_store absent, removes.stored]

end Save

/-! ## At most one event per coordinate -/

def OnePerCoordinate (db : Lmdb) : Prop :=
  ∀ left right, db.Stored left → db.Stored right → left.KeptOnce → SameCoordinate left right →
    left = right

/-- The save of such an event finds the versions that it replaces, and the
later saves find it. -/
structure Replaceable (event : Event) : Prop where
  recognises : RecognisesKind event
  identified : event.kind.isAddressable = true → (Tags.identifier event.tags).isSome
  inRange : (DatabaseEvent.ofEvent event).KeptOnce → InRange (.ofEvent event)

/-- The same of a stored event. -/
structure Listed (event : DatabaseEvent) : Prop where
  identified : (Kind.fromU16 event.kind).isAddressable = true →
    ∃ identifier, Tags.identifier event.tags = some identifier
  inRange : event.KeptOnce → InRange event

theorem Replaceable.listed {event : Event} (replaceable : Replaceable event) :
    Listed (.ofEvent event) where
  identified addressable := Option.isSome_iff_exists.mp
    (replaceable.identified ((Kind.isAddressable_fromU16 event.kind).symm.trans addressable))
  inRange := replaceable.inRange

theorem Replaceable.keptOnce {event : Event} (replaceable : Replaceable event)
    (kept : (DatabaseEvent.ofEvent event).KeptOnce) :
    event.kind.isReplaceable = true ∨ event.kind.isAddressable = true := by
  cases kept with
  | inl number => exact .inl (replaceable.recognises.trans number)
  | inr number => exact .inr ((Kind.isAddressable_fromU16 event.kind).symm.trans number)

/-- One event per coordinate, all of which the range scans list. -/
structure Tidy (db : Lmdb) : Prop where
  coherent : db.Coherent
  once : db.OnePerCoordinate
  listed : ∀ event, db.Stored event → Listed event

theorem Tidy.shrinks {db after : Lmdb} (tidy : db.Tidy) (coherent : after.Coherent)
    (fewer : ∀ event, after.Stored event → db.Stored event) : after.Tidy where
  coherent := coherent
  once left right storedLeft storedRight :=
    tidy.once left right (fewer left storedLeft) (fewer right storedRight)
  listed event stored := tidy.listed event (fewer event stored)

theorem Tidy.durable : Durable Tidy where
  coherent _ tidy := tidy.coherent
  remove db event tidy stored := tidy.shrinks (Coherent.durable.remove db event tidy.coherent stored)
    fun _ other => (stored_remove.mp other).1
  tombstones db ids byAuthor coordinates publicKeys tidy :=
    tidy.shrinks (Coherent.durable.tombstones db ids byAuthor coordinates publicKeys tidy.coherent)
      fun _ stored => stored

/-- None of these events is stored. -/
def Without (rows : DatabaseEvent → Prop) (db : Lmdb) : Prop := ∀ event, db.Stored event → ¬ rows event

theorem Tidy.durable_without (rows : DatabaseEvent → Prop) :
    Durable fun db => db.Tidy ∧ db.Without rows :=
  Tidy.durable.and_of_stored fun _ _ fewer without event stored =>
    without event (fewer event stored)

/-- A replacing step that lets the event in leaves none of its versions. -/
theorem Replaces.clears {versions : DatabaseEvent → Prop} {event : Event} {step : Txn Bool}
    (replaces : Replaces versions event step) {db : Lmdb} (coherent : db.Coherent) {after : Lmdb}
    (ran : step.run db = (.ok false, after)) : after.Without versions := by
  obtain ⟨stays, moves⟩ := replaces db coherent
  by_cases beaten : ∃ stored, db.Stored stored ∧ versions stored ∧
      hasEventBeenReplaced stored event = true
  · cases (stays beaten).symm.trans ran
  · obtain ⟨middle, moved, removes⟩ := moves fun stored present version =>
      Bool.eq_false_iff.mpr fun beats => beaten ⟨stored, present, version, beats⟩
    cases moved.symm.trans ran
    exact fun stored present => ((removes.stored stored).mp present).2

theorem replaceReplaceable_without (event : Event) :
    Triple Tidy (replaceReplaceable event) fun outcome db => db.Tidy ∧ (outcome = .ok false →
      db.Tidy ∧ db.Without fun stored => event.kind.isReplaceable = true ∧
        Version event.pubkey event.kind.asU16 stored) := by
  intro db tidy
  have kept := Tidy.durable.preserves_replaceReplaceable event db tidy
  refine ⟨kept, fun moves => ⟨kept, fun stored present version => ?_⟩⟩
  obtain ⟨replaceable, version⟩ := version
  exact (replaceReplaceable_replaces replaceable).clears tidy.coherent (run_eq_of_outcome moves)
    stored present version

theorem replaceAddressable_without (event : Event) :
    Triple (fun db => db.Tidy ∧ db.Without fun stored => event.kind.isReplaceable = true ∧
        Version event.pubkey event.kind.asU16 stored) (replaceAddressable event) fun outcome db =>
      db.Tidy ∧ (outcome = .ok false → db.Tidy ∧ db.Without (versionsOf event)) := by
  intro db held
  have kept := (Tidy.durable_without _).preserves_replaceAddressable event db held
  refine ⟨kept.1, fun moves => ⟨kept.1, fun stored present version => ?_⟩⟩
  cases version with
  | inl version => exact kept.2 stored present version
  | inr version =>
      obtain ⟨addressable, identifier, identified, rival⟩ := version
      exact (replaceAddressable_replaces addressable identified).clears held.1.coherent
        (run_eq_of_outcome moves) stored present rival

theorem mem_extract_of_identifier {tags : List Tag} {identifier : String}
    (identified : Tags.identifier tags = some identifier) :
    (SingleLetterTag.lowercaseD, identifier) ∈ tags.filterMap extract := by
  obtain ⟨tag, found, content⟩ := Option.bind_eq_some_iff.mp identified
  have named : tag.kind = "d" := by simpa using List.find?_some found
  refine List.mem_filterMap.mpr ⟨tag, List.mem_of_find?_eq_some found, ?_⟩
  obtain ⟨buf, notEmpty⟩ := tag
  cases buf with
  | nil => exact absurd rfl notEmpty
  | cons name values =>
      cases values with
      | nil => cases content
      | cons value rest =>
          have sameName : name = "d" := named
          have sameValue : value = identifier := Option.some.inj content
          subst sameName sameValue
          rfl

/-- Where the scans list everything, what shares the coordinate is a version. -/
theorem versionsOf_of_sameCoordinate {event : Event} (replaceable : Replaceable event)
    {stored : DatabaseEvent} (listed : Listed stored) (kept : stored.KeptOnce)
    (same : SameCoordinate (.ofEvent event) stored) : versionsOf event stored := by
  have version : Version event.pubkey event.kind.asU16 stored :=
    ⟨same.author.symm, same.kind.symm, listed.inRange kept⟩
  have keptNew : (DatabaseEvent.ofEvent event).KeptOnce := by
    rw [DatabaseEvent.KeptOnce, same.kind]
    exact kept
  cases replaceable.keptOnce keptNew with
  | inl isReplaceable => exact .inl ⟨isReplaceable, version⟩
  | inr isAddressable =>
      obtain ⟨identifier, identified⟩ :=
        Option.isSome_iff_exists.mp (replaceable.identified isAddressable)
      have number : (Kind.fromU16 (DatabaseEvent.ofEvent event).kind).isAddressable = true :=
        (Kind.isAddressable_fromU16 event.kind).trans isAddressable
      obtain ⟨identifier', identified'⟩ := listed.identified (same.kind ▸ number)
      have sameIdentifier := same.identifier number
      rw [DatabaseEvent.identifier, DatabaseEvent.identifier, identified',
        show Tags.identifier (DatabaseEvent.ofEvent event).tags = some identifier from identified]
        at sameIdentifier
      have equal : identifier = identifier' := sameIdentifier
      subst equal
      exact .inr ⟨isAddressable, identifier, identified, version, _,
        mem_extract_of_identifier identified', rfl⟩

theorem Tidy.store {db : Lmdb} (tidy : db.Tidy) {event : Event} (replaceable : Replaceable event)
    (without : db.Without (versionsOf event)) (absent : db.events.get? event.id = none) :
    (db.store (.ofEvent event)).Tidy := by
  have absent : db.events.get? (DatabaseEvent.ofEvent event).id = none := absent
  have alone : ∀ stored, db.Stored stored → stored.KeptOnce →
      ¬ SameCoordinate (.ofEvent event) stored := fun stored present kept same =>
    without stored present
      (versionsOf_of_sameCoordinate replaceable (tidy.listed stored present) kept same)
  refine ⟨tidy.coherent.store absent, fun left right storedLeft storedRight kept same => ?_,
    fun stored present => ?_⟩
  · have keptRight : right.KeptOnce := by
      rw [DatabaseEvent.KeptOnce, ← same.kind]
      exact kept
    rcases (stored_store absent).mp storedLeft with newLeft | oldLeft
    · rcases (stored_store absent).mp storedRight with newRight | oldRight
      · exact newLeft.trans newRight.symm
      · exact absurd (newLeft ▸ same) (alone right oldRight keptRight)
    · rcases (stored_store absent).mp storedRight with newRight | oldRight
      · exact absurd (newRight ▸ same).symm (alone left oldLeft kept)
      · exact tidy.once left right oldLeft oldRight kept same
  · rcases (stored_store absent).mp present with new | old
    · exact new ▸ replaceable.listed
    · exact tidy.listed stored old

/-- If every saved event can be found by the scans for its coordinate, at most
one event per coordinate is stored in any reached store. -/
theorem run_onePerCoordinate (externals : Externals) (options : LmdbOptions)
    (operations : List (HashOrder × IngesterOperation))
    (replaceable : ∀ order event, (order, .saveEvent event) ∈ operations → Replaceable event) :
    (run externals options operations).OnePerCoordinate := by
  have blank : Tidy {} := {
    coherent := empty_coherent
    once := fun left right stored => by cases stored
    listed := fun event stored => by cases stored }
  apply Tidy.once
  apply run_keeps Tidy.durable externals options Replaceable blank
  · intro order event replaceable
    apply saveEventWithTxn_preserves Tidy.durable (Tidy.durable_without (versionsOf event)) externals
      options order event (fun db held => held.1) (replaceReplaceable_without event)
      (replaceAddressable_without event)
    exact fun db held absent => held.1.store replaceable held.2 absent
  · intro db tidy
    apply tidy.shrinks tidy.coherent.reindex
    intro event stored
    rw [Stored, db.reindex_indexed.2] at stored
    exact stored
  · exact replaceable

def article (id : UInt8) (createdAt : Timestamp) (tags : List Tag) : Event :=
  sampleEvent id createdAt (.custom 30000) tags

theorem article_replaceable {id : UInt8} {createdAt : Timestamp} {identifier : String}
    (late : Timestamp.min < createdAt) :
    Replaceable (article id createdAt [sampleTag "d" identifier]) where
  recognises := rfl
  identified _ := rfl
  inRange _ := orderingKey_lt_sinceBound.mpr (.inl late)

theorem run_onePerCoordinate_article : OnePerCoordinate (run sampleExternals {}
    [(.id, .saveEvent (article 1 10 [sampleTag "d" "a"])),
      (.id, .saveEvent (article 2 20 [sampleTag "d" "a"]))]) := by
  apply run_onePerCoordinate
  intro order event member
  simp only [List.mem_cons, List.not_mem_nil, or_false, Prod.mk.injEq,
    IngesterOperation.saveEvent.injEq] at member
  rcases member with first | second
  · rw [first.2]
    exact article_replaceable (by decide)
  · rw [second.2]
    exact article_replaceable (by decide)

/-- Two versions of an article without a `d` tag. -/
theorem sampleStore_not_onePerCoordinate : ¬ ∀ externals options operations,
    OnePerCoordinate (run externals options operations) := by
  intro once
  have both : (sampleStore [article 1 10 [], article 2 20 []]).Stored (.ofEvent (article 1 10 [])) ∧
      (sampleStore [article 1 10 [], article 2 20 []]).Stored (.ofEvent (article 2 20 [])) := by
    unfold Stored
    decide +kernel
  have same := once sampleExternals {}
    ([article 1 10 [], article 2 20 []].map fun event => (.id, .saveEvent event))
    _ _ both.1 both.2 (.inr rfl) ⟨rfl, rfl, fun _ => rfl⟩
  cases congrArg DatabaseEvent.createdAt same

/-! ## What a save may remove -/

/-- The stored event is newer than the new one, or as old with a smaller ID. -/
def Beats (stored : DatabaseEvent) (event : Event) : Prop :=
  event.createdAt < stored.createdAt ∨ stored.createdAt = event.createdAt ∧ stored.id < event.id

theorem beats_iff {stored : DatabaseEvent} {event : Event} :
    Beats stored event ↔ hasEventBeenReplaced stored event = true := by
  rw [hasEventBeenReplaced_iff, DatabaseEvent.orderingKey, DatabaseEvent.orderingKey,
    Prod.Lex.toLex_lt_toLex]
  rfl

/-- A save removes other events of its coordinate only, and is kept out by such
an event only. -/
structure SparesOthers (externals : Externals) (options : LmdbOptions) (order : HashOrder)
    (event : Event) (db : Lmdb) : Prop where
  removed : ∀ after,
    (saveEventWithTxn externals options order event).run db = (.ok .success, after) →
      ∀ gone, db.Stored gone → ¬ after.Stored gone → SameCoordinate (.ofEvent event) gone
  replaced : ∀ after,
    (saveEventWithTxn externals options order event).run db = (.ok (.rejected .replaced), after) →
      ∃ stored, db.Stored stored ∧ SameCoordinate (.ofEvent event) stored ∧ Beats stored event

/-- The events that the tag index lists for an identifier stand for the events
that have it. -/
structure ListingExact (event : Event) (identifier : String) (db : Lmdb) : Prop where
  beaten : ∀ rival, db.Stored rival → Rival event.pubkey event.kind.asU16 identifier rival →
    Beats rival event → ∃ stored, db.Stored stored ∧ SameCoordinate (.ofEvent event) stored ∧
      Beats stored event
  clear : (∀ rival, db.Stored rival → Rival event.pubkey event.kind.asU16 identifier rival →
      ¬ Beats rival event) →
    ∀ rival, db.Stored rival → Rival event.pubkey event.kind.asU16 identifier rival →
      rival.identifier = identifier

section Spares

variable {externals : Externals} {options : LmdbOptions} {order : HashOrder} {event : Event}
  {db : Lmdb}

theorem sameCoordinate_of_version {stored : DatabaseEvent}
    (version : Version event.pubkey event.kind.asU16 stored)
    (identifier : event.kind.isAddressable = true →
      (DatabaseEvent.ofEvent event).identifier = stored.identifier) :
    SameCoordinate (.ofEvent event) stored where
  kind := version.2.1.symm
  author := version.1.symm
  identifier addressable := identifier ((Kind.isAddressable_fromU16 event.kind).symm.trans addressable)

theorem sameCoordinate_of_replaceable {stored : DatabaseEvent}
    (replaceable : event.kind.isReplaceable = true)
    (version : Version event.pubkey event.kind.asU16 stored) :
    SameCoordinate (.ofEvent event) stored :=
  sameCoordinate_of_version version fun addressable => by
    cases addressable.symm.trans (Kind.not_isAddressable_of_isReplaceable replaceable)

theorem identifier_ofEvent {identifier : String}
    (identified : Tags.identifier event.tags = some identifier) :
    (DatabaseEvent.ofEvent event).identifier = identifier := by
  rw [DatabaseEvent.identifier, show Tags.identifier (DatabaseEvent.ofEvent event).tags =
    some identifier from identified, Option.getD_some]

theorem versionsOf_iff_rival {identifier : String} (addressable : event.kind.isAddressable = true)
    (identified : Tags.identifier event.tags = some identifier) {stored : DatabaseEvent} :
    versionsOf event stored ↔ Rival event.pubkey event.kind.asU16 identifier stored := by
  have notReplaceable : ¬ event.kind.isReplaceable = true := fun replaceable => by
    cases addressable.symm.trans (Kind.not_isAddressable_of_isReplaceable replaceable)
  simp [versionsOf, notReplaceable, addressable, identified]

/-- A save that is rejected as replaced got as far as a version that beats it. -/
theorem save_replaced (coherent : db.Coherent) {after : Lmdb}
    (replaced : (saveEventWithTxn externals options order event).run db =
      (.ok (.rejected .replaced), after)) :
    Admits options db event ∧
      ∃ stored, db.Stored stored ∧ versionsOf event stored ∧ Beats stored event := by
  by_cases admits : Admits options db event
  · refine ⟨admits, ?_⟩
    by_contra clear
    have unbeaten : ∀ stored, db.Stored stored → versionsOf event stored →
        hasEventBeenReplaced stored event = false := fun stored present version =>
      Bool.eq_false_iff.mpr fun beats => clear ⟨stored, present, version, beats_iff.mpr beats⟩
    obtain ⟨middle, _, ran⟩ :=
      (@replaceAndStore_run externals options order event db coherent).2 unbeaten
    rw [save_of_admits admits, ran] at replaced
    cases (finishSave_rejects replaced).1
  · obtain ⟨reason, other, refusal, ran, _⟩ :=
      @save_of_not_admits externals options order event db admits
    cases replaced.symm.trans ran
    cases refusal

theorem SparesOthers.listingExact (coherent : db.Coherent)
    (ordinary : (event.kind == .eventDeletion) = false ∧ (event.kind == .requestToVanish) = false)
    (spares : SparesOthers externals options order event db) {identifier : String}
    (admits : Admits options db event) (addressable : event.kind.isAddressable = true)
    (identified : Tags.identifier event.tags = some identifier) :
    ListingExact event identifier db := by
  have rivals : ∀ {stored}, versionsOf event stored ↔ _ :=
    versionsOf_iff_rival addressable identified
  constructor
  · intro rival stored isRival beats
    have ran := (@replaceAndStore_run externals options order event db coherent).1
      ⟨rival, stored, rivals.mpr isRival, beats_iff.mp beats⟩
    exact spares.replaced db ((save_of_admits admits).trans ran)
  · intro unbeaten rival stored isRival
    obtain ⟨after, ran, _, _, storedAfter⟩ := @save_ordinary_succeeds externals options order event
      db coherent ordinary admits fun other present version =>
        Bool.eq_false_iff.mpr fun beats => unbeaten other present (rivals.mp version)
          (beats_iff.mpr beats)
    have gone : ¬ after.Stored rival := by
      rw [storedAfter]
      intro kept
      rcases kept with new | old
      · have absent := admits.absent
        rw [Stored, new] at stored
        cases absent.symm.trans stored
      · exact old.2 (rivals.mpr isRival)
    have same := spares.removed after ran rival stored gone
    rw [← same.identifier ((Kind.isAddressable_fromU16 event.kind).trans addressable),
      identifier_ofEvent identified]

/-- In every reached store, a save spares what is not of its coordinate if and
only if the listing of its identifier is exact, where it has one. -/
theorem run_sparesOthers_iff (externals : Externals) (options : LmdbOptions)
    (operations : List (HashOrder × IngesterOperation)) (order : HashOrder) (event : Event)
    (notDeletion : event.kind.asU16 ≠ 5) (notVanish : event.kind.asU16 ≠ 62) :
    SparesOthers externals options order event (run externals options operations) ↔
      ∀ identifier, Admits options (run externals options operations) event →
        event.kind.isAddressable = true → Tags.identifier event.tags = some identifier →
        ListingExact event identifier (run externals options operations) := by
  have coherent := run_coherent externals options operations
  have ordinary : (event.kind == .eventDeletion) = false ∧
      (event.kind == .requestToVanish) = false :=
    ⟨Bool.eq_false_iff.mpr fun same => notDeletion (Kind.beq_iff.mp same),
      Bool.eq_false_iff.mpr fun same => notVanish (Kind.beq_iff.mp same)⟩
  generalize run externals options operations = db at *
  constructor
  · exact fun spares identifier admits addressable identified =>
      spares.listingExact coherent ordinary admits addressable identified
  · intro exact
    constructor
    · intro after ran gone stored removed
      obtain ⟨admits, clear, _⟩ := save_succeeds coherent ran
      obtain ⟨after', ran', _, _, storedAfter⟩ := @save_ordinary_succeeds externals options order
        event db coherent ordinary admits clear
      cases ran.symm.trans ran'
      have version : versionsOf event gone := by
        by_contra other
        exact removed ((storedAfter gone).mpr (.inr ⟨stored, other⟩))
      cases version with
      | inl version => exact sameCoordinate_of_replaceable version.1 version.2
      | inr version =>
          obtain ⟨addressable, identifier, identified, rival⟩ := version
          have unbeaten : ∀ other, db.Stored other →
              Rival event.pubkey event.kind.asU16 identifier other → ¬ Beats other event := by
            intro other present isRival beats
            have notBeaten := clear other present
              ((versionsOf_iff_rival addressable identified).mpr isRival)
            cases notBeaten.symm.trans (beats_iff.mp beats)
          have same := (exact identifier admits addressable identified).clear unbeaten gone stored
            rival
          exact sameCoordinate_of_version rival.1 fun _ => (identifier_ofEvent identified).trans same.symm
    · intro after ran
      obtain ⟨admits, stored, present, version, beats⟩ := save_replaced coherent ran
      cases version with
      | inl version => exact ⟨stored, present, sameCoordinate_of_replaceable version.1 version.2, beats⟩
      | inr version =>
          obtain ⟨addressable, identifier, identified, rival⟩ := version
          exact (exact identifier admits addressable identified).beaten stored present rival beats

end Spares

theorem stored_of_values {db : Lmdb} {keeps : DatabaseEvent → Bool}
    (all : db.events.values.all keeps = true) {event : DatabaseEvent} (stored : db.Stored event) :
    keeps event = true :=
  List.all_eq_true.mp all event (SortedTable.mem_values.mpr ⟨event.id, stored⟩)

/-- A newer version of the one stored article. -/
theorem run_sparesOthers_iff_article : SparesOthers sampleExternals {} .id
    (article 2 20 [sampleTag "d" "a"])
    (run sampleExternals {} [(.id, .saveEvent (article 1 10 [sampleTag "d" "a"]))]) := by
  apply (run_sparesOthers_iff sampleExternals {}
    [(.id, .saveEvent (article 1 10 [sampleTag "d" "a"]))] .id (article 2 20 [sampleTag "d" "a"])
    (by decide) (by decide)).mpr
  intro identifier _ _ identified
  cases identified
  have older : (run sampleExternals {}
      [(.id, .saveEvent (article 1 10 [sampleTag "d" "a"]))]).events.values.all
      (fun stored => stored.createdAt = 10 ∧ stored.identifier = "a") = true := by decide +kernel
  constructor
  · intro rival stored _ beats
    have known := of_decide_eq_true (stored_of_values older stored)
    rw [Beats, known.1] at beats
    rcases beats with newer | tie
    · exact absurd newer (by decide)
    · exact absurd tie.1 (by decide)
  · intro _ rival stored _
    exact (of_decide_eq_true (stored_of_values older stored)).2

/-- The older article carries the identifier of the newer one in a second `d`
tag. -/
theorem save_not_sparesOthers : ¬ ∀ externals options operations order event,
    event.kind.asU16 ≠ 5 → event.kind.asU16 ≠ 62 →
    SparesOthers externals options order event (run externals options operations) := by
  intro spares
  let older := article 1 10 [sampleTag "d" "a", sampleTag "d" "b"]
  let newer := article 2 20 [sampleTag "d" "b"]
  have accepted : ((saveEventWithTxn sampleExternals {} .id newer).run (sampleStore [older])).1 =
      .ok .success := by decide +kernel
  have gone : (sampleStore [older]).Stored (.ofEvent older) ∧
      ¬ ((saveEventWithTxn sampleExternals {} .id newer).run (sampleStore [older])).2.Stored
        (.ofEvent older) := by
    unfold Stored
    decide +kernel
  have same := (spares sampleExternals {} [(.id, .saveEvent older)] .id newer (by decide)
    (by decide)).removed _ (run_eq_of_outcome accepted) _ gone.1 gone.2
  have equal := same.identifier rfl
  revert equal
  decide

end Lmdb

end RustNostr.NostrLmdb
