import Mathlib
import RustNostr.NostrLmdb.Commits

/-!
# Deletion by ID and the order of arrival

A deletion request that comes after its target removes it and leaves a tombstone
for the ID. One that comes first leaves a tombstone for the ID and the author,
which the target runs into when it comes.
-/

set_option autoImplicit false

namespace RustNostr.NostrLmdb.Lmdb

open Library Transaction

/-- Whatever is done later, short of a wipe or a reindexing, saving the event
does not succeed. -/
def NeverSaved (externals : Externals) (options : LmdbOptions) (event : Event) (db : Lmdb) : Prop :=
  ∀ later order, KeepsTombstones later →
    ((processOperation externals options order (.saveEvent event)).commit
      (perform externals options later db).2).1 ≠ .ok (.save .success)

/-- The store does not tell which of the two came first, and the target stays
away. -/
structure OrderBlind (externals : Externals) (options : LmdbOptions) (target : Event)
    (targetFirst requestFirst : Lmdb) : Prop where
  sameAnswer : targetFirst.hasEvent target.id = requestFirst.hasEvent target.id
  goneForGood : NeverSaved externals options target targetFirst
  refusedForGood : NeverSaved externals options target requestFirst

section Save

variable {externals : Externals} {options : LmdbOptions} {order : HashOrder} {event : Event}
  {db : Lmdb}

theorem save_rejected_of_not_admits (refuses : ¬ Admits options db event) :
    ∃ reason, ((processOperation externals options order (.saveEvent event)).commit db).1 =
      .ok (.save (.rejected reason)) := by
  obtain ⟨reason, after, _, ran, _⟩ := @save_of_not_admits externals options order event db refuses
  exact ⟨reason, by rw [commit_save ran]⟩

theorem never_of_isDeleted (coherent : db.Coherent) (deleted : db.isDeleted event.id = true) :
    NeverSaved externals options event db := by
  intro later order keepsThem succeeds
  have remembers := @perform_remembers externals options later keepsThem db coherent
  have refuses : ¬ Admits options (perform externals options later db).2 event := by
    intro admits
    cases admits.notDeleted.symm.trans (remembers.deleted event.id deleted)
  obtain ⟨reason, rejected⟩ := @save_rejected_of_not_admits externals options order event _ refuses
  cases rejected.symm.trans succeeds

/-- A saved event is stored. -/
theorem save_stored (coherent : db.Coherent) {after : Lmdb}
    (succeeds : (saveEventWithTxn externals options order event).run db = (.ok .success, after)) :
    after.Coherent ∧ after.Stored (.ofEvent event) := by
  have commits := save_commits coherent succeeds
  refine ⟨commits.coherent coherent, ?_⟩
  cases commits with
  | requested event middle admits processes deletion effect =>
      exact (stored_store (effect.loses.absent admits.absent)).mpr (.inl rfl)
  | vanished event middle admits processes request valid effect =>
      exact (stored_store (effect.loses.absent admits.absent)).mpr (.inl rfl)
  | stored event middle admits ordinary removes =>
      exact (stored_store (removes.absent admits.absent)).mpr (.inl rfl)

theorem Stored.hasEvent {stored : DatabaseEvent} (present : db.Stored stored) :
    db.hasEvent stored.id = true := by
  rw [Lmdb.hasEvent, getEventById, present]
  rfl

theorem hasEvent_eq_false (coherent : db.Coherent) {id : EventId}
    (absent : ∀ stored, db.Stored stored → stored.id ≠ id) : db.hasEvent id = false := by
  rw [hasEvent, Option.isSome_eq_false_iff, Option.isNone_iff_eq_none]
  cases found : db.getEventById id with
  | none => rfl
  | some stored => exact absurd (coherent.keyed id stored found) (absent stored (coherent.stored found))

/-- The author's tombstone refuses the event and becomes one for the ID. -/
theorem save_deletedByAuthor (processes : options.processNip09 = true)
    (ordinary : (event.kind != .eventDeletion) = true)
    (notEphemeral : event.kind.isEphemeral = false) (fresh : db.hasEvent event.id = false)
    (byAuthor : db.isDeletedByAuthor event.id event.pubkey = true) :
    ∃ after, (saveEventWithTxn externals options order event).run db =
      (.ok (.rejected .deleted), after) ∧ after.isDeleted event.id = true ∧
      after.events = db.events := by
  unfold saveEventWithTxn
  rw [notEphemeral, if_neg Bool.false_ne_true, run_get_bind, fresh, if_neg Bool.false_ne_true,
    run_get_bind]
  cases deleted : db.isDeleted event.id with
  | true => exact ⟨db, rfl, deleted, rfl⟩
  | false =>
      rw [if_neg Bool.false_ne_true, run_get_bind, processes, ordinary, byAuthor]
      refine ⟨db.markDeleted event.id, rfl, ?_, rfl⟩
      rw [isDeleted_markDeleted, decide_eq_true rfl, Bool.true_or]

theorem save_succeeds_of_clear (coherent : db.Coherent)
    (ordinary : HasNoEffect externals options event) (admits : Admits options db event)
    (clear : ∀ stored, db.Stored stored → ¬ versionsOf event stored) :
    ∃ after, (saveEventWithTxn externals options order event).run db = (.ok .success, after) := by
  obtain ⟨middle, _, ran⟩ := (@replaceAndStore_run externals options order event db coherent).2
    fun stored present version => absurd version (clear stored present)
  exact ⟨_, by rw [save_of_admits admits, ran, finishSave_hasNoEffect ordinary]⟩

/-- The event can be saved once the stored one is deleted. -/
theorem not_never_of_saved {afresh again : Lmdb}
    (deletes : (delete .id { ids := some (SortedSet.insert .empty event.id) }).run db =
      (.ok (), afresh))
    (saves : (saveEventWithTxn externals options order event).run afresh = (.ok .success, again)) :
    ¬ NeverSaved externals options event db := by
  intro never
  let later : List (HashOrder × IngesterOperation) :=
    [(.id, .delete { ids := some (SortedSet.insert .empty event.id) })]
  have committed := @commit_delete externals options .id _ db afresh deletes
  have reached : (perform externals options later db).2 = afresh := by
    simp only [later, perform, committed]
  apply never later order ⟨by simp [later], by simp [later]⟩
  rw [reached, commit_save saves]

end Save

/-! ## The two orders -/

section Orders

variable {externals : Externals} {options : LmdbOptions} {order : HashOrder}
  {target request : Event} {db : Lmdb}

/-- An event that was not stored is not stored when another one is added. -/
theorem Loses.keepsOut {gone : DatabaseEvent → Prop} {middle : Lmdb} (loses : Loses gone db middle)
    (coherent : (middle.store (.ofEvent request)).Coherent)
    (absent : middle.events.get? request.id = none) (other : target.id ≠ request.id)
    (fresh : db.hasEvent target.id = false) :
    (middle.store (.ofEvent request)).hasEvent target.id = false := by
  apply hasEvent_eq_false coherent
  intro stored isStored sameId
  have absentAlike : middle.events.get? (DatabaseEvent.ofEvent request).id = none := absent
  rcases (stored_store absentAlike).mp isStored with new | old
  · exact other (sameId.symm.trans (congrArg DatabaseEvent.id new))
  · have known := (loses.fewer stored old).hasEvent
    rw [sameId] at known
    cases fresh.symm.trans known

/-- The target came first: the request removes it for good. -/
theorem save_request_removes (coherent : db.Coherent) (processes : options.processNip09 = true)
    (deletion : request.kind.asU16 = 5)
    (names : target.id ∈ Tags.eventIds externals request.tags)
    (present : db.Stored (.ofEvent target)) {after : Lmdb}
    (succeeds : (saveEventWithTxn externals options order request).run db =
      (.ok .success, after)) :
    after.hasEvent target.id = false ∧ NeverSaved externals options target after := by
  have coherentAfter := (save_stored coherent succeeds).1
  obtain ⟨admits, accepts⟩ := save_accepts coherent deletion succeeds
  cases accepts with
  | stores ignores => cases processes.symm.trans ignores
  | deletes _ middle effect =>
      have absent := effect.loses.absent admits.absent
      constructor
      · apply hasEvent_eq_false coherentAfter
        intro stored isStored sameId
        rcases (stored_store absent).mp isStored with new | old
        · have same : request.id = target.id :=
            (congrArg DatabaseEvent.id new).symm.trans sameId
          have known : db.hasEvent request.id = true := same ▸ present.hasEvent
          cases admits.fresh.symm.trans known
        · obtain ⟨storedBefore, spared⟩ := (effect.loses.stored stored).mp old
          exact spared (.inl (sameId ▸ names))
      · apply never_of_isDeleted coherentAfter
        rw [(middle.store_sameTombstones _).isDeleted]
        exact (effect.deleted target.id).mpr (.inr ⟨names, present.hasEvent⟩)

/-- The request came first: the target is refused for good. -/
theorem save_request_refuses (coherent : db.Coherent) (processes : options.processNip09 = true)
    (deletion : request.kind.asU16 = 5) (sameAuthor : request.pubkey = target.pubkey)
    (names : target.id ∈ Tags.eventIds externals request.tags)
    (other : target.id ≠ request.id) (notDeletion : target.kind.asU16 ≠ 5)
    (admitsTarget : Admits options db target) {after : Lmdb}
    (succeeds : (saveEventWithTxn externals options order request).run db = (.ok .success, after))
    (order' : HashOrder) :
    let refused := ((processOperation externals options order' (.saveEvent target)).commit after).2
    refused.hasEvent target.id = false ∧ NeverSaved externals options target refused := by
  have coherentAfter := (save_stored coherent succeeds).1
  obtain ⟨admits, accepts⟩ := save_accepts coherent deletion succeeds
  cases accepts with
  | stores ignores => cases processes.symm.trans ignores
  | deletes _ middle effect =>
      have absent := effect.loses.absent admits.absent
      have fresh : (middle.store (.ofEvent request)).hasEvent target.id = false :=
        effect.loses.keepsOut coherentAfter absent other admitsTarget.fresh
      have byAuthor : (middle.store (.ofEvent request)).isDeletedByAuthor target.id target.pubkey =
          true := by
        rw [(middle.store_sameTombstones _).isDeletedByAuthor, ← sameAuthor]
        exact effect.deletedByAuthor target.id names admitsTarget.fresh
      have ordinary : (target.kind != .eventDeletion) = true := by
        rw [bne, Bool.not_eq_true', Bool.eq_false_iff]
        exact fun isDeletion => notDeletion (Kind.beq_iff.mp isDeletion)
      obtain ⟨refused, ran, deleted, sameEvents⟩ := @save_deletedByAuthor externals options order'
        target _ processes ordinary admitsTarget.notEphemeral fresh byAuthor
      have coherentRefused := (save_commits coherentAfter ran).coherent coherentAfter
      rw [commit_save ran]
      refine ⟨?_, never_of_isDeleted coherentRefused deleted⟩
      rw [hasEvent, getEventById, sameEvents]
      exact fresh

/-- A target that is itself a request is not kept out by the earlier one. -/
theorem save_request_spares (coherent : db.Coherent) (processes : options.processNip09 = true)
    (deletion : request.kind.asU16 = 5) (sameAuthor : request.pubkey = target.pubkey)
    (other : target.id ≠ request.id) (isDeletion : target.kind.asU16 = 5)
    {afterTarget afterRequest : Lmdb} {order' : HashOrder}
    (savesTarget : (saveEventWithTxn externals options order target).run db =
      (.ok .success, afterTarget))
    (savesRequest : (saveEventWithTxn externals options order' request).run db =
      (.ok .success, afterRequest)) (order'' : HashOrder) :
    ((processOperation externals options order'' (.saveEvent target)).commit
      afterRequest).2.hasEvent target.id = true := by
  have coherentAfter := (save_stored coherent savesRequest).1
  obtain ⟨admitsTarget, _⟩ := save_accepts coherent isDeletion savesTarget
  obtain ⟨_, handled, _⟩ := save_handles coherent isDeletion processes savesTarget
  have acceptable := handleDeletionEvent_acceptable coherent handled
  obtain ⟨admits, accepts⟩ := save_accepts coherent deletion savesRequest
  obtain ⟨notReplaceable, notAddressable, special, _⟩ := not_special_of_deletion isDeletion
  cases accepts with
  | stores ignores => cases processes.symm.trans ignores
  | deletes _ middle effect =>
      have absent := effect.loses.absent admits.absent
      have tombstones := middle.store_sameTombstones (.ofEvent request)
      have stays : Admits options (middle.store (.ofEvent request)) target := by
        constructor
        · exact admitsTarget.notEphemeral
        · exact effect.loses.keepsOut coherentAfter absent other admitsTarget.fresh
        · rw [tombstones.isDeleted, Bool.eq_false_iff]
          intro deleted
          rcases (effect.deleted target.id).mp deleted with before | known
          · cases admitsTarget.notDeleted.symm.trans before
          · cases admitsTarget.fresh.symm.trans known.2
        · rw [bne, special, Bool.not_true, Bool.and_false, Bool.false_and]
        · rw [tombstones.isPubkeyVanished, isPubkeyVanished, effect.vanished]
          exact admitsTarget.notVanished
        · rw [isCoordinateDeleted, Event.coordinate, notReplaceable, notAddressable]
          rfl
      have stillAcceptable : Acceptable externals target (middle.store (.ofEvent request)) := by
        refine ⟨acceptable.owned, fun id member known found => ?_, acceptable.fits⟩
        rcases (stored_store absent).mp (coherentAfter.stored found) with new | old
        · rw [new]
          exact sameAuthor
        · have storedBefore := effect.loses.fewer known old
          have sameId : known.id = id := coherentAfter.keyed id known found
          exact acceptable.targetsOwned id member known (sameId ▸ storedBefore)
      obtain ⟨after, ran⟩ := @save_acceptable externals options order'' target _ coherentAfter
        isDeletion processes stays stillAcceptable
      rw [commit_save ran]
      exact (save_stored coherentAfter ran).2.hasEvent

/-- Where deletions are not processed, the target can always come back. -/
theorem not_never_of_ignored (coherent : db.Coherent) (ignores : options.processNip09 = false)
    (deletion : request.kind.asU16 = 5) (sameAuthor : request.pubkey = target.pubkey)
    {afterTarget afterBoth : Lmdb} {order' : HashOrder}
    (savesTarget : (saveEventWithTxn externals options order target).run db =
      (.ok .success, afterTarget))
    (savesRequest : (saveEventWithTxn externals options order' request).run afterTarget =
      (.ok .success, afterBoth)) : ¬ NeverSaved externals options target afterBoth := by
  intro never
  have coherentTarget := (save_stored coherent savesTarget).1
  have coherentBoth := (save_stored coherentTarget savesRequest).1
  obtain ⟨admits, accepts⟩ := save_accepts coherentTarget deletion savesRequest
  cases accepts with
  | deletes processes middle effect => cases ignores.symm.trans processes
  | stores _ =>
  cases save_commits coherent savesTarget with
  | requested event middle _ processes _ effect => cases ignores.symm.trans processes
  | vanished event middle _ processes isVanish valid effect =>
      have vanished : (middle.store (.ofEvent target)).isPubkeyVanished request.pubkey = true := by
        rw [(middle.store_sameTombstones _).isPubkeyVanished, effect.tombstones.isPubkeyVanished,
          isPubkeyVanished_markPubkeyVanished, sameAuthor, decide_eq_true rfl, Bool.true_or]
      cases admits.notVanished.symm.trans vanished
  | stored event middle admitsTarget ordinary removes =>
      have tombstones : SameTombstones db ((middle.store (.ofEvent target)).store (.ofEvent request)) :=
        (removes.tombstones.trans (middle.store_sameTombstones _)).trans (store_sameTombstones _ _)
      obtain ⟨afresh, ran, gone⟩ := delete_id_run coherentBoth target.id
      have fresh : afresh.hasEvent target.id = false :=
        hasEvent_eq_false gone.coherent fun stored isStored => ((gone.stored stored).mp isStored).2
      have admitsAgain : Admits options afresh target := by
        obtain ⟨notEphemeral, _, against⟩ := admits_iff.mp admitsTarget
        refine admits_iff.mpr ⟨notEphemeral, fresh, ?_⟩
        rw [(tombstones.trans gone.tombstones).tombstoneAgainst, against]
      have clear : ∀ stored, afresh.Stored stored → ¬ versionsOf target stored := by
        intro stored isStored version
        obtain ⟨storedBefore, otherId⟩ := (gone.stored stored).mp isStored
        rcases (stored_store admits.absent).mp storedBefore with new | old
        · have sameKind : target.kind.asU16 = 5 := by
            rw [← versionsOf_kind version, new]
            exact deletion
          obtain ⟨notReplaceable, notAddressable, _⟩ := not_special_of_deletion sameKind
          rcases version with replaceable | addressable
          · cases notReplaceable.symm.trans replaceable.1
          · cases notAddressable.symm.trans addressable.1
        · rcases (stored_store (removes.absent admitsTarget.absent)).mp old with own | older
          · exact otherId (congrArg DatabaseEvent.id own)
          · exact ((removes.stored stored).mp older).2 version
      obtain ⟨again, saved⟩ := @save_succeeds_of_clear externals options .id target afresh
        gone.coherent ordinary admitsAgain clear
      exact not_never_of_saved ran saved never

end Orders

/-- In every reached store, the order of arrival is immaterial if and only if
deletions are processed and the target is no deletion request itself. -/
theorem run_orderBlind_iff (externals : Externals) (options : LmdbOptions)
    (operations : List (HashOrder × IngesterOperation)) (first second third fourth : HashOrder)
    (target request : Event) (deletion : request.kind.asU16 = 5)
    (sameAuthor : request.pubkey = target.pubkey)
    (names : target.id ∈ Tags.eventIds externals request.tags)
    (afterTarget afterRequest targetFirst : Lmdb)
    (savesTarget : (saveEventWithTxn externals options first target).run
      (run externals options operations) = (.ok .success, afterTarget))
    (savesRequest : (saveEventWithTxn externals options second request).run
      (run externals options operations) = (.ok .success, afterRequest))
    (thenRequest : (saveEventWithTxn externals options third request).run afterTarget =
      (.ok .success, targetFirst)) :
    OrderBlind externals options target targetFirst
        ((processOperation externals options fourth (.saveEvent target)).commit afterRequest).2 ↔
      options.processNip09 = true ∧ target.kind.asU16 ≠ 5 := by
  have coherent := run_coherent externals options operations
  generalize run externals options operations = db at *
  obtain ⟨coherentTarget, present⟩ := save_stored coherent savesTarget
  obtain ⟨admitsTarget, _⟩ := save_succeeds coherent savesTarget
  obtain ⟨admitsRequest, _⟩ := save_succeeds coherentTarget thenRequest
  have other : target.id ≠ request.id := by
    intro same
    have known : afterTarget.hasEvent target.id = true := present.hasEvent
    rw [same] at known
    cases admitsRequest.fresh.symm.trans known
  constructor
  · intro blind
    have processes : options.processNip09 = true := by
      rw [← Bool.not_eq_false]
      intro ignores
      exact not_never_of_ignored coherent ignores deletion sameAuthor savesTarget thenRequest
        blind.goneForGood
    refine ⟨processes, fun isDeletion => ?_⟩
    have gone := (save_request_removes coherentTarget processes deletion names present thenRequest).1
    have stays := save_request_spares coherent processes deletion sameAuthor other isDeletion
      savesTarget savesRequest fourth
    cases gone.symm.trans (blind.sameAnswer.trans stays)
  · intro condition
    obtain ⟨processes, notDeletion⟩ := condition
    obtain ⟨gone, goneForGood⟩ :=
      save_request_removes coherentTarget processes deletion names present thenRequest
    obtain ⟨refused, refusedForGood⟩ := save_request_refuses coherent processes deletion sameAuthor
      names other notDeletion admitsTarget savesRequest fourth
    exact ⟨gone.trans refused.symm, goneForGood, refusedForGood⟩

/-- A note and its deletion, in both orders. -/
theorem run_orderBlind_note : OrderBlind hexExternals {} note
    ((saveEventWithTxn hexExternals {} .id deletionOfNote).run
      ((saveEventWithTxn hexExternals {} .id note).run (run hexExternals {} [])).2).2
    ((processOperation hexExternals {} .id (.saveEvent note)).commit
      ((saveEventWithTxn hexExternals {} .id deletionOfNote).run (run hexExternals {} [])).2).2 := by
  have savesTarget : ((saveEventWithTxn hexExternals {} .id note).run
      (run hexExternals {} [])).1 = .ok .success := by decide +kernel
  have savesRequest : ((saveEventWithTxn hexExternals {} .id deletionOfNote).run
      (run hexExternals {} [])).1 = .ok .success := by decide +kernel
  have thenRequest : ((saveEventWithTxn hexExternals {} .id deletionOfNote).run
      ((saveEventWithTxn hexExternals {} .id note).run (run hexExternals {} [])).2).1 =
        .ok .success := by decide +kernel
  exact (run_orderBlind_iff hexExternals {} [] .id .id .id .id note deletionOfNote rfl rfl
    (by decide +kernel) _ _ _ (run_eq_of_outcome savesTarget) (run_eq_of_outcome savesRequest)
    (run_eq_of_outcome thenRequest)).mpr ⟨rfl, by decide⟩

/-- The target is a deletion request, which stays when it comes last. -/
theorem run_not_orderBlind : ¬ ∀ externals options operations first second third fourth
    (target request : Event) afterTarget afterRequest targetFirst,
    request.kind.asU16 = 5 → request.pubkey = target.pubkey →
    target.id ∈ Tags.eventIds externals request.tags →
    (saveEventWithTxn externals options first target).run (run externals options operations) =
      (.ok .success, afterTarget) →
    (saveEventWithTxn externals options second request).run (run externals options operations) =
      (.ok .success, afterRequest) →
    (saveEventWithTxn externals options third request).run afterTarget =
      (.ok .success, targetFirst) →
    OrderBlind externals options target targetFirst
      ((processOperation externals options fourth (.saveEvent target)).commit afterRequest).2 := by
  intro blind
  let target := sampleEvent 1 10 .eventDeletion []
  have savesTarget : ((saveEventWithTxn hexExternals {} .id target).run
      (run hexExternals {} [])).1 = .ok .success := by decide +kernel
  have savesRequest : ((saveEventWithTxn hexExternals {} .id deletionOfNote).run
      (run hexExternals {} [])).1 = .ok .success := by decide +kernel
  have thenRequest : ((saveEventWithTxn hexExternals {} .id deletionOfNote).run
      ((saveEventWithTxn hexExternals {} .id target).run (run hexExternals {} [])).2).1 =
        .ok .success := by decide +kernel
  have same := (blind hexExternals {} [] .id .id .id .id target deletionOfNote _ _ _ rfl rfl
    (by decide +kernel) (run_eq_of_outcome savesTarget) (run_eq_of_outcome savesRequest)
    (run_eq_of_outcome thenRequest)).sameAnswer
  have gone : ((saveEventWithTxn hexExternals {} .id deletionOfNote).run
      ((saveEventWithTxn hexExternals {} .id target).run (run hexExternals {} [])).2).2.hasEvent
        target.id = false := by decide +kernel
  have stays : ((processOperation hexExternals {} .id (.saveEvent target)).commit
      ((saveEventWithTxn hexExternals {} .id deletionOfNote).run (run hexExternals {} [])).2).2.hasEvent
        target.id = true := by decide +kernel
  cases gone.symm.trans (same.trans stays)

end RustNostr.NostrLmdb.Lmdb
