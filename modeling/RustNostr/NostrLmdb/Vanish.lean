import Mathlib
import RustNostr.NostrLmdb.ArrivalOrder

/-!
# Vanished public keys

After a request to vanish, the key has no stored events but the request, and
gets no new ones. The gift wraps for the key go as well, whoever signed them.
-/

set_option autoImplicit false

namespace RustNostr.NostrLmdb.Lmdb

open Library Transaction

/-- The request applies to the relay that the store serves. -/
def AppliesHere (externals : Externals) (options : LmdbOptions) (event : DatabaseEvent) : Prop :=
  event.kind = 62 ∧
    Nip62.isValidVanishRequestForRelay externals event.tags options.relayUrl = true

/-- Of a vanished key, the range scans find requests to vanish only. -/
def OnlyRequests (externals : Externals) (options : LmdbOptions) (db : Lmdb) : Prop :=
  ∀ event, db.Stored event → InRange event → db.isPubkeyVanished event.pubkey = true →
    AppliesHere externals options event

section Commit

variable {externals : Externals} {options : LmdbOptions} {db : Lmdb}

theorem OnlyRequests.forgotten {after : Lmdb} (blank : SameTombstones {} after) :
    OnlyRequests externals options after := by
  intro event _ _ vanished
  rw [blank.isPubkeyVanished] at vanished
  cases vanished

/-- Fewer events, the same vanished keys. -/
theorem OnlyRequests.shrinks {after : Lmdb} (only : OnlyRequests externals options db)
    (fewer : ∀ event, after.Stored event → db.Stored event)
    (same : after.vanishedPublicKeys = db.vanishedPublicKeys) :
    OnlyRequests externals options after := by
  intro event stored inRange vanished
  rw [isPubkeyVanished, same] at vanished
  exact only event (fewer event stored) inRange vanished

/-- An event of a key that has not vanished is added. -/
theorem OnlyRequests.store {middle : Lmdb} (only : OnlyRequests externals options middle)
    {event : Event} (absent : middle.events.get? event.id = none)
    (present : middle.isPubkeyVanished event.pubkey = false) :
    OnlyRequests externals options (middle.store (.ofEvent event)) := by
  intro stored isStored inRange vanished
  rw [(middle.store_sameTombstones _).isPubkeyVanished] at vanished
  have absentAlike : middle.events.get? (DatabaseEvent.ofEvent event).id = none := absent
  rcases (stored_store absentAlike).mp isStored with new | old
  · rw [new] at vanished
    cases present.symm.trans vanished
  · exact only stored old inRange vanished

theorem Commits.onlyRequests {operation : IngesterOperation}
    {answer : Except StoreError OperationResult} {after : Lmdb}
    (commits : Commits externals options db operation answer after)
    (only : OnlyRequests externals options db) : OnlyRequests externals options after := by
  cases commits with
  | failed | refused => exact only
  | reindexed => exact .forgotten db.reindex_sameTombstones
  | wiped => exact .forgotten (.refl _)
  | removed filter gone after removes =>
      exact only.shrinks (fun event stored => ((removes.stored event).mp stored).1)
        removes.tombstones.vanishedPublicKeys
  | promoted event reason after promotes =>
      rw [promotes.2.2.2]
      exact only
  | requested event middle admits processes deletion effect =>
      have present : middle.isPubkeyVanished event.pubkey = false := by
        rw [isPubkeyVanished, effect.vanished]
        exact admits.notVanished
      exact (only.shrinks effect.loses.fewer
        effect.vanished).store (effect.loses.absent admits.absent) present
  | vanished event middle admits processes request valid effect =>
      intro stored isStored inRange vanished
      rw [(middle.store_sameTombstones _).isPubkeyVanished, effect.tombstones.isPubkeyVanished,
        isPubkeyVanished_markPubkeyVanished, Bool.or_eq_true, decide_eq_true_iff] at vanished
      rcases (stored_store (effect.loses.absent admits.absent)).mp isStored with new | old
      · rw [new]
        exact ⟨request, valid⟩
      · obtain ⟨storedBefore, stays⟩ := (effect.loses.stored stored).mp old
        rcases vanished with own | before
        · exact absurd ⟨.inl own, inRange⟩ stays
        · exact only stored storedBefore inRange before
  | stored event middle admits ordinary removes =>
      have present : middle.isPubkeyVanished event.pubkey = false := by
        rw [removes.tombstones.isPubkeyVanished]
        exact admits.notVanished
      exact (only.shrinks (fun other stored => ((removes.stored other).mp stored).1)
        removes.tombstones.vanishedPublicKeys).store (removes.absent admits.absent) present

/-- An accepted request to vanish that applies here takes effect. -/
theorem save_request_vanishes (coherent : db.Coherent) {order : HashOrder} {request : Event}
    (processes : options.processNip62 = true)
    (applies : AppliesHere externals options (.ofEvent request)) {after : Lmdb}
    (succeeds : (saveEventWithTxn externals options order request).run db = (.ok .success, after)) :
    ∃ middle, Vanishes externals request.pubkey db middle ∧
      db.events.get? request.id = none ∧ after = middle.store (.ofEvent request) := by
  obtain ⟨isVanish, valid⟩ := applies
  obtain ⟨admits, _⟩ := save_succeeds coherent succeeds
  obtain ⟨middle, effect, saved⟩ := @save_vanishes externals options order db coherent request admits
    processes isVanish valid
  cases succeeds.symm.trans saved
  exact ⟨middle, effect, admits.absent, rfl⟩

end Commit

/-- The request spares the events of other keys, except their gift wraps for the
vanished key. -/
def SparesOtherKeys (externals : Externals) (request : Event) (before after : Lmdb) : Prop :=
  ∀ event, before.Stored event → event.pubkey ≠ request.pubkey →
    (¬ WrappedFor externals request.pubkey event → after.Stored event) ∧
    (WrappedFor externals request.pubkey event → InRange event → ¬ after.Stored event)

theorem Vanishes.sparesOtherKeys {externals : Externals} {request : Event} {db middle : Lmdb}
    (effect : Vanishes externals request.pubkey db middle)
    (absent : db.events.get? request.id = none) :
    SparesOtherKeys externals request db (middle.store (.ofEvent request)) := by
  have absentAfter : middle.events.get? (DatabaseEvent.ofEvent request).id = none :=
    effect.loses.absent absent
  intro event stored otherKey
  constructor
  · intro unwrapped
    apply (stored_store absentAfter).mpr
    refine .inr ((effect.loses.stored event).mpr ⟨stored, fun vanishes => ?_⟩)
    rcases vanishes.1 with own | wrapped
    · exact otherKey own
    · exact unwrapped wrapped
  · intro wrapped inRange isStored
    rcases (stored_store absentAfter).mp isStored with new | old
    · exact otherKey (congrArg DatabaseEvent.pubkey new)
    · exact ((effect.loses.stored event).mp old).2 ⟨.inr wrapped, inRange⟩

/-- What a store keeps to about vanished keys. -/
structure HonoursVanished (externals : Externals) (options : LmdbOptions) (db : Lmdb) : Prop where
  onlyRequests : OnlyRequests externals options db
  refuses : ∀ event : Event, db.isPubkeyVanished event.pubkey = true →
    ∀ later order, KeepsTombstones later → ∃ reason,
      ((processOperation externals options order (.saveEvent event)).commit
        (perform externals options later db).2).1 = .ok (.save (.rejected reason))
  spares : ∀ request order after, options.processNip62 = true →
    AppliesHere externals options (.ofEvent request) →
    (saveEventWithTxn externals options order request).run db = (.ok .success, after) →
      SparesOtherKeys externals request db after

/-- Every sequence of operations leads to such a store. -/
theorem perform_honoursVanished (externals : Externals) (options : LmdbOptions)
    (operations : List (HashOrder × IngesterOperation)) :
    HonoursVanished externals options (perform externals options operations {}).2 := by
  have start : OnlyRequests externals options {} := .forgotten (.refl _)
  obtain ⟨coherent, only⟩ := @perform_keeps externals options (OnlyRequests externals options)
    operations (fun _ _ _ _ _ _ commits => commits.onlyRequests) {} empty_coherent start
  generalize (perform externals options operations {}).2 = db at *
  refine ⟨only, fun event vanished later order keepsThem => ?_, ?_⟩
  · have remembers := @perform_remembers externals options later keepsThem db coherent
    apply save_rejected_of_not_admits
    intro admits
    cases admits.notVanished.symm.trans (remembers.vanished event.pubkey vanished)
  · intro request order after processes applies succeeds
    obtain ⟨middle, effect, absent, same⟩ :=
      save_request_vanishes coherent processes applies succeeds
    subst same
    exact effect.sparesOtherKeys absent

/-- A gift wrap by another key goes with the key that it is for. -/
theorem perform_not_sparesOtherKeys : ¬ ∀ externals options operations order request after,
    options.processNip62 = true → AppliesHere externals options (.ofEvent request) →
    (saveEventWithTxn externals options order request).run
      (perform externals options operations {}).2 = (.ok .success, after) →
    ∀ event, (perform externals options operations {}).2.Stored event →
      event.pubkey ≠ request.pubkey → after.Stored event := by
  intro spares
  let wrap : Event := { sampleEvent 1 10 .giftWrap
      [sampleTag "p" (hexExternals.hexEncode sampleAuthor.val)] with pubkey := .replicate 32 9 }
  let request := sampleEvent 2 20 .requestToVanish [sampleTag "relay" "ALL_RELAYS"]
  let db := (perform hexExternals {} [(.id, .saveEvent wrap)] {}).2
  have accepted : ((saveEventWithTxn hexExternals {} .id request).run db).1 = .ok .success := by
    decide +kernel
  have gone : db.Stored (.ofEvent wrap) ∧
      ¬ ((saveEventWithTxn hexExternals {} .id request).run db).2.Stored (.ofEvent wrap) := by
    unfold Stored
    decide +kernel
  exact gone.2 (spares hexExternals {} [(.id, .saveEvent wrap)] .id request _ rfl
    ⟨rfl, by decide +kernel⟩ (run_eq_of_outcome accepted) _ gone.1 (by decide +kernel))

end RustNostr.NostrLmdb.Lmdb
