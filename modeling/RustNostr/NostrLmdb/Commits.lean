import Mathlib
import RustNostr.NostrLmdb.Deletions

/-!
# Committed operations

Everything that one operation can do when it runs in a transaction of its own,
and what a sequence of such operations keeps.
-/

set_option autoImplicit false

namespace RustNostr.NostrLmdb.Lmdb

open Library Transaction

/-! ## Vanishing -/

/-- A gift wrap with a `p` tag for the public key. -/
def WrappedFor (externals : Externals) (pubkey : PublicKey) (event : DatabaseEvent) : Prop :=
  event.kind = 1059 ∧
    (SingleLetterTag.lowercaseP, externals.hexEncode pubkey.val) ∈ event.tags.filterMap extract

/-- What goes when the public key vanishes: its events and its gift wraps, as far
as the range scans list them. -/
def VanishesWith (externals : Externals) (pubkey : PublicKey) (event : DatabaseEvent) : Prop :=
  (event.pubkey = pubkey ∨ WrappedFor externals pubkey event) ∧ InRange event

structure Vanishes (externals : Externals) (pubkey : PublicKey) (before after : Lmdb) : Prop where
  loses : Loses (VanishesWith externals pubkey) before after
  tombstones : SameTombstones (before.markPubkeyVanished pubkey) after

theorem mem_everything {db : Lmdb} {filter : DatabaseFilter} {event : DatabaseEvent}
    (stored : db.Stored event) :
    event.orderingKey ∈ db.everything filter (sinceBound .min) ↔
      filter.matchEvent event = true ∧ InRange event := by
  constructor
  · intro found
    obtain ⟨other, otherStored, wants, _, sameKey, below⟩ := found
    have same := otherStored.unique stored
      (congrArg (fun key : OrderingKey => (ofLex key).2) sameKey)
    subst same
    exact ⟨wants, below⟩
  · intro held
    exact ⟨event, stored, held.1, trivial, rfl, held.2⟩

/-- The filter of an author or of a tag value has no other constraint. -/
theorem matchEvent_authored {pubkey : PublicKey} {event : DatabaseEvent} :
    (DatabaseFilter.ofFilter .id (Filter.new.author pubkey)).matchEvent event = true ↔
      event.pubkey = pubkey := by
  have authors : (DatabaseFilter.ofFilter .id (Filter.new.author pubkey)).authors = [pubkey] := rfl
  have wants : (DatabaseFilter.ofFilter .id (Filter.new.author pubkey)).matchEvent event =
      (DatabaseFilter.ofFilter .id (Filter.new.author pubkey)).authorsMatch event := by
    simp [DatabaseFilter.matchEvent, DatabaseFilter.idsMatch, DatabaseFilter.kindMatch,
      DatabaseFilter.tagMatch, DatabaseFilter.searchMatch, DatabaseFilter.ofFilter, Filter.author,
      Filter.new, HashOrder.id, SortedTable.empty]
  rw [wants, DatabaseFilter.authorsMatch, authors]
  simp

/-- The test of a tag against a filter with one value for one letter. -/
theorem carries_iff {tag : Tag} {letter : SingleLetterTag} {value : String} :
    (match extract tag with
      | some (first, content) => first == letter && [value].contains content
      | none => false) = true ↔ extract tag = some (letter, value) := by
  cases extract tag with
  | none => simp
  | some pair => simp [Prod.ext_iff]

theorem matchEvent_wrapped {externals : Externals} {pubkey : PublicKey} {event : DatabaseEvent} :
    (DatabaseFilter.ofFilter .id ((Filter.new.kind .giftWrap).pubkey externals pubkey)).matchEvent
      event = true ↔ WrappedFor externals pubkey event := by
  let filter := DatabaseFilter.ofFilter .id ((Filter.new.kind .giftWrap).pubkey externals pubkey)
  have kinds : filter.kinds = [1059] := rfl
  have tags : filter.genericTags.entries =
      [(.lowercaseP, SortedSet.insert .empty (externals.hexEncode pubkey.val))] := rfl
  have wants : filter.matchEvent event = (filter.kindMatch event && filter.tagMatch event) := by
    simp [filter, DatabaseFilter.matchEvent, DatabaseFilter.idsMatch, DatabaseFilter.authorsMatch,
      DatabaseFilter.searchMatch, DatabaseFilter.ofFilter, Filter.pubkey, Filter.customTag,
      Filter.kind, Filter.new, HashOrder.id]
  have tagged : filter.tagMatch event = true ↔
      (SingleLetterTag.lowercaseP, externals.hexEncode pubkey.val) ∈
        event.tags.filterMap extract := by
    have values : SortedSet.elems (SortedSet.insert .empty (externals.hexEncode pubkey.val)) =
        [externals.hexEncode pubkey.val] := rfl
    rw [DatabaseFilter.tagMatch, tags, List.mem_filterMap]
    cases listed : event.tags with
    | nil => simp
    | cons tag rest =>
        rw [if_neg (by simp), if_neg (by simp), List.all_cons, List.all_nil, Bool.and_true]
        dsimp only
        rw [values, List.any_eq_true]
        exact exists_congr fun tag => and_congr_right fun _ => carries_iff
  rw [show DatabaseFilter.ofFilter .id ((Filter.new.kind .giftWrap).pubkey externals pubkey) =
    filter from rfl, wants, Bool.and_eq_true, tagged, DatabaseFilter.kindMatch, kinds, WrappedFor]
  simp

theorem delete_authored_run {db : Lmdb} (coherent : db.Coherent) (order : HashOrder)
    (pubkey : PublicKey) :
    ∃ after, (delete order (Filter.new.author pubkey)).run db = (.ok (), after) ∧
      Removes (fun event => event.pubkey = pubkey ∧ InRange event) db after := by
  obtain ⟨after, ran, removes⟩ := delete_run coherent order (Filter.new.author pubkey) rfl
  refine ⟨after, ran, removes.congr fun event stored => ?_⟩
  rw [db.answerable_ofFilter order .id]
  have answered : db.answerable (DatabaseFilter.ofFilter .id (Filter.new.author pubkey)) =
      db.everything (DatabaseFilter.ofFilter .id (Filter.new.author pubkey)) (sinceBound .min) := rfl
  rw [answered, mem_everything stored, matchEvent_authored]

theorem delete_wrapped_run {db : Lmdb} (coherent : db.Coherent) (externals : Externals)
    (order : HashOrder) (pubkey : PublicKey) :
    ∃ after,
      (delete order ((Filter.new.kind .giftWrap).pubkey externals pubkey)).run db =
        (.ok (), after) ∧
      Removes (fun event => WrappedFor externals pubkey event ∧ InRange event) db after := by
  let request := (Filter.new.kind .giftWrap).pubkey externals pubkey
  obtain ⟨after, ran, removes⟩ := delete_run coherent order request rfl
  refine ⟨after, ran, removes.congr fun event stored => ?_⟩
  rw [db.answerable_ofFilter order .id]
  have answered : db.answerable (DatabaseFilter.ofFilter .id request) =
      db.everything (DatabaseFilter.ofFilter .id request) (sinceBound .min) := rfl
  rw [answered, mem_everything stored, matchEvent_wrapped]

theorem handleRequestToVanish_run {db : Lmdb} (coherent : db.Coherent) (externals : Externals)
    (order : HashOrder) (pubkey : PublicKey) :
    ∃ after, (handleRequestToVanish externals order pubkey).run db = (.ok (), after) ∧
      Vanishes externals pubkey db after := by
  have marked : (db.markPubkeyVanished pubkey).Coherent :=
    Coherent.durable.tombstones db _ _ _ _ coherent
  obtain ⟨middle, ran, authored⟩ := delete_authored_run marked order pubkey
  obtain ⟨after, ranWrapped, wrapped⟩ := delete_wrapped_run authored.coherent externals order pubkey
  refine ⟨after, ?_, ?_⟩
  · unfold handleRequestToVanish
    rw [run_bind]
    change (delete order (Filter.new.author pubkey) >>= fun _ =>
      delete order ((Filter.new.kind .giftWrap).pubkey externals pubkey)).run
        (db.markPubkeyVanished pubkey) = _
    rw [run_bind, ran]
    exact ranWrapped
  · have both := authored.loses.trans wrapped.loses
    refine ⟨⟨both.coherent, fun event => ?_⟩, authored.tombstones.trans wrapped.tombstones⟩
    rw [both.stored, VanishesWith]
    have sameStored : (db.markPubkeyVanished pubkey).Stored event ↔ db.Stored event := Iff.rfl
    tauto

/-! ## One operation -/

/-- The save deletes nothing and makes nobody vanish. -/
def HasNoEffect (externals : Externals) (options : LmdbOptions) (event : Event) : Prop :=
  (options.processNip09 && event.kind == .eventDeletion) = false ∧
    (options.processNip62 && event.kind == .requestToVanish &&
      Nip62.isValidVanishRequestForRelay externals event.tags options.relayUrl) = false

/-- What an operation can do in a transaction of its own. -/
inductive Commits (externals : Externals) (options : LmdbOptions) (db : Lmdb) :
    IngesterOperation → Except StoreError OperationResult → Lmdb → Prop where
  | failed (operation : IngesterOperation) (error : StoreError) :
      Commits externals options db operation (.error error) db
  | reindexed : Commits externals options db .reindex (.ok .done) db.reindex
  | wiped : Commits externals options db .wipe (.ok .done) {}
  | removed (filter : Filter) (gone : DatabaseEvent → Prop) (after : Lmdb)
      (removes : Removes gone db after) :
      Commits externals options db (.delete filter) (.ok .done) after
  | refused (event : Event) (reason : RejectedReason) :
      Commits externals options db (.saveEvent event) (.ok (.save (.rejected reason))) db
  | promoted (event : Event) (reason : RejectedReason) (after : Lmdb)
      (promotes : Promoted options event db after) :
      Commits externals options db (.saveEvent event) (.ok (.save (.rejected reason))) after
  | requested (event : Event) (middle : Lmdb) (admits : Admits options db event)
      (processes : options.processNip09 = true) (deletion : event.kind.asU16 = 5)
      (effect : Deletes externals event db middle) :
      Commits externals options db (.saveEvent event) (.ok (.save .success))
        (middle.store (.ofEvent event))
  | vanished (event : Event) (middle : Lmdb) (admits : Admits options db event)
      (processes : options.processNip62 = true) (request : event.kind.asU16 = 62)
      (valid : Nip62.isValidVanishRequestForRelay externals event.tags options.relayUrl = true)
      (effect : Vanishes externals event.pubkey db middle) :
      Commits externals options db (.saveEvent event) (.ok (.save .success))
        (middle.store (.ofEvent event))
  | stored (event : Event) (middle : Lmdb) (admits : Admits options db event)
      (ordinary : HasNoEffect externals options event)
      (removes : Removes (versionsOf event) db middle) :
      Commits externals options db (.saveEvent event) (.ok (.save .success))
        (middle.store (.ofEvent event))

section Commit

variable {externals : Externals} {options : LmdbOptions} {order : HashOrder} {db : Lmdb}

theorem special_of_vanish {kind : Kind} (vanish : kind.asU16 = 62) :
    kind.isReplaceable = false ∧ kind.isAddressable = false ∧ (kind == .eventDeletion) = false ∧
      (kind == .requestToVanish) = true := by
  have isVanish : (kind == .requestToVanish) = true := Kind.beq_iff.mpr vanish
  refine ⟨?_, ?_, ?_, isVanish⟩
  · rw [Bool.eq_false_iff]
    intro replaceable
    cases (Kind.not_special_of_isReplaceable replaceable).2.symm.trans isVanish
  · rw [Bool.eq_false_iff]
    intro addressable
    cases (Kind.not_special_of_isAddressable addressable).2.symm.trans isVanish
  · rw [Bool.eq_false_iff]
    intro deletion
    have other : kind.asU16 = 5 := Kind.beq_iff.mp deletion
    rw [vanish] at other
    cases other

theorem finishSave_hasNoEffect {event : Event} (ordinary : HasNoEffect externals options event) :
    (finishSave externals options order event).run db =
      (.ok .success, db.store (.ofEvent event)) := by
  unfold finishSave vanishAndStore
  rw [ordinary.1, ordinary.2]
  rfl

theorem save_vanishes (coherent : db.Coherent) {event : Event} (admits : Admits options db event)
    (processes : options.processNip62 = true) (request : event.kind.asU16 = 62)
    (valid : Nip62.isValidVanishRequestForRelay externals event.tags options.relayUrl = true) :
    ∃ middle, Vanishes externals event.pubkey db middle ∧
      (saveEventWithTxn externals options order event).run db =
        (.ok .success, middle.store (.ofEvent event)) := by
  obtain ⟨notReplaceable, notAddressable, notDeletion, isVanish⟩ := special_of_vanish request
  obtain ⟨middle, ran, effect⟩ := handleRequestToVanish_run coherent externals order event.pubkey
  refine ⟨middle, effect, ?_⟩
  rw [save_of_admits admits, replaceAndStore_of_steps (replaceReplaceable_other notReplaceable db)
    (replaceAddressable_other (.inl notAddressable) db), if_neg Bool.false_ne_true]
  have condition : (options.processNip62 && event.kind == .requestToVanish &&
      Nip62.isValidVanishRequestForRelay externals event.tags options.relayUrl) = true := by
    rw [processes, isVanish, valid]
    rfl
  have vanishes : (vanishAndStore externals options order event).run db =
      (.ok .success, middle.store (.ofEvent event)) := by
    unfold vanishAndStore
    rw [if_pos condition, run_bind, ran]
    rfl
  unfold finishSave
  rw [notDeletion, Bool.and_false, if_neg Bool.false_ne_true]
  exact vanishes

theorem save_commits (coherent : db.Coherent) {event : Event} {status : SaveEventStatus}
    {after : Lmdb}
    (ran : (saveEventWithTxn externals options order event).run db = (.ok status, after)) :
    Commits externals options db (.saveEvent event) (.ok (.save status)) after := by
  cases status with
  | rejected reason =>
      rcases save_rejected coherent ran with same | promotes
      · subst same
        exact .refused event reason
      · exact .promoted event reason after promotes
  | success =>
      obtain ⟨admits, _, middle, removes, finished⟩ := save_succeeds coherent ran
      cases deletes : options.processNip09 && event.kind == .eventDeletion with
      | true =>
          rw [Bool.and_eq_true] at deletes
          have deletion : event.kind.asU16 = 5 := Kind.beq_iff.mp deletes.2
          obtain ⟨_, accepts⟩ := save_accepts coherent deletion ran
          cases accepts with
          | deletes processes middle effect =>
              exact .requested event middle admits processes deletion effect
          | stores ignores => cases deletes.1.symm.trans ignores
      | false =>
          cases vanishes : options.processNip62 && event.kind == .requestToVanish &&
              Nip62.isValidVanishRequestForRelay externals event.tags options.relayUrl with
          | true =>
              simp only [Bool.and_eq_true, and_assoc] at vanishes
              have request : event.kind.asU16 = 62 := Kind.beq_iff.mp vanishes.2.1
              obtain ⟨middle, effect, saved⟩ := @save_vanishes externals options order db coherent
                event admits vanishes.1 request vanishes.2.2
              cases ran.symm.trans saved
              exact .vanished event middle admits vanishes.1 request vanishes.2.2 effect
          | false =>
              rw [finishSave_hasNoEffect ⟨deletes, vanishes⟩] at finished
              cases finished
              exact .stored event middle admits ⟨deletes, vanishes⟩ removes

theorem commit_commits (coherent : db.Coherent) (operation : IngesterOperation) :
    Commits externals options db operation
      ((processOperation externals options order operation).commit db).1
      ((processOperation externals options order operation).commit db).2 := by
  cases operation with
  | reindex => exact .reindexed
  | wipe => exact .wiped
  | saveEvent event =>
      rcases ran : (saveEventWithTxn externals options order event).run db with ⟨outcome, after⟩
      cases outcome with
      | ok status =>
          rw [commit_save ran]
          exact save_commits coherent ran
      | error error =>
          have failed : (processOperation externals options order (.saveEvent event)).run db =
              (.error error, after) := by
            unfold processOperation
            rw [run_bind, ran]
          rw [commit, failed]
          exact .failed _ error
  | delete filter =>
      cases queried : db.query order filter with
      | ok events =>
          have ran : (delete order filter).run db =
              (.ok (), db.removeAll (events.map EventIndexKeys.new)) := by
            unfold delete
            rw [run_read_bind (fun db : Lmdb => db.query order filter) queried]
            rfl
          have stored := query_stored coherent queried
          rw [commit_delete ran]
          refine .removed filter (· ∈ events) _ (removeAll_removes coherent fun event => ?_)
          exact ⟨fun member => ⟨stored event member, member⟩, And.right⟩
      | error error =>
          have failed : (processOperation externals options order (.delete filter)).run db =
              (.error error, db) := by
            have read : (Transaction.read fun db : Lmdb => db.query order filter).run db =
                (.error error, db) := by
              rw [← queried]
              rfl
            unfold processOperation delete
            rw [run_bind, run_bind, read]
          rw [commit, failed]
          exact .failed _ error

theorem Commits.coherent (coherent : db.Coherent) {operation : IngesterOperation}
    {answer : Except StoreError OperationResult} {after : Lmdb}
    (commits : Commits externals options db operation answer after) : after.Coherent := by
  cases commits with
  | failed | refused => exact coherent
  | reindexed => exact coherent.reindex
  | wiped => exact empty_coherent
  | removed filter gone after removes => exact removes.coherent
  | promoted event reason after promotes =>
      rw [promotes.2.2.2]
      exact Coherent.durable.markDeleted coherent event.id
  | requested event middle admits processes deletion effect =>
      exact effect.loses.coherent.store (effect.loses.absent admits.absent)
  | vanished event middle admits processes request valid effect =>
      exact effect.loses.coherent.store (effect.loses.absent admits.absent)
  | stored event middle admits ordinary removes =>
      exact removes.coherent.store (removes.absent admits.absent)

end Commit

/-! ## Sequences of operations -/

/-- What every commit keeps, a sequence of operations keeps. -/
theorem perform_keeps {externals : Externals} {options : LmdbOptions} {keeps : Lmdb → Prop}
    {operations : List (HashOrder × IngesterOperation)}
    (each : ∀ db operation answer after, operation ∈ operations.map Prod.snd → db.Coherent →
      Commits externals options db operation answer after → keeps db → keeps after)
    {db : Lmdb} (coherent : db.Coherent) (held : keeps db) :
    (perform externals options operations db).2.Coherent ∧
      keeps (perform externals options operations db).2 := by
  induction operations generalizing db with
  | nil => exact ⟨coherent, held⟩
  | cons first operations ih =>
      obtain ⟨order, operation⟩ := first
      have commits := @commit_commits externals options order db coherent operation
      exact ih (fun db operation answer after member => each db operation answer after (.tail _ member))
        (commits.coherent coherent) (each db operation _ _ List.mem_cons_self coherent commits held)

theorem perform_coherent (externals : Externals) (options : LmdbOptions)
    (operations : List (HashOrder × IngesterOperation)) {db : Lmdb} (coherent : db.Coherent) :
    (perform externals options operations db).2.Coherent :=
  (@perform_keeps externals options (fun _ => True) operations
    (fun _ _ _ _ _ _ _ _ => trivial) db coherent trivial).1

/-- No operation wipes the tombstones. -/
def KeepsTombstones (operations : List (HashOrder × IngesterOperation)) : Prop :=
  .reindex ∉ operations.map Prod.snd ∧ .wipe ∉ operations.map Prod.snd

/-- The tombstones for IDs and public keys are still there. -/
structure Remembers (before after : Lmdb) : Prop where
  deleted : ∀ id, before.isDeleted id = true → after.isDeleted id = true
  vanished : ∀ pk, before.isPubkeyVanished pk = true → after.isPubkeyVanished pk = true

theorem Remembers.trans {first second third : Lmdb} (left : Remembers first second)
    (right : Remembers second third) : Remembers first third where
  deleted id marked := right.deleted id (left.deleted id marked)
  vanished pk marked := right.vanished pk (left.vanished pk marked)

theorem SameTombstones.remembers {before after : Lmdb} (same : SameTombstones before after) :
    Remembers before after where
  deleted id marked := (same.isDeleted id).trans marked
  vanished pk marked := (same.isPubkeyVanished pk).trans marked

theorem Commits.remembers {externals : Externals} {options : LmdbOptions} {db : Lmdb}
    {operation : IngesterOperation} {answer : Except StoreError OperationResult} {after : Lmdb}
    (commits : Commits externals options db operation answer after)
    (notReindex : operation ≠ .reindex) (notWipe : operation ≠ .wipe) : Remembers db after := by
  cases commits with
  | failed | refused => exact (SameTombstones.refl db).remembers
  | reindexed => exact absurd rfl notReindex
  | wiped => exact absurd rfl notWipe
  | removed filter gone after removes => exact removes.tombstones.remembers
  | promoted event reason after promotes =>
      rw [promotes.2.2.2]
      refine ⟨fun id marked => ?_, fun pk marked => marked⟩
      rw [isDeleted_markDeleted, marked, Bool.or_true]
  | requested event middle admits processes deletion effect =>
      have effects : Remembers db middle := by
        refine ⟨fun id marked => (effect.deleted id).mpr (.inl marked), fun pk marked => ?_⟩
        rw [isPubkeyVanished, effect.vanished]
        exact marked
      exact effects.trans (middle.store_sameTombstones _).remembers
  | vanished event middle admits processes request valid effect =>
      have marks : Remembers db (db.markPubkeyVanished event.pubkey) := by
        refine ⟨fun id marked => marked, fun pk marked => ?_⟩
        rw [isPubkeyVanished_markPubkeyVanished, marked, Bool.or_true]
      exact (marks.trans effect.tombstones.remembers).trans
        (middle.store_sameTombstones _).remembers
  | stored event middle admits ordinary removes =>
      exact removes.tombstones.remembers.trans (middle.store_sameTombstones _).remembers

theorem perform_remembers {externals : Externals} {options : LmdbOptions}
    {operations : List (HashOrder × IngesterOperation)} (keepsThem : KeepsTombstones operations)
    {db : Lmdb} (coherent : db.Coherent) :
    Remembers db (perform externals options operations db).2 := by
  apply (@perform_keeps externals options (Remembers db) operations _ db coherent
    (SameTombstones.refl db).remembers).2
  intro before operation answer after member _ commits held
  refine held.trans (commits.remembers ?_ ?_)
  · exact fun same => keepsThem.1 (same ▸ member)
  · exact fun same => keepsThem.2 (same ▸ member)

end RustNostr.NostrLmdb.Lmdb
