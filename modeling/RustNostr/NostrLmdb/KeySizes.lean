import Mathlib
import RustNostr.Nostr.CoordinateText
import RustNostr.NostrLmdb.Commits
import RustNostr.NostrLmdb.CoordinateTimes

/-!
# Key sizes

LMDB refuses to write a key of more than 511 bytes. The keys of the indexes have
fixed lengths far below that; the key of a deleted coordinate grows with its
identifier.
-/

set_option autoImplicit false

namespace RustNostr.NostrLmdb

open Library Transaction

/-- `kind(2)` + `author(32)` + `d_len(1)` + `d(182)` -/
def coordinateKeyLen : Nat := 217

/-- An identifier that is longer than the field for it is appended whole. -/
theorem makeCoordinateIndexKey_length (coordinate : Coordinate) :
    (makeCoordinateIndexKey coordinate).length =
      35 + max (utf8 coordinate.identifier).length tagValuePadLen := by
  unfold makeCoordinateIndexKey extendKeyWithTagValue
  dsimp only
  rw [if_pos (min_le_right _ _)]
  simp only [List.length_append, kindBe_length, coordinate.publicKey.property, List.length_replicate,
    List.length_singleton]
  omega

theorem coordinateKeyLen_iff (coordinate : Coordinate) :
    (makeCoordinateIndexKey coordinate).length = coordinateKeyLen ↔
      (utf8 coordinate.identifier).length ≤ tagValuePadLen := by
  rw [makeCoordinateIndexKey_length, coordinateKeyLen, tagValuePadLen]
  omega

namespace Lmdb

theorem coordinateKey_fits_iff (coordinate : Coordinate) :
    (makeCoordinateIndexKey coordinate).length ≤ maxKeySize ↔
      (utf8 coordinate.identifier).length ≤ 476 := by
  rw [makeCoordinateIndexKey_length, maxKeySize, tagValuePadLen]
  omega

/-- Whatever the tags of an event hold, its index keys can be written. -/
theorem indexKeys_fit (event : DatabaseEvent) :
    (EventIndexKeys.new event).ciIndex.length ≤ maxKeySize ∧
    (EventIndexKeys.new event).akcIndex.length ≤ maxKeySize ∧
    (EventIndexKeys.new event).acIndex.length ≤ maxKeySize ∧
    (EventIndexKeys.new event).kcIndex.length ≤ maxKeySize ∧
    ∀ tag ∈ (EventIndexKeys.new event).tags, tag.atcIndex.length ≤ maxKeySize ∧
      tag.ktcIndex.length ≤ maxKeySize ∧ tag.tcIndex.length ≤ maxKeySize := by
  have timed : ∀ leading : Bytes, leading.length ≤ 215 → ∀ createdAt (id : EventId),
      (leading ++ makeCiIndexKey createdAt id).length ≤ maxKeySize := by
    intro leading short createdAt id
    rw [makeCiIndexKey, List.length_append, List.length_append, reverseAndConvToBe64_length,
      id.property, maxKeySize]
    omega
  refine ⟨timed [] (by decide) event.createdAt event.id, ?_, ?_, ?_, fun tag member => ?_⟩
  · rw [EventIndexKeys.new, makeAkcIndexKey_eq]
    exact timed _ (by rw [akcPrefix_length]; decide) _ _
  · rw [EventIndexKeys.new, makeAcIndexKey_eq]
    exact timed _ (by rw [event.pubkey.property]; decide) _ _
  · rw [EventIndexKeys.new, makeKcIndexKey_eq]
    exact timed _ (by rw [kindBe_length]; decide) _ _
  · obtain ⟨extracted, _, same⟩ := List.mem_map.mp member
    subst same
    dsimp only
    rw [makeAtcIndexKey_eq, makeKtcIndexKey_eq, makeTcIndexKey_eq]
    refine ⟨timed _ ?_ _ _, timed _ ?_ _ _, timed _ ?_ _ _⟩
    · rw [atcPrefix_length]
    · rw [ktcPrefix_length]
      decide
    · rw [tcPrefix_length]
      decide

/-! ## Deletion requests with a long identifier -/

variable {externals : Externals} {options : LmdbOptions} {order : HashOrder} {event : Event}
  {db : Lmdb}

theorem deleteCoordinates_overflows (coherent : db.Coherent) {createdAt : Timestamp}
    {coordinates : List Coordinate}
    (long : ∃ coordinate ∈ coordinates, maxKeySize < (makeCoordinateIndexKey coordinate).length) :
    ((coordinates.forM (deleteCoordinate createdAt)).run db).1 = .error .badValSize := by
  induction coordinates generalizing db with
  | nil =>
      obtain ⟨_, member, _⟩ := long
      cases member
  | cons coordinate coordinates ih =>
      change ((deleteCoordinate createdAt coordinate >>= fun _ =>
        coordinates.forM (deleteCoordinate createdAt)).run db).1 = _
      rw [run_bind]
      by_cases fits : (makeCoordinateIndexKey coordinate).length ≤ maxKeySize
      · obtain ⟨middle, ran, removes⟩ := deleteCoordinate_run coherent createdAt fits
        rw [ran]
        apply ih removes.coherent
        obtain ⟨other, member, tooLong⟩ := long
        cases List.mem_cons.mp member with
        | inl same => exact absurd fits (not_le.mpr (same ▸ tooLong))
        | inr later => exact ⟨other, later, tooLong⟩
      · rw [deleteCoordinate_fails createdAt (not_le.mp fits)]

/-- What the request names is its author's. -/
structure Owned (externals : Externals) (request : Event) (db : Lmdb) : Prop where
  coordinates : ∀ coordinate ∈ Tags.coordinates externals request.tags,
    coordinate.publicKey = request.pubkey
  targets : ∀ id ∈ Tags.eventIds externals request.tags, ∀ target,
    db.getEventById id = some target → target.pubkey = request.pubkey

theorem handleDeletionEvent_of_not_owned (foreign : ¬ Owned externals event db) :
    (handleDeletionEvent externals event).run db = (.ok true, db) := by
  unfold handleDeletionEvent
  dsimp only
  by_cases found : (Tags.coordinates externals event.tags).any
      (fun coordinate => coordinate.publicKey ≠ event.pubkey) = true
  · rw [if_pos found]
    rfl
  · rw [if_neg found, run_get_bind]
    cases collected : db.collectTargets event.pubkey (Tags.eventIds externals event.tags) with
    | none => rfl
    | some targets =>
        have coordinates : ∀ coordinate ∈ Tags.coordinates externals event.tags,
            coordinate.publicKey = event.pubkey := by simpa using found
        exact absurd ⟨coordinates, (collectTargets_some collected).2.2⟩ foreign

theorem handleDeletionEvent_overflows (coherent : db.Coherent) (owned : Owned externals event db)
    (long : ∃ coordinate ∈ Tags.coordinates externals event.tags,
      maxKeySize < (makeCoordinateIndexKey coordinate).length) :
    ((handleDeletionEvent externals event).run db).1 = .error .badValSize := by
  obtain ⟨⟨known, unknown⟩, collected⟩ := collectTargets_of_owned owned.targets
  have failed := @deleteCoordinates_overflows _ (targets_coherent coherent event.pubkey
    (Tags.eventIds externals event.tags)
    ((Tags.eventIds externals event.tags).filter fun id => (db.getEventById id).isNone))
    event.createdAt _ long
  rw [handleDeletionEvent_parts coherent owned.coordinates collected, run_bind]
  rcases ran : ((Tags.coordinates externals event.tags).forM
    (deleteCoordinate event.createdAt)).run _ with ⟨outcome, after⟩
  rw [ran] at failed
  cases failed
  rfl

/-! ## Saves -/

theorem vanishAndStore_succeeds (coherent : db.Coherent) :
    ((vanishAndStore externals options order event).run db).1 = .ok .success := by
  unfold vanishAndStore
  split
  · obtain ⟨middle, ran, _⟩ := handleRequestToVanish_run coherent externals order event.pubkey
    rw [run_bind, ran]
    rfl
  · rfl

/-- The event is a deletion request that would be accepted, but one of its
identifiers has no room in a key. -/
structure Overflows (externals : Externals) (options : LmdbOptions) (event : Event) (db : Lmdb) :
    Prop where
  processes : options.processNip09 = true
  deletion : event.kind.asU16 = 5
  admits : Admits options db event
  owned : Owned externals event db
  long : ∃ coordinate ∈ Tags.coordinates externals event.tags,
    476 < (utf8 coordinate.identifier).length

/-- A deletion request either overflows a key or ends with a status. -/
theorem saveDeletion_ends_or_overflows (coherent : db.Coherent) (admits : Admits options db event)
    (processes : options.processNip09 = true) (deletion : event.kind.asU16 = 5) :
    (∃ status, ((finishSave externals options order event).run db).1 = .ok status) ∧
        ¬ Overflows externals options event db ∨
      ((finishSave externals options order event).run db).1 = .error .badValSize ∧
        Overflows externals options event db := by
  obtain ⟨_, _, isDeletion, notVanish⟩ := not_special_of_deletion deletion
  rw [finishSave, isDeletion, processes, Bool.and_true, if_pos rfl, run_bind]
  by_cases owned : Owned externals event db
  · by_cases long : ∃ coordinate ∈ Tags.coordinates externals event.tags,
        476 < (utf8 coordinate.identifier).length
    · have tooLong : ∃ coordinate ∈ Tags.coordinates externals event.tags,
          maxKeySize < (makeCoordinateIndexKey coordinate).length := by
        obtain ⟨coordinate, member, long⟩ := long
        exact ⟨coordinate, member, not_le.mp fun fits =>
          absurd ((coordinateKey_fits_iff coordinate).mp fits) (not_le.mpr long)⟩
      have failed := handleDeletionEvent_overflows coherent owned tooLong
      refine .inr ⟨?_, processes, deletion, admits, owned, long⟩
      rcases ran : (handleDeletionEvent externals event).run db with ⟨outcome, after⟩
      rw [ran] at failed
      cases failed
      rfl
    · have acceptable : Acceptable externals event db := {
        owned := owned.coordinates
        targetsOwned := owned.targets
        fits := fun coordinate member => (coordinateKey_fits_iff coordinate).mpr
          (not_lt.mp fun tooLong => long ⟨coordinate, member, tooLong⟩) }
      obtain ⟨middle, ran, _⟩ := handleDeletionEvent_run coherent acceptable
      refine .inl ⟨⟨.success, ?_⟩, fun overflows => long overflows.long⟩
      rw [ran]
      exact congrArg Prod.fst (vanishAndStore_ordinary notVanish)
  · rw [handleDeletionEvent_of_not_owned owned]
    exact .inl ⟨⟨_, rfl⟩, fun overflows => owned overflows.owned⟩

/-- A save that deletes nothing ends with a status. -/
theorem replaceAndStore_ends (coherent : db.Coherent)
    (ignored : ¬ (options.processNip09 = true ∧ event.kind.asU16 = 5)) :
    ∃ status, ((replaceAndStore externals options order event).run db).1 = .ok status := by
  obtain ⟨stays, moves⟩ := @replaceAndStore_run externals options order event db coherent
  by_cases beaten : ∃ stored, db.Stored stored ∧ versionsOf event stored ∧
      hasEventBeenReplaced stored event = true
  · exact ⟨_, congrArg Prod.fst (stays beaten)⟩
  · obtain ⟨middle, removes, ran⟩ := moves fun stored present version =>
      Bool.eq_false_iff.mpr fun beats => beaten ⟨stored, present, version, beats⟩
    have deletesNothing : ¬ (options.processNip09 && event.kind == .eventDeletion) = true := by
      rw [Bool.and_eq_true, Kind.beq_iff]
      exact ignored
    rw [ran, finishSave, if_neg deletesNothing]
    exact ⟨_, vanishAndStore_succeeds removes.coherent⟩

theorem save_ends_or_overflows (coherent : db.Coherent) :
    (∃ status, ((saveEventWithTxn externals options order event).run db).1 = .ok status) ∧
        ¬ Overflows externals options event db ∨
      ((saveEventWithTxn externals options order event).run db).1 = .error .badValSize ∧
        Overflows externals options event db := by
  by_cases admits : Admits options db event
  · rw [save_of_admits admits]
    by_cases deletes : options.processNip09 = true ∧ event.kind.asU16 = 5
    · rw [replaceAndStore_deletion deletes.2]
      exact saveDeletion_ends_or_overflows coherent admits deletes.1 deletes.2
    · exact .inl ⟨replaceAndStore_ends coherent deletes,
        fun overflows => deletes ⟨overflows.processes, overflows.deletion⟩⟩
  · obtain ⟨reason, after, _, ran, _⟩ := @save_of_not_admits externals options order event db admits
    rw [ran]
    exact .inl ⟨⟨_, rfl⟩, fun overflows => admits overflows.admits⟩

/-- The key of a coordinate has its documented length as long as the identifier
has room in its field; different coordinates have different keys, whatever their
identifiers; and the only saves that fail with the error for the size of a key
are those of deletion requests whose identifiers have no room in a key. -/
theorem run_keysFit_iff (externals : Externals) (options : LmdbOptions)
    (operations : List (HashOrder × IngesterOperation)) :
    coordinateKeyLen ≤ maxKeySize ∧
    (∀ coordinate, (makeCoordinateIndexKey coordinate).length = coordinateKeyLen ↔
      (utf8 coordinate.identifier).length ≤ tagValuePadLen) ∧
    (∀ left right, makeCoordinateIndexKey left = makeCoordinateIndexKey right ↔ left.Same right) ∧
    ∀ order event, ((saveEventWithTxn externals options order event).run
        (run externals options operations)).1 ≠ .error .badValSize ↔
      ¬ Overflows externals options event (run externals options operations) := by
  refine ⟨by decide, coordinateKeyLen_iff, fun left right => makeCoordinateIndexKey_inj,
    fun order event => ?_⟩
  cases @save_ends_or_overflows externals options order event _
      (run_coherent externals options operations) with
  | inl ends =>
      obtain ⟨⟨status, same⟩, within⟩ := ends
      rw [same]
      exact iff_of_true (fun impossible => by cases impossible) within
  | inr fails =>
      obtain ⟨same, overflows⟩ := fails
      rw [same]
      exact iff_of_false (fun differs => differs rfl) (fun within => within overflows)

def longCoordinate : Coordinate := ⟨.custom 30000, sampleAuthor, String.ofList (.replicate 477 'a')⟩

def longRequest : Event :=
  sampleEvent 1 10 .eventDeletion [sampleTag "a" (longCoordinate.display hexExternals)]

theorem longIdentifier_length : (utf8 longCoordinate.identifier).length = 477 := by decide +kernel

theorem longRequest_coordinates :
    Tags.coordinates hexExternals longRequest.tags = [longCoordinate] := by
  have plain : longCoordinate.identifier.toList.takeWhile (· ≠ ':') =
      longCoordinate.identifier.toList := by
    rw [longCoordinate, String.toList_ofList]
    decide +kernel
  have read := Coordinate.fromKpiFormat_display hexExternals_hexCodec longCoordinate
  have kind : Kind.fromU16 longCoordinate.kind.asU16 = longCoordinate.kind := by decide
  rw [plain, String.ofList_toList, kind] at read
  have listed : ∀ text, Tags.coordinates hexExternals [sampleTag "a" text] =
      [text].filterMap (Coordinate.fromKpiFormat hexExternals) := fun _ => rfl
  change Tags.coordinates hexExternals [sampleTag "a" (longCoordinate.display hexExternals)] = _
  rw [listed, List.filterMap_cons_some read, List.filterMap_nil]

/-- The key has no fixed length, and a request for a coordinate with a long
identifier makes the write fail. -/
theorem makeCoordinateIndexKey_not_fixed :
    (¬ ∃ length, ∀ coordinate, (makeCoordinateIndexKey coordinate).length = length) ∧
    ((saveEventWithTxn hexExternals {} .id longRequest).run (run hexExternals {} [])).1 =
      .error .badValSize := by
  constructor
  · intro fixed
    obtain ⟨length, same⟩ := fixed
    have short := same { longCoordinate with identifier := "" }
    have long := same longCoordinate
    rw [makeCoordinateIndexKey_length] at short long
    rw [longIdentifier_length] at long
    have blank : (utf8 "").length = 0 := rfl
    rw [blank] at short
    rw [tagValuePadLen] at short long
    omega
  · have overflows : Overflows hexExternals {} longRequest (run hexExternals {} []) := {
      processes := rfl
      deletion := rfl
      admits := ⟨rfl, rfl, rfl, rfl, rfl, rfl⟩
      owned := {
        coordinates := fun coordinate member => by
          rw [longRequest_coordinates] at member
          rw [List.mem_singleton.mp member]
          rfl
        targets := fun id _ target found => by cases found }
      long := ⟨longCoordinate, by rw [longRequest_coordinates]; exact List.mem_singleton_self _,
        by rw [longIdentifier_length]; decide⟩ }
    cases @save_ends_or_overflows hexExternals {} .id longRequest _
        (run_coherent hexExternals {} []) with
    | inl ends => exact absurd overflows ends.2
    | inr fails => exact fails.1

end Lmdb

end RustNostr.NostrLmdb
