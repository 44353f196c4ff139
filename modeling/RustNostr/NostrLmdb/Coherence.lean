import Mathlib
import RustNostr.Library.SecondaryIndex
import RustNostr.NostrLmdb.Store

/-!
# Index coherence

In every state that the operations reach, each index table is the image of the
events table under the keys of `EventIndexKeys::new`.
-/

set_option autoImplicit false

namespace RustNostr.NostrLmdb

open Library

/-! ## The indexes as schemas -/

/-- An index key ends with the ID of the event it belongs to. -/
theorem indexKey_owner {leading leading' : Bytes} {createdAt createdAt' : Timestamp}
    {eventId eventId' : EventId}
    (same : leading ++ makeCiIndexKey createdAt eventId =
      leading' ++ makeCiIndexKey createdAt' eventId') : eventId = eventId' := by
  simp only [makeCiIndexKey, ← List.append_assoc] at same
  exact FixedBytes.bytes_inj.mp
    (List.append_inj_right' same (eventId.property.trans eventId'.property.symm))

/-- An index of the store: the prefixes under which it lists an event. -/
def indexSchema (prefixesOf : DatabaseEvent → List Bytes) :
    IndexSchema EventId Bytes DatabaseEvent where
  idOf := DatabaseEvent.id
  keysOf event := (prefixesOf event).map (· ++ makeCiIndexKey event.createdAt event.id)
  owned left right key ownedLeft ownedRight := by
    obtain ⟨leading, _, rfl⟩ := List.mem_map.mp ownedLeft
    obtain ⟨leading', _, same⟩ := List.mem_map.mp ownedRight
    exact (indexKey_owner same).symm

@[simp] theorem indexSchema_idOf (prefixesOf : DatabaseEvent → List Bytes)
    (event : DatabaseEvent) : (indexSchema prefixesOf).idOf event = event.id := rfl

def ciSchema := indexSchema fun _ => [[]]

def acSchema := indexSchema fun event => [event.pubkey.val]

def akcSchema := indexSchema fun event => [akcPrefix event.pubkey event.kind]

def kcSchema := indexSchema fun event => [kindBe event.kind]

def tagPrefixes (tagPrefix : DatabaseEvent → SingleLetterTag → String → Bytes)
    (event : DatabaseEvent) : List Bytes :=
  (event.tags.filterMap extract).map fun tag => tagPrefix event tag.1 tag.2

def atcSchema := indexSchema (tagPrefixes fun event => atcPrefix event.pubkey)

def ktcSchema := indexSchema (tagPrefixes fun event => ktcPrefix event.kind)

def tcSchema := indexSchema (tagPrefixes fun _ => tcPrefix)

/-! The schemas list the keys that `EventIndexKeys::new` builds. -/

theorem ciSchema_keysOf (event : DatabaseEvent) :
    ciSchema.keysOf event = [(EventIndexKeys.new event).ciIndex] := rfl

theorem acSchema_keysOf (event : DatabaseEvent) :
    acSchema.keysOf event = [(EventIndexKeys.new event).acIndex] := by
  simp [acSchema, indexSchema, EventIndexKeys.new, makeAcIndexKey_eq]

theorem akcSchema_keysOf (event : DatabaseEvent) :
    akcSchema.keysOf event = [(EventIndexKeys.new event).akcIndex] := by
  simp [akcSchema, indexSchema, EventIndexKeys.new, makeAkcIndexKey_eq]

theorem kcSchema_keysOf (event : DatabaseEvent) :
    kcSchema.keysOf event = [(EventIndexKeys.new event).kcIndex] := by
  simp [kcSchema, indexSchema, EventIndexKeys.new, makeKcIndexKey_eq]

theorem atcSchema_keysOf (event : DatabaseEvent) :
    atcSchema.keysOf event = (EventIndexKeys.new event).tags.map TagIndexKeySet.atcIndex := by
  simp [atcSchema, indexSchema, tagPrefixes, EventIndexKeys.new, makeAtcIndexKey_eq,
    Function.comp_def]

theorem ktcSchema_keysOf (event : DatabaseEvent) :
    ktcSchema.keysOf event = (EventIndexKeys.new event).tags.map TagIndexKeySet.ktcIndex := by
  simp [ktcSchema, indexSchema, tagPrefixes, EventIndexKeys.new, makeKtcIndexKey_eq,
    Function.comp_def]

theorem tcSchema_keysOf (event : DatabaseEvent) :
    tcSchema.keysOf event = (EventIndexKeys.new event).tags.map TagIndexKeySet.tcIndex := by
  simp [tcSchema, indexSchema, tagPrefixes, EventIndexKeys.new, makeTcIndexKey_eq,
    Function.comp_def]

namespace Lmdb

/-! ## The tables after an update -/

private theorem foldl_indexTag (id : EventId) (db : Lmdb) (tags : List TagIndexKeySet) :
    tags.foldl (indexTag id) db = { db with
      atcIndex := db.atcIndex.putAll (tags.map TagIndexKeySet.atcIndex) id
      ktcIndex := db.ktcIndex.putAll (tags.map TagIndexKeySet.ktcIndex) id
      tcIndex := db.tcIndex.putAll (tags.map TagIndexKeySet.tcIndex) id } := by
  induction tags generalizing db with
  | nil => rfl
  | cons tag tags ih => rw [List.foldl_cons, ih]; rfl

private theorem foldl_removeTag (db : Lmdb) (tags : List TagIndexKeySet) :
    tags.foldl removeTag db = { db with
      atcIndex := db.atcIndex.deleteAll (tags.map TagIndexKeySet.atcIndex)
      ktcIndex := db.ktcIndex.deleteAll (tags.map TagIndexKeySet.ktcIndex)
      tcIndex := db.tcIndex.deleteAll (tags.map TagIndexKeySet.tcIndex) } := by
  induction tags generalizing db with
  | nil => rfl
  | cons tag tags ih => rw [List.foldl_cons, ih]; rfl

theorem indexEvent_eq (db : Lmdb) (event : DatabaseEvent) :
    db.indexEvent (EventIndexKeys.new event) = { db with
      ciIndex := db.ciIndex.putAll (ciSchema.keysOf event) event.id
      akcIndex := db.akcIndex.putAll (akcSchema.keysOf event) event.id
      acIndex := db.acIndex.putAll (acSchema.keysOf event) event.id
      kcIndex := db.kcIndex.putAll (kcSchema.keysOf event) event.id
      atcIndex := db.atcIndex.putAll (atcSchema.keysOf event) event.id
      ktcIndex := db.ktcIndex.putAll (ktcSchema.keysOf event) event.id
      tcIndex := db.tcIndex.putAll (tcSchema.keysOf event) event.id } := by
  rw [indexEvent, foldl_indexTag, ciSchema_keysOf, akcSchema_keysOf, acSchema_keysOf,
    kcSchema_keysOf, atcSchema_keysOf, ktcSchema_keysOf, tcSchema_keysOf]
  rfl

theorem remove_eq (db : Lmdb) (event : DatabaseEvent) :
    db.remove (EventIndexKeys.new event) = { db with
      events := db.events.delete event.id
      ciIndex := db.ciIndex.deleteAll (ciSchema.keysOf event)
      akcIndex := db.akcIndex.deleteAll (akcSchema.keysOf event)
      acIndex := db.acIndex.deleteAll (acSchema.keysOf event)
      kcIndex := db.kcIndex.deleteAll (kcSchema.keysOf event)
      atcIndex := db.atcIndex.deleteAll (atcSchema.keysOf event)
      ktcIndex := db.ktcIndex.deleteAll (ktcSchema.keysOf event)
      tcIndex := db.tcIndex.deleteAll (tcSchema.keysOf event) } := by
  rw [remove, foldl_removeTag, ciSchema_keysOf, akcSchema_keysOf, acSchema_keysOf,
    kcSchema_keysOf, atcSchema_keysOf, ktcSchema_keysOf, tcSchema_keysOf]
  rfl

/-! ## Coherence -/

def Stored (db : Lmdb) (event : DatabaseEvent) : Prop := db.events.get? event.id = some event

/-- The seven index tables hold the keys of exactly these events. -/
structure Indexed (db : Lmdb) (rows : DatabaseEvent → Prop) : Prop where
  ci : ciSchema.Image rows db.ciIndex
  ac : acSchema.Image rows db.acIndex
  akc : akcSchema.Image rows db.akcIndex
  kc : kcSchema.Image rows db.kcIndex
  atc : atcSchema.Image rows db.atcIndex
  ktc : ktcSchema.Image rows db.ktcIndex
  tc : tcSchema.Image rows db.tcIndex

structure Coherent (db : Lmdb) : Prop where
  keyed : ∀ id event, db.events.get? id = some event → event.id = id
  indexed : db.Indexed db.Stored

theorem Indexed.congr {db : Lmdb} (rows : DatabaseEvent → Prop) {rows' : DatabaseEvent → Prop}
    (indexed : db.Indexed rows)
    (same : ∀ event, rows' event ↔ rows event) : db.Indexed rows' where
  ci := indexed.ci.congr same
  ac := indexed.ac.congr same
  akc := indexed.akc.congr same
  kc := indexed.kc.congr same
  atc := indexed.atc.congr same
  ktc := indexed.ktc.congr same
  tc := indexed.tc.congr same

theorem Indexed.indexEvent {db : Lmdb} {rows : DatabaseEvent → Prop} (indexed : db.Indexed rows)
    (event : DatabaseEvent) :
    (db.indexEvent (EventIndexKeys.new event)).Indexed fun other => other = event ∨ rows other := by
  rw [indexEvent_eq]
  exact {
    ci := indexed.ci.putAll event
    ac := indexed.ac.putAll event
    akc := indexed.akc.putAll event
    kc := indexed.kc.putAll event
    atc := indexed.atc.putAll event
    ktc := indexed.ktc.putAll event
    tc := indexed.tc.putAll event }

theorem Coherent.stored {db : Lmdb} (coherent : db.Coherent) {id : EventId} {event : DatabaseEvent}
    (found : db.getEventById id = some event) : db.Stored event := by
  have identity := coherent.keyed id event found
  rw [Stored, identity]
  exact found

theorem Stored.unique {db : Lmdb} {left right : DatabaseEvent} (storedLeft : db.Stored left)
    (storedRight : db.Stored right) (same : left.id = right.id) : left = right := by
  rw [Stored, same, storedRight] at storedLeft
  exact (Option.some.inj storedLeft).symm

theorem empty_coherent : Coherent {} := by
  have none : ∀ event, ¬ Stored {} event := fun event stored => by
    cases stored
  exact {
    keyed := fun id event found => by cases found
    indexed := {
      ci := IndexSchema.image_empty none
      ac := IndexSchema.image_empty none
      akc := IndexSchema.image_empty none
      kc := IndexSchema.image_empty none
      atc := IndexSchema.image_empty none
      ktc := IndexSchema.image_empty none
      tc := IndexSchema.image_empty none } }

theorem stored_remove {db : Lmdb} {event other : DatabaseEvent} :
    (db.remove (EventIndexKeys.new event)).Stored other ↔
      db.Stored other ∧ other.id ≠ event.id := by
  rw [remove_eq]
  simp only [Stored, SortedTable.get?_delete]
  split
  · next same => simp [same]
  · next different => simp [different]

/-- Removing an event erases its own entries and no entry of another event. -/
theorem Coherent.remove {db : Lmdb} (coherent : db.Coherent) {event : DatabaseEvent}
    (version : ∀ other, db.Stored other → other.id = event.id → other = event) :
    (db.remove (EventIndexKeys.new event)).Coherent := by
  have indexed := coherent.indexed
  constructor
  · intro id other found
    rw [remove_eq] at found
    simp only [SortedTable.get?_delete] at found
    split at found
    · cases found
    · exact coherent.keyed id other found
  · refine Indexed.congr (fun other => db.Stored other ∧ other.id ≠ event.id) ?_
      fun other => stored_remove
    rw [remove_eq]
    exact {
      ci := indexed.ci.deleteAll event version
      ac := indexed.ac.deleteAll event version
      akc := indexed.akc.deleteAll event version
      kc := indexed.kc.deleteAll event version
      atc := indexed.atc.deleteAll event version
      ktc := indexed.ktc.deleteAll event version
      tc := indexed.tc.deleteAll event version }

theorem stored_store {db : Lmdb} {event other : DatabaseEvent}
    (absent : db.events.get? event.id = none) :
    (db.store event).Stored other ↔ other = event ∨ db.Stored other := by
  rw [store, indexEvent_eq]
  simp only [Stored, SortedTable.get?_put]
  split
  · next same =>
      simp only [Option.some.injEq, same, absent, reduceCtorEq, or_false]
      exact eq_comm
  · next different =>
      constructor
      · exact .inr
      · rintro (rfl | stored)
        · exact absurd rfl different
        · exact stored

theorem Coherent.store {db : Lmdb} (coherent : db.Coherent) {event : DatabaseEvent}
    (absent : db.events.get? event.id = none) : (db.store event).Coherent := by
  constructor
  · intro id other found
    rw [Lmdb.store, indexEvent_eq] at found
    simp only [SortedTable.get?_put] at found
    split at found
    · next same =>
        cases found
        exact same.symm
    · exact coherent.keyed id other found
  · refine Indexed.congr (fun other => other = event ∨ db.Stored other) ?_
      fun other => stored_store absent
    have indexed : Indexed { db with events := db.events.put event.id event } db.Stored :=
      { coherent.indexed with }
    exact indexed.indexEvent event

private theorem foldl_indexEvent_indexed (events : List DatabaseEvent) {db : Lmdb}
    {rows : DatabaseEvent → Prop} (indexed : db.Indexed rows) :
    ((events.map EventIndexKeys.new).foldl indexEvent db).Indexed
      (fun event => event ∈ events ∨ rows event) ∧
    ((events.map EventIndexKeys.new).foldl indexEvent db).events = db.events := by
  induction events generalizing db rows with
  | nil => exact ⟨by simpa using indexed, rfl⟩
  | cons event events ih =>
      obtain ⟨later, sameEvents⟩ := ih (indexed.indexEvent event)
      refine ⟨Indexed.congr _ later fun other => ?_, ?_⟩
      · simp only [List.mem_cons]
        tauto
      · rw [List.map_cons, List.foldl_cons, sameEvents, indexEvent_eq]

theorem reindex_indexed (db : Lmdb) :
    db.reindex.Indexed (fun event => event ∈ db.events.values ∨ False) ∧
      db.reindex.events = db.events := by
  have blank : db.wipeIndexes.Indexed fun _ => False := {
    ci := IndexSchema.image_empty fun _ => id
    ac := IndexSchema.image_empty fun _ => id
    akc := IndexSchema.image_empty fun _ => id
    kc := IndexSchema.image_empty fun _ => id
    atc := IndexSchema.image_empty fun _ => id
    ktc := IndexSchema.image_empty fun _ => id
    tc := IndexSchema.image_empty fun _ => id }
  exact foldl_indexEvent_indexed db.events.values blank

theorem Coherent.reindex {db : Lmdb} (coherent : db.Coherent) : db.reindex.Coherent := by
  obtain ⟨indexed, sameEvents⟩ := db.reindex_indexed
  constructor
  · intro id event found
    rw [sameEvents] at found
    exact coherent.keyed id event found
  · refine Indexed.congr _ indexed fun event => ?_
    rw [Stored, sameEvents, or_false, SortedTable.mem_values]
    constructor
    · exact fun stored => ⟨event.id, stored⟩
    · rintro ⟨id, found⟩
      exact coherent.stored found

theorem Coherent.wipe (db : Lmdb) : db.wipe.Coherent := empty_coherent

end Lmdb

end RustNostr.NostrLmdb
