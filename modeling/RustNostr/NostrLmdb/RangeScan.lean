import Mathlib
import RustNostr.Library.BoundedScan
import RustNostr.NostrLmdb.StoreInvariants

/-!
# Range scans

What the range iterators list in a coherent store, and one scan of a query plan
as a step of a bounded scan over ordering keys.
-/

set_option autoImplicit false

namespace RustNostr.NostrLmdb

open Library BoundedScan

abbrev OrderingKey := Timestampᵒᵈ ×ₗ EventId

def orderingKeyAt (createdAt : Timestamp) (id : EventId) : OrderingKey :=
  toLex (OrderDual.toDual createdAt, id)

/-- A range from `since` on ends before this key: its end is exclusive. -/
def sinceBound (since : Timestamp) : OrderingKey := orderingKeyAt since Lmdb.eventIdAll255

/-- The bound that an event leaves when a scan stops at it. -/
def ceiling (key : OrderingKey) : OrderingKey := sinceBound (OrderDual.ofDual (ofLex key).1)

theorem orderingKey_lt_sinceBound {event : DatabaseEvent} {since : Timestamp} :
    event.orderingKey < sinceBound since ↔
      since < event.createdAt ∨
        event.createdAt = since ∧ event.id < Lmdb.eventIdAll255 := by
  rw [DatabaseEvent.orderingKey, sinceBound, orderingKeyAt, Prod.Lex.toLex_lt_toLex]
  rfl

theorem le_ceiling (key : OrderingKey) : key ≤ ceiling key := by
  obtain ⟨createdAt, id⟩ := key
  exact Prod.Lex.toLex_le_toLex.mpr (.inr ⟨rfl, FixedBytes.le_replicate_max id⟩)

theorem sinceBound_le_iff {left right : Timestamp} :
    sinceBound left ≤ sinceBound right ↔ right ≤ left := by
  rw [sinceBound, sinceBound, orderingKeyAt, orderingKeyAt, Prod.Lex.toLex_le_toLex]
  simp only [OrderDual.toDual_lt_toDual, le_refl, and_true, EmbeddingLike.apply_eq_iff_eq]
  exact le_iff_lt_or_eq'.symm

/-- Raising the lower bound to a later creation time is a minimum of bounds. -/
theorem sinceBound_raise (since : Timestamp) (event : DatabaseEvent) :
    sinceBound (if since < event.createdAt then event.createdAt else since) =
      min (sinceBound since) (ceiling event.orderingKey) := by
  change _ = min (sinceBound since) (sinceBound event.createdAt)
  split
  · next later => exact (min_eq_right (sinceBound_le_iff.mpr later.le)).symm
  · next notLater => exact (min_eq_left (sinceBound_le_iff.mpr (not_lt.mp notLater))).symm

theorem since_le_of_lt {event : DatabaseEvent} {since : Timestamp}
    (below : event.orderingKey < sinceBound since) : since ≤ event.createdAt := by
  rcases orderingKey_lt_sinceBound.mp below with later | ⟨same, _⟩
  · exact later.le
  · exact same.ge

namespace Lmdb

theorem makeCiIndexKey_zeros_le {until_ : Timestamp} {event : DatabaseEvent} :
    makeCiIndexKey until_ eventIdAllZeros ≤ makeCiIndexKey event.createdAt event.id ↔
      event.createdAt ≤ until_ := by
  rw [← not_lt, makeCiIndexKey_lt_iff]
  constructor
  · intro notBefore
    exact not_lt.mp fun later => notBefore (.inl later)
  · rintro earlier (later | ⟨_, smaller⟩)
    · exact absurd later (not_lt.mpr earlier)
    · exact absurd smaller (not_lt.mpr (FixedBytes.replicate_zero_le event.id))

theorem makeCiIndexKey_lt_all255 {since : Timestamp} {event : DatabaseEvent} :
    makeCiIndexKey event.createdAt event.id < makeCiIndexKey since eventIdAll255 ↔
      event.orderingKey < sinceBound since := by
  rw [makeCiIndexKey_lt_iff, orderingKey_lt_sinceBound]

theorem makeCiIndexKey_lt_orderingKey {left right : DatabaseEvent} :
    makeCiIndexKey left.createdAt left.id < makeCiIndexKey right.createdAt right.id ↔
      left.orderingKey < right.orderingKey := by
  rw [makeCiIndexKey_lt_iff, DatabaseEvent.orderingKey, DatabaseEvent.orderingKey,
    Prod.Lex.toLex_lt_toLex]
  rfl

/-- The IDs of these stored events. -/
structure Lists (db : Lmdb) (rows : DatabaseEvent → Prop) (ids : List EventId)
    (events : List DatabaseEvent) : Prop where
  ids_eq : ids = events.map DatabaseEvent.id
  mem : ∀ event, event ∈ events ↔ db.Stored event ∧ rows event

theorem filterMap_getEventById {db : Lmdb} {events : List DatabaseEvent}
    (stored : ∀ event ∈ events, db.Stored event) :
    (events.map DatabaseEvent.id).filterMap db.getEventById = events := by
  induction events with
  | nil => rfl
  | cons event events ih =>
      rw [List.map_cons, List.filterMap_cons,
        show db.getEventById event.id = some event from stored event List.mem_cons_self]
      dsimp only
      rw [ih fun other member => stored other (.tail _ member)]

theorem exists_events {db : Lmdb} {ids : List EventId}
    (stored : ∀ id ∈ ids, ∃ event, db.Stored event ∧ event.id = id) :
    ∃ events : List DatabaseEvent, ids = events.map DatabaseEvent.id ∧
      ∀ event ∈ events, db.Stored event := by
  induction ids with
  | nil => exact ⟨[], rfl, fun event member => by cases member⟩
  | cons id ids ih =>
      obtain ⟨event, storedEvent, rfl⟩ := stored id List.mem_cons_self
      obtain ⟨events, rfl, storedEvents⟩ := ih fun other member => stored other (.tail _ member)
      refine ⟨event :: events, rfl, fun other member => ?_⟩
      rcases List.mem_cons.mp member with rfl | member
      · exact storedEvent
      · exact storedEvents other member

/-- A range scan lists the stored events of its prefix and its time window, in
the order of query results. -/
theorem iter_lists {db : Lmdb} {prefixesOf : DatabaseEvent → List Bytes}
    {index : SortedTable Bytes EventId} (image : (indexSchema prefixesOf).Image db.Stored index)
    {leading : Bytes} (aligned : ∀ event, ∀ other ∈ prefixesOf event, other.length = leading.length)
    {key : Timestamp → EventId → Bytes}
    (keyed : ∀ createdAt id, key createdAt id = leading ++ makeCiIndexKey createdAt id)
    (since until_ : Timestamp) :
    ∃ events, db.Lists (fun event => leading ∈ prefixesOf event ∧ event.createdAt ≤ until_ ∧
        event.orderingKey < sinceBound since) (iter index key since until_) events ∧
      events.Pairwise fun left right => left.orderingKey < right.orderingKey := by
  have entry : ∀ entry ∈ index.range (key until_ eventIdAllZeros) (key since eventIdAll255),
      ∃ event, db.Stored event ∧ event.id = entry.2 ∧ leading ∈ prefixesOf event ∧
        entry.1 = leading ++ makeCiIndexKey event.createdAt event.id ∧
        event.createdAt ≤ until_ ∧ event.orderingKey < sinceBound since := by
    rintro ⟨found, id⟩ member
    obtain ⟨present, low, high⟩ := SortedTable.mem_range.mp member
    obtain ⟨event, stored, owns, identity⟩ := (image found id).mp present
    obtain ⟨other, otherMember, rfl⟩ := List.mem_map.mp owns
    have length := aligned event other otherMember
    rw [keyed, append_le_append_iff length.symm, makeCiIndexKey_zeros_le] at low
    rw [keyed, append_lt_append_iff length, makeCiIndexKey_lt_all255] at high
    have same : other = leading := by
      rcases low with less | ⟨same, _⟩
      · rcases high with less' | ⟨same, _⟩
        · exact absurd less (not_lt.mpr less'.le)
        · exact same
      · exact same.symm
    subst same
    refine ⟨event, stored, identity, otherMember, rfl, ?_, ?_⟩
    · exact low.resolve_left (lt_irrefl _) |>.2
    · exact high.resolve_left (lt_irrefl _) |>.2
  have owners : ∀ id ∈ iter index key since until_, ∃ event, db.Stored event ∧ event.id = id := by
    intro id member
    obtain ⟨found, foundMember, rfl⟩ := List.mem_map.mp member
    obtain ⟨event, stored, identity, _⟩ := entry found foundMember
    exact ⟨event, stored, identity⟩
  obtain ⟨events, ids, stored⟩ := exists_events owners
  have events_eq : events = (index.range (key until_ eventIdAllZeros)
      (key since eventIdAll255)).filterMap fun found => db.getEventById found.2 := by
    rw [← filterMap_getEventById stored, ← ids, iter, List.filterMap_map]
    rfl
  refine ⟨events, ⟨ids, fun event => ?_⟩, ?_⟩
  · constructor
    · intro member
      rw [events_eq] at member
      obtain ⟨found, foundMember, present⟩ := List.mem_filterMap.mp member
      obtain ⟨other, otherStored, identity, owns, _, early, late⟩ := entry found foundMember
      rw [← identity, show db.getEventById other.id = some other from otherStored] at present
      cases present
      exact ⟨otherStored, owns, early, late⟩
    · rintro ⟨eventStored, owns, early, late⟩
      rw [events_eq]
      refine List.mem_filterMap.mpr
        ⟨(leading ++ makeCiIndexKey event.createdAt event.id, event.id), ?_, eventStored⟩
      refine SortedTable.mem_range.mpr ⟨?_, ?_, ?_⟩
      · exact (image _ _).mpr ⟨event, eventStored, List.mem_map_of_mem owns, rfl⟩
      · rw [keyed, append_le_append_iff rfl]
        exact .inr ⟨rfl, makeCiIndexKey_zeros_le.mpr early⟩
      · rw [keyed, append_lt_append_iff rfl]
        exact .inr ⟨rfl, makeCiIndexKey_lt_all255.mpr late⟩
  · rw [events_eq, List.pairwise_filterMap]
    refine (index.range_sorted _ _).imp_of_mem ?_
    intro left right leftMember rightMember less event found event' found'
    obtain ⟨owner, owned, identity, _, leftKey, _⟩ := entry left leftMember
    obtain ⟨owner', owned', identity', _, rightKey, _⟩ := entry right rightMember
    rw [← identity, show db.getEventById owner.id = some owner from owned] at found
    rw [← identity', show db.getEventById owner'.id = some owner' from owned'] at found'
    cases found
    cases found'
    rw [leftKey, rightKey, append_lt_append_iff rfl] at less
    exact makeCiIndexKey_lt_orderingKey.mp (less.resolve_left (lt_irrefl _)).2

/-! ## The range iterators -/

/-- The event carries an indexed tag that shares its key prefix with this one:
values are cut and padded to one length. -/
def HasTagPrefix (tagName : SingleLetterTag) (tagValue : String) (event : DatabaseEvent) : Prop :=
  ∃ tag ∈ event.tags.filterMap extract, tcPrefix tag.1 tag.2 = tcPrefix tagName tagValue

instance (tagName : SingleLetterTag) (tagValue : String) (event : DatabaseEvent) :
    Decidable (HasTagPrefix tagName tagValue event) :=
  inferInstanceAs (Decidable (∃ tag ∈ event.tags.filterMap extract, _))

theorem mem_tcPrefixes {tagName : SingleLetterTag} {tagValue : String} {event : DatabaseEvent} :
    tcPrefix tagName tagValue ∈ tagPrefixes (fun _ => tcPrefix) event ↔
      HasTagPrefix tagName tagValue event := by
  simp [tagPrefixes, HasTagPrefix]

/-- A prefix that has more than the tag in it. -/
theorem mem_tagPrefixes_of_split {tagPrefix : DatabaseEvent → SingleLetterTag → String → Bytes} {key : Bytes}
    {own : Prop} {tagName : SingleLetterTag} {tagValue : String} {event : DatabaseEvent}
    (split : ∀ tag : SingleLetterTag × String, tagPrefix event tag.1 tag.2 = key ↔
      own ∧ tcPrefix tag.1 tag.2 = tcPrefix tagName tagValue) :
    key ∈ tagPrefixes tagPrefix event ↔ own ∧ HasTagPrefix tagName tagValue event := by
  simp only [tagPrefixes, List.mem_map, split, HasTagPrefix]
  constructor
  · intro found
    obtain ⟨tag, member, same, samePrefix⟩ := found
    exact ⟨same, tag, member, samePrefix⟩
  · intro found
    obtain ⟨same, tag, member, samePrefix⟩ := found
    exact ⟨tag, member, same, samePrefix⟩

theorem mem_atcPrefixes {author : PublicKey} {tagName : SingleLetterTag} {tagValue : String}
    {event : DatabaseEvent} :
    atcPrefix author tagName tagValue ∈ tagPrefixes (fun event => atcPrefix event.pubkey) event ↔
      event.pubkey = author ∧ HasTagPrefix tagName tagValue event := by
  refine mem_tagPrefixes_of_split fun tag => ?_
  rw [atcPrefix, atcPrefix, append_eq_append_iff (event.pubkey.property.trans author.property.symm),
    FixedBytes.bytes_inj]

theorem mem_ktcPrefixes {kind : UInt16} {tagName : SingleLetterTag} {tagValue : String}
    {event : DatabaseEvent} :
    ktcPrefix kind tagName tagValue ∈ tagPrefixes (fun event => ktcPrefix event.kind) event ↔
      event.kind = kind ∧ HasTagPrefix tagName tagValue event := by
  refine mem_tagPrefixes_of_split fun tag => ?_
  rw [ktcPrefix, ktcPrefix, append_eq_append_iff (by simp), kindBe_inj]

theorem tagPrefixes_aligned {tagPrefix : DatabaseEvent → SingleLetterTag → String → Bytes}
    {length : Nat} (aligned : ∀ event tagName tagValue,
      (tagPrefix event tagName tagValue).length = length) (event : DatabaseEvent) :
    ∀ other ∈ tagPrefixes tagPrefix event, other.length = length := by
  intro other member
  obtain ⟨tag, _, same⟩ := List.mem_map.mp member
  exact same ▸ aligned event tag.1 tag.2

/-- The scan lists, newest first, the stored events among these rows whose
creation time is in the window. -/
def ListsWindow (db : Lmdb) (rows : DatabaseEvent → Prop)
    (ids : Timestamp → Timestamp → List EventId) : Prop :=
  ∀ since until_, ∃ events,
    db.Lists (fun event => rows event ∧ event.createdAt ≤ until_ ∧
      event.orderingKey < sinceBound since) (ids since until_) events ∧
    events.Pairwise fun left right => left.orderingKey < right.orderingKey

private theorem iter_listsWindow {db : Lmdb} {prefixesOf : DatabaseEvent → List Bytes}
    {index : SortedTable Bytes EventId} (image : (indexSchema prefixesOf).Image db.Stored index)
    {leading : Bytes} (aligned : ∀ event, ∀ other ∈ prefixesOf event, other.length = leading.length)
    {key : Timestamp → EventId → Bytes}
    (keyed : ∀ createdAt id, key createdAt id = leading ++ makeCiIndexKey createdAt id)
    {rows : DatabaseEvent → Prop} (owns : ∀ event, leading ∈ prefixesOf event ↔ rows event) :
    db.ListsWindow rows (iter index key) := by
  intro since until_
  simpa only [owns] using iter_lists image aligned keyed since until_

variable {db : Lmdb} (coherent : db.Coherent)

include coherent

theorem ciIter_lists : db.ListsWindow (fun _ => True) db.ciIter := by
  apply iter_listsWindow coherent.indexed.ci
  · intro event other member
    rw [List.mem_singleton.mp member]
  · exact fun _ _ => rfl
  · simp

theorem acIter_lists (author : PublicKey) :
    db.ListsWindow (fun event => event.pubkey = author) (db.acIter author) := by
  apply iter_listsWindow coherent.indexed.ac
  · intro event other member
    rw [List.mem_singleton.mp member, event.pubkey.property, author.property]
  · exact makeAcIndexKey_eq author
  · intro event
    rw [List.mem_singleton, FixedBytes.bytes_inj, eq_comm]

theorem akcIter_lists (author : PublicKey) (kind : UInt16) :
    db.ListsWindow (fun event => event.pubkey = author ∧ event.kind = kind)
      (db.akcIter author kind) := by
  apply iter_listsWindow coherent.indexed.akc
  · intro event other member
    rw [List.mem_singleton.mp member, akcPrefix_length, akcPrefix_length]
  · exact makeAkcIndexKey_eq author kind
  · intro event
    rw [List.mem_singleton, akcPrefix_inj, @eq_comm _ author, @eq_comm _ kind]

theorem kcIter_lists (kind : UInt16) :
    db.ListsWindow (fun event => event.kind = kind) (db.kcIter kind) := by
  apply iter_listsWindow coherent.indexed.kc
  · intro event other member
    rw [List.mem_singleton.mp member, kindBe_length, kindBe_length]
  · exact makeKcIndexKey_eq kind
  · intro event
    rw [List.mem_singleton, kindBe_inj, eq_comm]

theorem tcIter_lists (tagName : SingleLetterTag) (tagValue : String) :
    db.ListsWindow (HasTagPrefix tagName tagValue) (db.tcIter tagName tagValue) := by
  apply iter_listsWindow coherent.indexed.tc
  · rw [tcPrefix_length tagName tagValue]
    exact tagPrefixes_aligned fun _ => tcPrefix_length
  · exact makeTcIndexKey_eq tagName tagValue
  · exact fun event => mem_tcPrefixes

theorem atcIter_lists (author : PublicKey) (tagName : SingleLetterTag) (tagValue : String) :
    db.ListsWindow (fun event => event.pubkey = author ∧ HasTagPrefix tagName tagValue event)
      (db.atcIter author tagName tagValue) := by
  apply iter_listsWindow coherent.indexed.atc
  · rw [atcPrefix_length author tagName tagValue]
    exact tagPrefixes_aligned fun event => atcPrefix_length event.pubkey
  · exact makeAtcIndexKey_eq author tagName tagValue
  · exact fun event => mem_atcPrefixes

theorem ktcIter_lists (kind : UInt16) (tagName : SingleLetterTag) (tagValue : String) :
    db.ListsWindow (fun event => event.kind = kind ∧ HasTagPrefix tagName tagValue event)
      (db.ktcIter kind tagName tagValue) := by
  apply iter_listsWindow coherent.indexed.ktc
  · rw [ktcPrefix_length kind tagName tagValue]
    exact tagPrefixes_aligned fun event => ktcPrefix_length event.kind
  · exact makeKtcIndexKey_eq kind tagName tagValue
  · exact fun event => mem_ktcPrefixes

end Lmdb

end RustNostr.NostrLmdb
