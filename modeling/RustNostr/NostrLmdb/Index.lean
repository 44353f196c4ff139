import Mathlib
import RustNostr.Nostr.Filter

/-! Database events and the keys they are indexed under
(`nostr-lmdb/src/store/event.rs`, `nostr-lmdb/src/store/lmdb/index.rs`). -/

set_option autoImplicit false

namespace RustNostr.NostrLmdb

open Library

/-- An event as the database holds it. Its flatbuffer encoding is read back
unchanged, so the tables hold the event itself. -/
structure DatabaseEvent where
  id : EventId
  pubkey : PublicKey
  createdAt : Timestamp
  kind : UInt16
  tags : List Tag
  content : String
  sig : Signature
  deriving DecidableEq

namespace DatabaseEvent

def ofEvent (event : Event) : DatabaseEvent where
  id := event.id
  pubkey := event.pubkey
  createdAt := event.createdAt
  kind := event.kind.asU16
  tags := event.tags
  content := event.content
  sig := event.sig

/-- The key of the `Ord` implementation: newest first, then smallest ID. -/
def orderingKey (event : DatabaseEvent) : Timestampᵒᵈ ×ₗ EventId :=
  toLex (OrderDual.toDual event.createdAt, event.id)

end DatabaseEvent

/-- `DatabaseTag::extract` -/
def extract (tag : Tag) : Option (SingleLetterTag × String) :=
  match tag.buf with
  | name :: value :: _ => (SingleLetterTag.fromStr name).map (·, value)
  | _ => none

def tagValuePadLen : Nat := 182

def reverseAndConvToBe64 (createdAt : Timestamp) : Bytes :=
  bigEndian 8 (18446744073709551615 - createdAt.toNat)

def kindBe (kind : UInt16) : Bytes := bigEndian 2 kind.toNat

def extendKeyWithTagValue (key : Bytes) (len : Nat) (tagValue : String) : Bytes :=
  let tagValue := utf8 tagValue
  if len ≤ tagValuePadLen then key ++ tagValue ++ List.replicate (tagValuePadLen - len) 0
  else key ++ tagValue.take tagValuePadLen

def makeCiIndexKey (createdAt : Timestamp) (eventId : EventId) : Bytes :=
  reverseAndConvToBe64 createdAt ++ eventId.val

def makeTcIndexKey (tagName : SingleLetterTag) (tagValue : String) (createdAt : Timestamp)
    (eventId : EventId) : Bytes :=
  extendKeyWithTagValue [tagName.byte] (utf8 tagValue).length tagValue ++
    reverseAndConvToBe64 createdAt ++ eventId.val

def makeAcIndexKey (author : PublicKey) (createdAt : Timestamp) (eventId : EventId) : Bytes :=
  author.val ++ reverseAndConvToBe64 createdAt ++ eventId.val

def makeAkcIndexKey (author : PublicKey) (kind : UInt16) (createdAt : Timestamp)
    (eventId : EventId) : Bytes :=
  author.val ++ kindBe kind ++ reverseAndConvToBe64 createdAt ++ eventId.val

def makeKcIndexKey (kind : UInt16) (createdAt : Timestamp) (eventId : EventId) : Bytes :=
  kindBe kind ++ reverseAndConvToBe64 createdAt ++ eventId.val

def makeAtcIndexKey (author : PublicKey) (tagName : SingleLetterTag) (tagValue : String)
    (createdAt : Timestamp) (eventId : EventId) : Bytes :=
  extendKeyWithTagValue (author.val ++ [tagName.byte]) (utf8 tagValue).length tagValue ++
    reverseAndConvToBe64 createdAt ++ eventId.val

def makeKtcIndexKey (kind : UInt16) (tagName : SingleLetterTag) (tagValue : String)
    (createdAt : Timestamp) (eventId : EventId) : Bytes :=
  extendKeyWithTagValue (kindBe kind ++ [tagName.byte]) (utf8 tagValue).length tagValue ++
    reverseAndConvToBe64 createdAt ++ eventId.val

/-- Unlike the tag indexes, this passes the capped length on, so a longer
identifier is appended whole. -/
def makeCoordinateIndexKey (coordinate : Coordinate) : Bytes :=
  let dlen := min (utf8 coordinate.identifier).length tagValuePadLen
  extendKeyWithTagValue
    (kindBe coordinate.kind.asU16 ++ coordinate.publicKey.val ++ [UInt8.ofNat dlen])
    dlen coordinate.identifier

def makeAuthorDeletionKey (eventId : EventId) (author : PublicKey) : Bytes :=
  eventId.val ++ author.val

structure TagIndexKeySet where
  atcIndex : Bytes
  ktcIndex : Bytes
  tcIndex : Bytes
  deriving DecidableEq

structure EventIndexKeys where
  id : EventId
  ciIndex : Bytes
  akcIndex : Bytes
  acIndex : Bytes
  kcIndex : Bytes
  tags : List TagIndexKeySet
  deriving DecidableEq

def EventIndexKeys.new (event : DatabaseEvent) : EventIndexKeys where
  id := event.id
  ciIndex := makeCiIndexKey event.createdAt event.id
  akcIndex := makeAkcIndexKey event.pubkey event.kind event.createdAt event.id
  acIndex := makeAcIndexKey event.pubkey event.createdAt event.id
  kcIndex := makeKcIndexKey event.kind event.createdAt event.id
  tags := (event.tags.filterMap extract).map fun (tagName, tagValue) => {
    atcIndex := makeAtcIndexKey event.pubkey tagName tagValue event.createdAt event.id
    ktcIndex := makeKtcIndexKey event.kind tagName tagValue event.createdAt event.id
    tcIndex := makeTcIndexKey tagName tagValue event.createdAt event.id
  }

/-! ## Key shape

Every index key is a prefix of one length for its index, the reversed creation
time and the event ID. -/

@[simp] theorem reverseAndConvToBe64_length (createdAt : Timestamp) :
    (reverseAndConvToBe64 createdAt).length = 8 := bigEndian_length _ _

@[simp] theorem kindBe_length (kind : UInt16) : (kindBe kind).length = 2 := bigEndian_length _ _

theorem kindBe_inj {left right : UInt16} : kindBe left = kindBe right ↔ left = right := by
  have leftFits := left.toNat_lt
  have rightFits := right.toNat_lt
  rw [kindBe, kindBe, bigEndian_inj (by omega) (by omega), UInt16.toNat_inj]

theorem reverseAndConvToBe64_lt_iff {left right : Timestamp} :
    reverseAndConvToBe64 left < reverseAndConvToBe64 right ↔ right < left := by
  have leftFits := left.toNat_lt
  have rightFits := right.toNat_lt
  rw [reverseAndConvToBe64, reverseAndConvToBe64, bigEndian_lt_iff (by omega) (by omega),
    UInt64.lt_iff_toNat_lt]
  omega

theorem reverseAndConvToBe64_inj {left right : Timestamp} :
    reverseAndConvToBe64 left = reverseAndConvToBe64 right ↔ left = right := by
  have leftFits := left.toNat_lt
  have rightFits := right.toNat_lt
  rw [reverseAndConvToBe64, reverseAndConvToBe64, bigEndian_inj (by omega) (by omega),
    ← UInt64.toNat_inj]
  omega

def padTagValue (tagValue : String) : Bytes :=
  extendKeyWithTagValue [] (utf8 tagValue).length tagValue

theorem extendKeyWithTagValue_eq (key : Bytes) (tagValue : String) :
    extendKeyWithTagValue key (utf8 tagValue).length tagValue = key ++ padTagValue tagValue := by
  simp only [padTagValue, extendKeyWithTagValue, List.nil_append]
  split <;> simp only [List.append_assoc]

theorem padTagValue_length (tagValue : String) :
    (padTagValue tagValue).length = tagValuePadLen := by
  simp only [padTagValue, extendKeyWithTagValue, List.nil_append]
  split
  · next fits =>
      simp only [List.length_append, List.length_replicate]
      omega
  · next long =>
      rw [List.length_take]
      omega

def tcPrefix (tagName : SingleLetterTag) (tagValue : String) : Bytes :=
  tagName.byte :: padTagValue tagValue

def akcPrefix (author : PublicKey) (kind : UInt16) : Bytes := author.val ++ kindBe kind

def atcPrefix (author : PublicKey) (tagName : SingleLetterTag) (tagValue : String) : Bytes :=
  author.val ++ tcPrefix tagName tagValue

def ktcPrefix (kind : UInt16) (tagName : SingleLetterTag) (tagValue : String) : Bytes :=
  kindBe kind ++ tcPrefix tagName tagValue

theorem makeTcIndexKey_eq (tagName : SingleLetterTag) (tagValue : String)
    (createdAt : Timestamp) (eventId : EventId) :
    makeTcIndexKey tagName tagValue createdAt eventId =
      tcPrefix tagName tagValue ++ makeCiIndexKey createdAt eventId := by
  simp [makeTcIndexKey, makeCiIndexKey, tcPrefix, extendKeyWithTagValue_eq]

theorem makeAcIndexKey_eq (author : PublicKey) (createdAt : Timestamp) (eventId : EventId) :
    makeAcIndexKey author createdAt eventId = author.val ++ makeCiIndexKey createdAt eventId := by
  simp [makeAcIndexKey, makeCiIndexKey]

theorem makeAkcIndexKey_eq (author : PublicKey) (kind : UInt16) (createdAt : Timestamp)
    (eventId : EventId) :
    makeAkcIndexKey author kind createdAt eventId =
      akcPrefix author kind ++ makeCiIndexKey createdAt eventId := by
  simp [makeAkcIndexKey, makeCiIndexKey, akcPrefix]

theorem makeKcIndexKey_eq (kind : UInt16) (createdAt : Timestamp) (eventId : EventId) :
    makeKcIndexKey kind createdAt eventId = kindBe kind ++ makeCiIndexKey createdAt eventId := by
  simp [makeKcIndexKey, makeCiIndexKey]

theorem makeAtcIndexKey_eq (author : PublicKey) (tagName : SingleLetterTag) (tagValue : String)
    (createdAt : Timestamp) (eventId : EventId) :
    makeAtcIndexKey author tagName tagValue createdAt eventId =
      atcPrefix author tagName tagValue ++ makeCiIndexKey createdAt eventId := by
  simp [makeAtcIndexKey, makeCiIndexKey, atcPrefix, tcPrefix, extendKeyWithTagValue_eq]

theorem makeKtcIndexKey_eq (kind : UInt16) (tagName : SingleLetterTag) (tagValue : String)
    (createdAt : Timestamp) (eventId : EventId) :
    makeKtcIndexKey kind tagName tagValue createdAt eventId =
      ktcPrefix kind tagName tagValue ++ makeCiIndexKey createdAt eventId := by
  simp [makeKtcIndexKey, makeCiIndexKey, ktcPrefix, tcPrefix, extendKeyWithTagValue_eq]

@[simp] theorem tcPrefix_length (tagName : SingleLetterTag) (tagValue : String) :
    (tcPrefix tagName tagValue).length = 183 := by
  simp [tcPrefix, padTagValue_length, tagValuePadLen]

@[simp] theorem akcPrefix_length (author : PublicKey) (kind : UInt16) :
    (akcPrefix author kind).length = 34 := by
  simp [akcPrefix, author.property]

@[simp] theorem atcPrefix_length (author : PublicKey) (tagName : SingleLetterTag)
    (tagValue : String) : (atcPrefix author tagName tagValue).length = 215 := by
  simp [atcPrefix, author.property]

@[simp] theorem ktcPrefix_length (kind : UInt16) (tagName : SingleLetterTag)
    (tagValue : String) : (ktcPrefix kind tagName tagValue).length = 185 := by
  simp [ktcPrefix]

theorem akcPrefix_inj {author author' : PublicKey} {kind kind' : UInt16} :
    akcPrefix author kind = akcPrefix author' kind' ↔ author = author' ∧ kind = kind' := by
  rw [akcPrefix, akcPrefix, append_eq_append_iff (author.property.trans author'.property.symm),
    kindBe_inj, FixedBytes.bytes_inj]

/-- Two keys with prefixes of one length compare prefix first, then newest
first, then by ID. -/
theorem makeCiIndexKey_lt_iff {createdAt createdAt' : Timestamp} {eventId eventId' : EventId} :
    makeCiIndexKey createdAt eventId < makeCiIndexKey createdAt' eventId' ↔
      createdAt' < createdAt ∨ createdAt = createdAt' ∧ eventId < eventId' := by
  rw [makeCiIndexKey, makeCiIndexKey, append_lt_append_iff (by simp),
    reverseAndConvToBe64_lt_iff, reverseAndConvToBe64_inj]
  rfl

theorem makeCiIndexKey_inj {createdAt createdAt' : Timestamp} {eventId eventId' : EventId} :
    makeCiIndexKey createdAt eventId = makeCiIndexKey createdAt' eventId' ↔
      createdAt = createdAt' ∧ eventId = eventId' := by
  rw [makeCiIndexKey, makeCiIndexKey, append_eq_append_iff (by simp),
    reverseAndConvToBe64_inj, FixedBytes.bytes_inj]

end RustNostr.NostrLmdb
