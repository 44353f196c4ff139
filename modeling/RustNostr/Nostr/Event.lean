import Mathlib
import RustNostr.Library.ByteString

/-!
# Events

Kinds, tags, coordinates and events (`nostr/src/event`, `nostr/src/nips/nip01`).
Texts are Lean strings, which are UTF-8 byte arrays as Rust's are. What the
crates outside the repository compute is a parameter, `Externals`.
-/

set_option autoImplicit false

namespace RustNostr

open Library

abbrev EventId := FixedBytes 32

abbrev PublicKey := FixedBytes 32

abbrev Signature := FixedBytes 64

namespace EventId

/-- `u8::leading_zeros` -/
def leadingZeros (byte : UInt8) : Nat := 8 - Nat.size byte.toNat

/-- `nip13::get_leading_zero_bits`, at most 255. -/
def leadingZeroBits : Bytes → Nat
  | [] => 0
  | byte :: rest => min 255 (if byte = 0 then 8 + leadingZeroBits rest else leadingZeros byte)

def checkPow (id : EventId) (difficulty : Nat) : Bool := difficulty ≤ leadingZeroBits id.val

end EventId

/-- UNIX seconds, a `u64`. -/
abbrev Timestamp := UInt64

namespace Timestamp

def min : Timestamp := 0

def max : Timestamp := 18446744073709551615

theorem min_le (time : Timestamp) : min ≤ time := by
  simp [min, UInt64.le_iff_toNat_le]

theorem le_max (time : Timestamp) : time ≤ max := by
  have bound := time.toNat_lt
  simp only [max, UInt64.le_iff_toNat_le, UInt64.reduceToNat]
  omega

end Timestamp

/-- A relay URL, by the serialised `url::Url` it is compared by. -/
structure RelayUrl where
  url : String
  deriving DecidableEq

/-- The functions of other crates that the modelled code reaches:
`faster_hex::hex_decode` into 32 bytes and `hex_encode`, and `RelayUrl::parse`,
which rests on the `url` crate. -/
structure Externals where
  hexDecode : String → Option (FixedBytes 32)
  hexEncode : Bytes → String
  relayUrlParse : String → Option RelayUrl

/-- `str::parse` of an unsigned number: an optional plus sign, then decimal
digits, together less than the bound. -/
def parseUnsigned (bound : Nat) (text : List Char) : Option Nat :=
  let digits := match text with
    | '+' :: rest => rest
    | other => other
  if digits.isEmpty || !digits.all Char.isDigit then none
  else
    let number := digits.foldl (fun total digit => total * 10 + (digit.toNat - '0'.toNat)) 0
    if number < bound then some number else none

def Timestamp.fromStr (text : List Char) : Option Timestamp :=
  (parseUnsigned 18446744073709551616 text).map UInt64.ofNat

/-! ## Kinds -/

/-- Event kinds. The variants are those that modelled code names; every other
named variant of the source acts through its number alone, like `custom`. -/
inductive Kind where
  | metadata
  | contactList
  | eventDeletion
  | channelMetadata
  | requestToVanish
  | giftWrap
  | custom (number : UInt16)
  deriving DecidableEq

namespace Kind

def asU16 : Kind → UInt16
  | metadata => 0
  | contactList => 3
  | eventDeletion => 5
  | channelMetadata => 41
  | requestToVanish => 62
  | giftWrap => 1059
  | custom number => number

def fromU16 (kind : UInt16) : Kind :=
  if kind = 0 then metadata
  else if kind = 3 then contactList
  else if kind = 5 then eventDeletion
  else if kind = 41 then channelMetadata
  else if kind = 62 then requestToVanish
  else if kind = 1059 then giftWrap
  else custom kind

/-- `PartialEq for Kind`: kinds are equal when their numbers are. -/
instance : BEq Kind := ⟨fun left right => left.asU16 == right.asU16⟩

theorem beq_iff {left right : Kind} : (left == right) = true ↔ left.asU16 = right.asU16 :=
  beq_iff_eq (a := left.asU16)

@[simp] theorem asU16_fromU16 (kind : UInt16) : (fromU16 kind).asU16 = kind := by
  unfold fromU16
  repeat' split
  all_goals simp_all [asU16]

/-- The three classic kinds are recognised by their variant, not by their
number. -/
def isReplaceable (kind : Kind) : Bool :=
  (match kind with
    | metadata | contactList | channelMetadata => true
    | _ => false) ||
  (10000 ≤ kind.asU16 ∧ kind.asU16 < 20000 : Bool)

def isEphemeral (kind : Kind) : Bool := 20000 ≤ kind.asU16 ∧ kind.asU16 < 30000

def isAddressable (kind : Kind) : Bool := 30000 ≤ kind.asU16 ∧ kind.asU16 < 40000

theorem asU16_of_isReplaceable {kind : Kind} (replaceable : kind.isReplaceable = true) :
    kind.asU16 = 0 ∨ kind.asU16 = 3 ∨ kind.asU16 = 41 ∨ 10000 ≤ kind.asU16 ∧ kind.asU16 < 20000 := by
  unfold isReplaceable at replaceable
  cases kind with
  | metadata => exact .inl rfl
  | contactList => exact .inr (.inl rfl)
  | channelMetadata => exact .inr (.inr (.inl rfl))
  | eventDeletion | requestToVanish | giftWrap => cases replaceable
  | custom number => exact .inr (.inr (.inr (of_decide_eq_true replaceable)))

theorem isAddressable_fromU16 (kind : Kind) : (fromU16 kind.asU16).isAddressable = kind.isAddressable := by
  rw [isAddressable, isAddressable, asU16_fromU16]

theorem not_isAddressable_of_isReplaceable {kind : Kind} (replaceable : kind.isReplaceable = true) :
    kind.isAddressable = false := by
  have range := asU16_of_isReplaceable replaceable
  apply decide_eq_false
  simp only [UInt16.le_iff_toNat_le, UInt16.lt_iff_toNat_lt, ← UInt16.toNat_inj,
    UInt16.reduceToNat] at range ⊢
  omega

theorem not_isReplaceable_of_isAddressable {kind : Kind} (addressable : kind.isAddressable = true) :
    kind.isReplaceable = false := by
  rw [Bool.eq_false_iff]
  intro replaceable
  rw [not_isAddressable_of_isReplaceable replaceable] at addressable
  cases addressable

theorem not_isReplaceable_of_isEphemeral {kind : Kind} (ephemeral : kind.isEphemeral = true) :
    kind.isReplaceable = false := by
  have range : 20000 ≤ kind.asU16 ∧ kind.asU16 < 30000 := of_decide_eq_true ephemeral
  rw [Bool.eq_false_iff]
  intro replaceable
  have other := asU16_of_isReplaceable replaceable
  simp only [UInt16.le_iff_toNat_le, UInt16.lt_iff_toNat_lt, ← UInt16.toNat_inj,
    UInt16.reduceToNat] at range other
  omega

theorem not_isAddressable_of_isEphemeral {kind : Kind} (ephemeral : kind.isEphemeral = true) :
    kind.isAddressable = false := by
  have range : 20000 ≤ kind.asU16 ∧ kind.asU16 < 30000 := of_decide_eq_true ephemeral
  apply decide_eq_false
  simp only [UInt16.le_iff_toNat_le, UInt16.lt_iff_toNat_lt, UInt16.reduceToNat] at range ⊢
  omega

theorem not_special_of_isReplaceable {kind : Kind} (replaceable : kind.isReplaceable = true) :
    (kind == .eventDeletion) = false ∧ (kind == .requestToVanish) = false := by
  have range := asU16_of_isReplaceable replaceable
  have deletion : eventDeletion.asU16 = 5 := rfl
  have vanish : requestToVanish.asU16 = 62 := rfl
  simp only [← Bool.not_eq_true, beq_iff, deletion, vanish]
  simp only [UInt16.le_iff_toNat_le, UInt16.lt_iff_toNat_lt, ← UInt16.toNat_inj,
    UInt16.reduceToNat] at range ⊢
  omega

theorem not_special_of_isAddressable {kind : Kind} (addressable : kind.isAddressable = true) :
    (kind == .eventDeletion) = false ∧ (kind == .requestToVanish) = false := by
  have range : 30000 ≤ kind.asU16 ∧ kind.asU16 < 40000 := of_decide_eq_true addressable
  have deletion : eventDeletion.asU16 = 5 := rfl
  have vanish : requestToVanish.asU16 = 62 := rfl
  simp only [← Bool.not_eq_true, beq_iff, deletion, vanish]
  simp only [UInt16.le_iff_toNat_le, UInt16.lt_iff_toNat_lt, ← UInt16.toNat_inj,
    UInt16.reduceToNat] at range ⊢
  omega

def fromStr (text : List Char) : Option Kind :=
  (parseUnsigned 65536 text).map fun number => fromU16 (UInt16.ofNat number)

end Kind

/-! ## Single-letter tags -/

def isAsciiAlphabetic (byte : UInt8) : Bool :=
  (97 ≤ byte ∧ byte ≤ 122 : Bool) || (65 ≤ byte ∧ byte ≤ 90 : Bool)

structure SingleLetterTag where
  byte : UInt8
  isAlphabetic : isAsciiAlphabetic byte = true
  deriving DecidableEq

namespace SingleLetterTag

def lowercaseA : SingleLetterTag := ⟨97, rfl⟩
def lowercaseD : SingleLetterTag := ⟨100, rfl⟩
def lowercaseE : SingleLetterTag := ⟨101, rfl⟩
def lowercaseP : SingleLetterTag := ⟨112, rfl⟩

def fromByte (byte : UInt8) : Option SingleLetterTag :=
  if alphabetic : isAsciiAlphabetic byte = true then some ⟨byte, alphabetic⟩ else none

def fromStr (text : String) : Option SingleLetterTag :=
  match text.toUTF8.data.toList with
  | [byte] => fromByte byte
  | _ => none

/-- The key of the `Ord` implementation: the letter without its case, then
lowercase before uppercase. -/
def orderingKey (tag : SingleLetterTag) : Nat :=
  if tag.byte ≤ 90 then 2 * (tag.byte.toNat + 32) + 1 else 2 * tag.byte.toNat

theorem orderingKey_injective : Function.Injective orderingKey := by
  rintro ⟨left, leftAlphabetic⟩ ⟨right, rightAlphabetic⟩ same
  simp only [isAsciiAlphabetic, Bool.or_eq_true, decide_eq_true_eq, UInt8.le_iff_toNat_le,
    UInt8.reduceToNat] at leftAlphabetic rightAlphabetic
  simp only [orderingKey, UInt8.le_iff_toNat_le, UInt8.reduceToNat] at same
  rw [mk.injEq, ← UInt8.toNat_inj]
  split at same <;> split at same <;> omega

instance : LinearOrder SingleLetterTag := .lift' orderingKey orderingKey_injective

end SingleLetterTag

/-! ## Tags -/

/-- A tag is a list of texts that is never empty. -/
structure Tag where
  buf : List String
  notEmpty : buf ≠ []
  deriving DecidableEq

namespace Tag

def kind (tag : Tag) : String := tag.buf.head tag.notEmpty

def content (tag : Tag) : Option String := tag.buf[1]?

def singleLetterTag (tag : Tag) : Option SingleLetterTag := SingleLetterTag.fromStr tag.kind

def isProtected (tag : Tag) : Bool := tag.buf = ["-"]

end Tag

/-- Address of a replaceable or addressable event (`a` tag). -/
structure Coordinate where
  kind : Kind
  publicKey : PublicKey
  identifier : String

namespace Coordinate

/-- `str::split(':')` -/
def splitColon : List Char → List (List Char)
  | [] => [[]]
  | ':' :: rest => [] :: splitColon rest
  | char :: rest =>
      match splitColon rest with
      | [] => [[char]]
      | piece :: pieces => (char :: piece) :: pieces

/-- Reads `<kind>:<pubkey>:<identifier>`, ignoring what follows a third colon. -/
def fromKpiFormat (externals : Externals) (coordinate : String) : Option Coordinate :=
  match splitColon coordinate.toList with
  | kind :: publicKey :: identifier :: _ => do
      let kind ← Kind.fromStr kind
      let publicKey ← externals.hexDecode (String.ofList publicKey)
      some { kind, publicKey, identifier := String.ofList identifier }
  | _ => none

end Coordinate

namespace Tags

/-- The value of the first `d` tag, if that tag has one. -/
def identifier (tags : List Tag) : Option String :=
  (tags.find? fun tag => tag.kind = "d").bind Tag.content

/-- The event IDs that the `e` tags carry. -/
def eventIds (externals : Externals) (tags : List Tag) : List EventId :=
  tags.filterMap fun tag =>
    if tag.kind ≠ "e" then none else tag.content.bind externals.hexDecode

/-- The public keys that the `p` tags carry. -/
def publicKeys (externals : Externals) (tags : List Tag) : List PublicKey :=
  tags.filterMap fun tag =>
    if tag.kind ≠ "p" then none else tag.content.bind externals.hexDecode

/-- The time the first `expiration` tag carries, if it is one. -/
def expiration (tags : List Tag) : Option Timestamp :=
  (tags.find? fun tag => tag.kind = "expiration").bind fun tag =>
    tag.content.bind fun value => Timestamp.fromStr value.toList

/-- The coordinates that the `a` tags carry. -/
def coordinates (externals : Externals) (tags : List Tag) : List Coordinate :=
  tags.filterMap fun tag =>
    if tag.kind ≠ "a" then none else tag.content.bind (Coordinate.fromKpiFormat externals)

end Tags

namespace Nip62

/-- Whether the `relay` tags of a request to vanish cover the given relay. -/
def isValidVanishRequestForRelay (externals : Externals) (tags : List Tag)
    (relayUrl : Option RelayUrl) : Bool :=
  tags.any fun tag =>
    tag.kind == "relay" &&
      match tag.content with
      | none => false
      | some "ALL_RELAYS" => true
      | some value =>
          match externals.relayUrlParse value with
          | none => false
          | some relay => some relay == relayUrl

end Nip62

/-! ## Events -/

structure Event where
  id : EventId
  pubkey : PublicKey
  createdAt : Timestamp
  kind : Kind
  tags : List Tag
  content : String
  sig : Signature
  deriving DecidableEq

def Event.isProtected (event : Event) : Bool := event.tags.any Tag.isProtected

/-- The key of `Ord for Event`: newest first, then by ID. -/
def Event.orderingKey (event : Event) : Timestampᵒᵈ ×ₗ EventId :=
  toLex (OrderDual.toDual event.createdAt, event.id)

def Event.isExpiredAt (event : Event) (now : Timestamp) : Bool :=
  (Tags.expiration event.tags).any (· < now)

/-- The coordinate of a replaceable or addressable event. -/
def Event.coordinate (event : Event) : Option Coordinate :=
  if event.kind.isReplaceable || event.kind.isAddressable then
    some {
      kind := event.kind
      publicKey := event.pubkey
      identifier := (Tags.identifier event.tags).getD ""
    }
  else none

end RustNostr
