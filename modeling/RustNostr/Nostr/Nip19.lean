import Mathlib
import RustNostr.Nostr.RelayUrl
import RustNostr.Nostr.CoordinateText
import RustNostr.Library.Tlv

/-!
# bech32 entities

Entities with their bech32 texts (`nostr/src/nips/nip19.rs`): keys and IDs are
their bytes, the others entries of type, length and value. The checksums and
character set of bech32 are left to the `bech32` crate.
-/

set_option autoImplicit false

namespace RustNostr

open Library

/-- What the other crates do: `bech32`, `url`, and the check of secret keys by
`secp256k1`. -/
structure Crates where
  bech32Encode : String → Bytes → Except String String
  bech32Decode : String → Except String (String × Bytes)
  url : UrlCrate
  isSecretKey : FixedBytes 32 → Bool

structure Crates.RoundTrip (crates : Crates) : Prop where
  bech32 : ∀ hrp data text, crates.bech32Encode hrp data = .ok text →
    crates.bech32Decode text = .ok (hrp, data)
  url : crates.url.RoundTrips

def invalidTlv : Error := ⟨.malformed, "invalid TLV"⟩

def wrongPrefix : Error := ⟨.invalid, "wrong prefix"⟩

namespace Crates

variable (crates : Crates)

def decode (text : String) : Except Error (String × Bytes) :=
  (crates.bech32Decode text).mapError fun error => ⟨.malformed, error⟩

/-- Of keys and event IDs, which are 32 bytes, the code expects that this works
out. -/
def encode (hrp : String) (data : Bytes) : Except Error String :=
  (crates.bech32Encode hrp data).mapError fun error => ⟨.invalid, error⟩

/-- The data of a text whose prefix is the given one in some case. -/
def decodeAs (hrp : String) (text : String) : Except Error Bytes := do
  let (found, data) ← crates.decode text
  if found.toLower ≠ hrp.toLower then .error wrongPrefix else .ok data

end Crates

/-! ## Keys and IDs -/

/-- `<[u8; N]>::try_from` of a slice. -/
def fromSlice (length : Nat) (error : Error) (slice : Bytes) : Except Error (FixedBytes length) :=
  if whole : slice.length = length then .ok ⟨slice, whole⟩ else .error error

@[simp] theorem fromSlice_val {length : Nat} (error : Error) (bytes : FixedBytes length) :
    fromSlice length error bytes.val = .ok bytes := dif_pos bytes.property

def EventId.fromSlice : Bytes → Except Error EventId :=
  RustNostr.fromSlice 32 ⟨.invalid, "invalid event ID"⟩

def PublicKey.fromSlice : Bytes → Except Error PublicKey :=
  RustNostr.fromSlice 32 ⟨.invalid, "public key must be 32 bytes long"⟩

structure SecretKey (crates : Crates) where
  bytes : FixedBytes 32
  isSecretKey : crates.isSecretKey bytes = true
  deriving DecidableEq

def SecretKey.fromSlice (crates : Crates) (slice : Bytes) : Except Error (SecretKey crates) := do
  let malformed : Error := ⟨.malformed, "malformed or out-of-range secret key"⟩
  let bytes ← RustNostr.fromSlice 32 malformed slice
  if isSecretKey : crates.isSecretKey bytes = true then .ok ⟨bytes, isSecretKey⟩
  else .error malformed

/-! ### Encrypted keys -/

inductive Version where
  | v2
  deriving DecidableEq

namespace Version

def asU8 : Version → UInt8
  | v2 => 2

def fromU8 (version : UInt8) : Except Error Version :=
  if version = 2 then .ok v2
  else .error ⟨.unsupported, "unknown version: " ++ toString version.toNat⟩

@[simp] theorem fromU8_asU8 (version : Version) : fromU8 version.asU8 = .ok version := rfl

end Version

inductive KeySecurity where
  | weak
  | medium
  | unknown
  deriving DecidableEq

namespace KeySecurity

def asU8 : KeySecurity → UInt8
  | weak => 0
  | medium => 1
  | unknown => 2

def fromU8 (keySecurity : UInt8) : Except Error KeySecurity :=
  if keySecurity = 0 then .ok weak
  else if keySecurity = 1 then .ok medium
  else if keySecurity = 2 then .ok unknown
  else .error ⟨.unsupported, "unknown key security: " ++ toString keySecurity.toNat⟩

@[simp] theorem fromU8_asU8 (keySecurity : KeySecurity) :
    fromU8 keySecurity.asU8 = .ok keySecurity := by
  cases keySecurity <;> rfl

end KeySecurity

/-- NIP-49 -/
structure EncryptedSecretKey where
  version : Version
  logN : UInt8
  salt : FixedBytes 16
  nonce : FixedBytes 24
  keySecurity : KeySecurity
  ciphertext : FixedBytes 48
  deriving DecidableEq

namespace EncryptedSecretKey

def asVec (key : EncryptedSecretKey) : Bytes :=
  key.version.asU8 :: key.logN :: (key.salt.val ++ (key.nonce.val ++ key.keySecurity.asU8 :: key.ciphertext.val))

/-- Only the first check can fail on lengths. -/
def fromSlice (slice : Bytes) : Except Error EncryptedSecretKey :=
  if slice.length ≠ 91 then .error ⟨.invalid, "invalid length"⟩
  else do
    let version ← slice[0]?.elim (.error ⟨.missing, "version not found"⟩) .ok
    let version ← Version.fromU8 version
    let logN ← slice[1]?.elim (.error ⟨.missing, "log2 round not found"⟩) .ok
    let salt ← RustNostr.fromSlice 16 ⟨.missing, "salt not found"⟩ ((slice.drop 2).take 16)
    let nonce ← RustNostr.fromSlice 24 ⟨.missing, "nonce not found"⟩ ((slice.drop 18).take 24)
    let keySecurity ← slice[42]?.elim (.error ⟨.missing, "key security not found"⟩) .ok
    let keySecurity ← KeySecurity.fromU8 keySecurity
    let ciphertext ← RustNostr.fromSlice 48 ⟨.missing, "cipher text not found"⟩ (slice.drop 43)
    .ok { version, logN, salt, nonce, keySecurity, ciphertext }

theorem asVec_length (key : EncryptedSecretKey) : key.asVec.length = 91 := by
  simp [asVec, key.salt.property, key.nonce.property, key.ciphertext.property]

theorem fromSlice_asVec (key : EncryptedSecretKey) : fromSlice key.asVec = .ok key := by
  have salt : (key.asVec.drop 2).take 16 = key.salt.val := List.take_left' key.salt.property
  have behindSalt : key.asVec.drop 18 =
      key.nonce.val ++ key.keySecurity.asU8 :: key.ciphertext.val := List.drop_left' key.salt.property
  have nonce : (key.asVec.drop 18).take 24 = key.nonce.val := by
    rw [behindSalt, List.take_left' key.nonce.property]
  have behindNonce : key.asVec.drop 42 = key.keySecurity.asU8 :: key.ciphertext.val := by
    rw [← List.drop_drop (i := 24) (j := 18), behindSalt, List.drop_left' key.nonce.property]
  have keySecurity : key.asVec[42]? = some key.keySecurity.asU8 := by
    rw [← List.head?_drop, behindNonce, List.head?_cons]
  have ciphertext : key.asVec.drop 43 = key.ciphertext.val := by
    rw [← List.drop_drop (i := 1) (j := 42), behindNonce, List.drop_one, List.tail_cons]
  have version : key.asVec[0]? = some key.version.asU8 := rfl
  have logN : key.asVec[1]? = some key.logN := rfl
  unfold fromSlice
  simp only [asVec_length, salt, nonce, keySecurity, ciphertext, version, logN]
  simp [Bind.bind, Except.bind]

end EncryptedSecretKey

/-! ## Entries -/

namespace Nip19

def specialType : UInt8 := 0
def relayType : UInt8 := 1
def authorType : UInt8 := 2
def kindType : UInt8 := 3

/-- The length of a value has to fit into one byte. -/
def pushTlv (bytes : Bytes) (typ : UInt8) (value : Bytes) : Except Error Bytes :=
  if value.length < 256 then .ok (bytes ++ Tlv.entry typ value)
  else .error ⟨.invalid, "TLV value too long"⟩

/-- The entries one after another, the first that fails ends it. -/
def pushTlvs (entries : List (UInt8 × Bytes)) : Except Error Bytes :=
  entries.foldlM (fun bytes entry => pushTlv bytes entry.1 entry.2) []

/-- A kind is written as a number of 32 bits. -/
def kindValue (kind : Kind) : Bytes := bigEndian 4 kind.asU16.toNat

def readKind (bytes : Bytes) : Except Error Kind :=
  if bytes.length ≠ 4 then .error ⟨.malformed, "could not convert slice to array"⟩
  else if ofBigEndian bytes < 65536 then .ok (.fromU16 (UInt16.ofNat (ofBigEndian bytes)))
  else .error invalidTlv

def readRelay (crate : UrlCrate) (bytes : Bytes) : Except Error (FullRelayUrl crate) :=
  FullRelayUrl.parse crate (String.ofList (fromUtf8Lossy bytes))

def relayEntry {crate : UrlCrate} (url : FullRelayUrl crate) : UInt8 × Bytes := (relayType, utf8 url.asStr)

end Nip19

open Nip19

/-! ### Events -/

structure Nip19Event (crates : Crates) where
  eventId : EventId
  author : Option PublicKey
  kind : Option Kind
  relays : List (FullRelayUrl crates.url)

namespace Nip19Event

variable {crates : Crates}

instance : BEq (Nip19Event crates) where
  beq left right := left.eventId == right.eventId && left.author == right.author &&
    left.kind == right.kind && left.relays == right.relays

/-- What the loop over the entries has found. -/
structure Found (crates : Crates) where
  eventId : Option EventId := none
  author : Option PublicKey := none
  kind : Option Kind := none
  relays : List (FullRelayUrl crates.url) := []

/-- An author that cannot be read is left out. -/
def visit (found : Found crates) (typ : UInt8) (bytes : Bytes) : Except Error (Found crates) :=
  if typ = specialType ∧ found.eventId.isNone then
    (EventId.fromSlice bytes).map fun eventId => { found with eventId := some eventId }
  else if typ = authorType ∧ found.author.isNone then
    .ok { found with author := (PublicKey.fromSlice bytes).toOption }
  else if typ = relayType then
    (readRelay crates.url bytes).map fun url => { found with relays := found.relays ++ [url] }
  else if typ = kindType ∧ found.kind.isNone then
    (readKind bytes).map fun kind => { found with kind := some kind }
  else .ok found

def fromBech32Data (data : Bytes) : Except Error (Nip19Event crates) := do
  let found ← Tlv.fold invalidTlv visit {} data
  let eventId ← found.eventId.elim (.error ⟨.missing, "event id"⟩) .ok
  .ok { eventId, author := found.author, kind := found.kind, relays := found.relays }

def fromBech32 (text : String) : Except Error (Nip19Event crates) := do
  fromBech32Data (← crates.decodeAs "nevent" text)

def entries (event : Nip19Event crates) : List (UInt8 × Bytes) :=
  [(specialType, event.eventId.val)] ++ (event.author.map fun key => (authorType, key.val)).toList ++
    (event.kind.map fun number => (kindType, kindValue number)).toList ++
    event.relays.map relayEntry

def toBech32 (event : Nip19Event crates) : Except Error String := do
  crates.encode "nevent" (← pushTlvs event.entries)

end Nip19Event

/-! ### Profiles -/

structure Nip19Profile (crates : Crates) where
  publicKey : PublicKey
  relays : List (FullRelayUrl crates.url)

namespace Nip19Profile

variable {crates : Crates}

instance : BEq (Nip19Profile crates) where
  beq left right := left.publicKey == right.publicKey && left.relays == right.relays

structure Found (crates : Crates) where
  publicKey : Option PublicKey := none
  relays : List (FullRelayUrl crates.url) := []

/-- Relays that cannot be read are left out. -/
def visit (found : Found crates) (typ : UInt8) (bytes : Bytes) : Except Error (Found crates) :=
  if typ = specialType ∧ found.publicKey.isNone then
    (PublicKey.fromSlice bytes).map fun publicKey => { found with publicKey := some publicKey }
  else if typ = relayType then
    .ok { found with relays := found.relays ++ (readRelay crates.url bytes).toOption.toList }
  else .ok found

def fromBech32Data (data : Bytes) : Except Error (Nip19Profile crates) := do
  let found ← Tlv.fold invalidTlv visit {} data
  let publicKey ← found.publicKey.elim (.error ⟨.missing, "public key"⟩) .ok
  .ok { publicKey, relays := found.relays }

def fromBech32 (text : String) : Except Error (Nip19Profile crates) := do
  fromBech32Data (← crates.decodeAs "nprofile" text)

def entries (profile : Nip19Profile crates) : List (UInt8 × Bytes) :=
  [(specialType, profile.publicKey.val)] ++ profile.relays.map relayEntry

def toBech32 (profile : Nip19Profile crates) : Except Error String := do
  crates.encode "nprofile" (← pushTlvs profile.entries)

end Nip19Profile

/-! ### Coordinates -/

structure Nip19Coordinate (crates : Crates) where
  coordinate : Coordinate
  relays : List (FullRelayUrl crates.url)

namespace Nip19Coordinate

variable {crates : Crates}

instance : BEq (Nip19Coordinate crates) where
  beq left right := left.coordinate == right.coordinate && left.relays == right.relays

structure Found (crates : Crates) where
  identifier : Option String := none
  pubkey : Option PublicKey := none
  kind : Option Kind := none
  relays : List (FullRelayUrl crates.url) := []

/-- Relays that cannot be read are left out. -/
def visit (found : Found crates) (typ : UInt8) (bytes : Bytes) : Except Error (Found crates) :=
  if typ = specialType ∧ found.identifier.isNone then
    .ok { found with identifier := some (String.ofList (fromUtf8Lossy bytes)) }
  else if typ = relayType then
    .ok { found with relays := found.relays ++ (readRelay crates.url bytes).toOption.toList }
  else if typ = authorType ∧ found.pubkey.isNone then
    (PublicKey.fromSlice bytes).map fun publicKey => { found with pubkey := some publicKey }
  else if typ = kindType ∧ found.kind.isNone then
    (readKind bytes).map fun kind => { found with kind := some kind }
  else .ok found

def fromBech32Data (data : Bytes) : Except Error (Nip19Coordinate crates) := do
  let found ← Tlv.fold invalidTlv visit {} data
  let kind ← found.kind.elim (.error ⟨.missing, "kind"⟩) .ok
  let publicKey ← found.pubkey.elim (.error ⟨.missing, "public key"⟩) .ok
  let identifier ← found.identifier.elim (.error ⟨.missing, "identifier"⟩) .ok
  .ok { coordinate := { kind, publicKey, identifier }, relays := found.relays }

def fromBech32 (text : String) : Except Error (Nip19Coordinate crates) := do
  fromBech32Data (← crates.decodeAs "naddr" text)

/-- `coordinate_to_bech32` -/
def entries (address : Nip19Coordinate crates) : List (UInt8 × Bytes) :=
  [(specialType, utf8 address.coordinate.identifier), (authorType, address.coordinate.publicKey.val),
    (kindType, kindValue address.coordinate.kind)] ++ address.relays.map relayEntry

def toBech32 (address : Nip19Coordinate crates) : Except Error String := do
  crates.encode "naddr" (← pushTlvs address.entries)

end Nip19Coordinate

/-! ### All entities -/

inductive Nip19 (crates : Crates) where
  | secret (key : SecretKey crates)
  | encryptedSecret (key : EncryptedSecretKey)
  | pubkey (key : PublicKey)
  | profile (profile : Nip19Profile crates)
  | eventId (id : EventId)
  | event (event : Nip19Event crates)
  | coordinate (address : Nip19Coordinate crates)

namespace Nip19

variable {crates : Crates}

instance : BEq (Nip19 crates) where
  beq left right := match left, right with
    | secret left, secret right => left == right
    | encryptedSecret left, encryptedSecret right => left == right
    | pubkey left, pubkey right => left == right
    | profile left, profile right => left == right
    | eventId left, eventId right => left == right
    | event left, event right => left == right
    | coordinate left, coordinate right => left == right
    | _, _ => false

def relays : Nip19 crates → List (FullRelayUrl crates.url)
  | profile value => value.relays
  | event value => value.relays
  | coordinate value => value.relays
  | _ => []

/-- What the prefix makes of the data; here its case matters. -/
def ofData (hrp : String) (data : Bytes) : Except Error (Nip19 crates) :=
  if hrp = "nsec" then (SecretKey.fromSlice crates data).map secret
  else if hrp = "ncryptsec" then (EncryptedSecretKey.fromSlice data).map encryptedSecret
  else if hrp = "npub" then (PublicKey.fromSlice data).map pubkey
  else if hrp = "note" then (EventId.fromSlice data).map eventId
  else if hrp = "nprofile" then (Nip19Profile.fromBech32Data data).map profile
  else if hrp = "nevent" then (Nip19Event.fromBech32Data data).map event
  else if hrp = "naddr" then (Nip19Coordinate.fromBech32Data data).map coordinate
  else .error wrongPrefix

def fromBech32 (text : String) : Except Error (Nip19 crates) := do
  let (hrp, data) ← crates.decode text
  ofData hrp data

def toBech32 : Nip19 crates → Except Error String
  | secret key => crates.encode "nsec" key.bytes.val
  | encryptedSecret key => crates.encode "ncryptsec" key.asVec
  | pubkey key => crates.encode "npub" key.val
  | profile value => value.toBech32
  | eventId id => crates.encode "note" id.val
  | event value => value.toBech32
  | coordinate value => value.toBech32

end Nip19

end RustNostr
