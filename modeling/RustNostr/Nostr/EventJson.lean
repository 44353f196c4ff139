import Mathlib
import RustNostr.Nostr.Filter

/-!
# Event JSON

The JSON text of an event and the bytes its ID is the hash of
(`nostr/src/event/mod.rs`, `nostr/src/event/id.rs`), as `serde_json` writes them.
-/

set_option autoImplicit false

namespace RustNostr

open Library

namespace Json

def hexDigit (digit : Nat) : Char :=
  if digit < 10 then Char.ofNat (48 + digit) else Char.ofNat (87 + digit)

/-- What `faster_hex::hex_encode` computes. -/
def lowercaseHex (bytes : Bytes) : String :=
  String.ofList (bytes.flatMap fun byte => [hexDigit (byte.toNat / 16), hexDigit (byte.toNat % 16)])

/-- Quotes, backslashes and control characters are escaped, nothing else. -/
def escapeChar (char : Char) : List Char :=
  if char.toNat = 34 then [Char.ofNat 92, Char.ofNat 34]
  else if char.toNat = 92 then [Char.ofNat 92, Char.ofNat 92]
  else if char.toNat = 8 then [Char.ofNat 92, 'b']
  else if char.toNat = 9 then [Char.ofNat 92, 't']
  else if char.toNat = 10 then [Char.ofNat 92, 'n']
  else if char.toNat = 12 then [Char.ofNat 92, 'f']
  else if char.toNat = 13 then [Char.ofNat 92, 'r']
  else if char.toNat < 32 then
    [Char.ofNat 92, 'u', '0', '0', hexDigit (char.toNat / 16), hexDigit (char.toNat % 16)]
  else [char]

def quote : String := String.ofList [Char.ofNat 34]

def string (text : String) : String :=
  quote ++ String.ofList (text.toList.flatMap escapeChar) ++ quote

def array (items : List String) : String := "[" ++ ",".intercalate items ++ "]"

def object (fields : List (String × String)) : String :=
  "\x7b" ++ ",".intercalate (fields.map fun (name, value) => string name ++ ":" ++ value) ++ "\x7d"

def number (number : Nat) : String := toString number

end Json

namespace Tags

def asJson (tags : List Tag) : String :=
  Json.array (tags.map fun tag => Json.array (tag.buf.map Json.string))

end Tags

namespace Event

def asJson (externals : Externals) (event : Event) : String :=
  Json.object [
    ("id", Json.string (externals.hexEncode event.id.val)),
    ("pubkey", Json.string (externals.hexEncode event.pubkey.val)),
    ("created_at", Json.number event.createdAt.toNat),
    ("kind", Json.number event.kind.asU16.toNat),
    ("tags", Tags.asJson event.tags),
    ("content", Json.string event.content),
    ("sig", Json.string (externals.hexEncode event.sig.val))]

/-- `event.as_json().len()` -/
def jsonLen (externals : Externals) (event : Event) : Nat :=
  (event.asJson externals).utf8ByteSize

end Event

/-- The hash and the signature scheme, as given functions. -/
structure Crypto where
  sha256 : Bytes → FixedBytes 32
  verifySchnorr : Signature → EventId → PublicKey → Bool

/-- `EventId::compute` -/
def EventId.compute (externals : Externals) (crypto : Crypto) (publicKey : PublicKey)
    (createdAt : Timestamp) (kind : Kind) (tags : List Tag) (content : String) : EventId :=
  crypto.sha256 (utf8 (Json.array [
    Json.number 0,
    Json.string (externals.hexEncode publicKey.val),
    Json.number createdAt.toNat,
    Json.number kind.asU16.toNat,
    Tags.asJson tags,
    Json.string content]))

inductive VerifyError where
  | invalidEventId
  | invalidSignature
  deriving DecidableEq

def VerifyError.message : VerifyError → String
  | invalidEventId => "Invalid event ID"
  | invalidSignature => "Invalid signature"

namespace Event

def verifyId (externals : Externals) (crypto : Crypto) (event : Event) : Bool :=
  EventId.compute externals crypto event.pubkey event.createdAt event.kind event.tags
    event.content == event.id

def verifySignature (crypto : Crypto) (event : Event) : Bool :=
  crypto.verifySchnorr event.sig event.id event.pubkey

def verify (externals : Externals) (crypto : Crypto) (event : Event) : Except VerifyError Unit :=
  if !event.verifyId externals crypto then .error .invalidEventId
  else if !event.verifySignature crypto then .error .invalidSignature
  else .ok ()

/-- The ID is the hash of the fields, and the signature is the author's. -/
def Verified (externals : Externals) (crypto : Crypto) (event : Event) : Prop :=
  event.verifyId externals crypto = true ∧ event.verifySignature crypto = true

instance (externals : Externals) (crypto : Crypto) (event : Event) :
    Decidable (event.Verified externals crypto) :=
  inferInstanceAs (Decidable (_ ∧ _))

theorem verify_ok_iff {externals : Externals} {crypto : Crypto} {event : Event} :
    event.verify externals crypto = .ok () ↔ event.Verified externals crypto := by
  unfold verify Verified
  cases event.verifyId externals crypto <;> cases event.verifySignature crypto <;> simp

end Event

end RustNostr
