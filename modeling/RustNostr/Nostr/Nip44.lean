import Mathlib
import RustNostr.Nostr.RelayUrl

/-!
# Encrypted payloads, version 2

Payloads of a length prefix, the plaintext and padding, encrypted and authenticated
(`nostr/src/nips/nip44/v2.rs`, `nostr/src/util/hkdf.rs`). HMAC and the key stream of
ChaCha20 are parameters.
-/

set_option autoImplicit false

namespace RustNostr.Nip44

open Library

structure Ciphers where
  hmac : Bytes → Bytes → FixedBytes 32
  /-- A byte of the key stream, for a key, a nonce and a position. -/
  keystream : Bytes → Bytes → Nat → UInt8

/-- The machine: its greatest allocation and index, and which reservations of memory
succeed. -/
structure Platform where
  isizeMax : Nat
  usizeMax : Nat
  isizeMax_le : isizeMax ≤ usizeMax
  canReserve : Nat → Bool

/-! ## Key derivation -/

namespace Ciphers

variable (ciphers : Ciphers)

def applyKeystream (key nonce : Bytes) (bytes : Bytes) : Bytes :=
  bytes.mapIdx fun position byte => byte ^^^ ciphers.keystream key nonce position

/-- The blocks of HKDF-expand; each takes in the one before. -/
def blocks (prk info : Bytes) : Nat → UInt8 → Bytes → Bytes
  | 0, _, _ => []
  | count + 1, counter, previous =>
      let block := ciphers.hmac prk (previous ++ info ++ [counter])
      block.val ++ blocks prk info count (counter + 1) block.val

def expandInto (prk info : Bytes) (length : Nat) : Bytes :=
  (ciphers.blocks prk info ((length + 31) / 32) 1 []).take length

structure MessageKeys where
  bytes : Bytes

def getMessageKeys (conversationKey : FixedBytes 32) (nonce : Bytes) : MessageKeys :=
  ⟨ciphers.expandInto conversationKey.val nonce 76⟩

end Ciphers

namespace Ciphers.MessageKeys

variable (keys : MessageKeys)

def encryption : Bytes := keys.bytes.take 32
def nonce : Bytes := (keys.bytes.drop 32).take 12
def auth : Bytes := keys.bytes.drop 44

end Ciphers.MessageKeys

/-! ## Layout -/

def versionSize : Nat := 1
def nonceSize : Nat := 32
def legacyLengthPrefixSize : Nat := 2
def extendedLengthPrefixSize : Nat := 6
def extendedPrefixThreshold : Nat := 65536
def maxPlaintextSize : Nat := 4294967295
def minCiphertextSize : Nat := legacyLengthPrefixSize + 32
def hmacSize : Nat := 32
def minPayloadSize : Nat := versionSize + nonceSize + minCiphertextSize + hmacSize

/-- The logarithm to base 2, rounded down; 0 for 0. -/
def log2RoundDown (number : Nat) : Nat := Nat.log2 number

def calcPadding (len : Nat) : Nat :=
  if len ≤ 32 then 32
  else
    let nextpower := 2 ^ (log2RoundDown (len - 1) + 1)
    let chunk := if nextpower ≤ 256 then 32 else nextpower / 8
    chunk * ((len - 1) / chunk + 1)

def maxCiphertextSize : Nat := extendedLengthPrefixSize + calcPadding maxPlaintextSize
def maxPayloadSize : Nat := versionSize + nonceSize + maxCiphertextSize + hmacSize

inductive ErrorV2 where
  | payloadTooShort
  | notFound (value : String)
  | messageEmpty
  | messageTooLong
  | platformSizeUnsupported
  | allocationFailed
  | invalidHmac
  | invalidPadding
  deriving DecidableEq

/-- `From<ErrorV2> for Error` -/
def ErrorV2.toError : ErrorV2 → Error
  | payloadTooShort => ⟨.invalid, "payload size is too short"⟩
  | notFound value => ⟨.missing, value⟩
  | messageEmpty => ⟨.invalid, "message empty"⟩
  | messageTooLong => ⟨.invalid, "message too long"⟩
  | platformSizeUnsupported =>
      ⟨.unsupported, "NIP-44 payload size is not supported on this platform"⟩
  | allocationFailed => ⟨.other, "failed to allocate NIP-44 payload buffer"⟩
  | invalidHmac => ⟨.crypto, "invalid HMAC"⟩
  | invalidPadding => ⟨.invalid, "invalid padding"⟩

structure PayloadLayout where
  prefixLen : Nat
  ciphertextLen : Nat
  payloadLen : Nat

/-- The lengths are far below those where the additions could overflow. -/
def PayloadLayout.new (plaintextLen : Nat) : Except ErrorV2 PayloadLayout :=
  if plaintextLen = 0 then .error .messageEmpty
  else if maxPlaintextSize < plaintextLen then .error .messageTooLong
  else
    let prefixLen :=
      if plaintextLen < extendedPrefixThreshold then legacyLengthPrefixSize
      else extendedLengthPrefixSize
    let ciphertextLen := prefixLen + calcPadding plaintextLen
    .ok { prefixLen, ciphertextLen, payloadLen := versionSize + nonceSize + ciphertextLen + hmacSize }

/-! ## Encryption -/

section Platform

variable (platform : Platform) (ciphers : Ciphers)

def supportedAllocationSize (len : Nat) : Except ErrorV2 Nat :=
  if platform.isizeMax < len then .error .platformSizeUnsupported
  else if platform.usizeMax < len then .error .platformSizeUnsupported
  else .ok len

/-- `Vec::resize` with zeros. -/
def resize (bytes : Bytes) (length : Nat) : Bytes :=
  bytes.take length ++ List.replicate (length - bytes.length) 0

def lengthPrefix (layout : PayloadLayout) (len : Nat) : Bytes :=
  if layout.prefixLen = legacyLengthPrefixSize then bigEndian 2 len else [0, 0] ++ bigEndian 4 len

def encryptToBytesWithNonce (conversationKey : FixedBytes 32) (plaintext : Bytes)
    (nonce : FixedBytes 32) : Except ErrorV2 Bytes := do
  let len := plaintext.length
  let layout ← PayloadLayout.new len
  let payloadLen ← supportedAllocationSize platform layout.payloadLen
  let ciphertextLen ← supportedAllocationSize platform layout.ciphertextLen
  let keys := ciphers.getMessageKeys conversationKey nonce.val
  let macStart := versionSize + nonceSize + ciphertextLen
  if !platform.canReserve payloadLen then .error .allocationFailed
  else
    let payload := resize ([2] ++ nonce.val ++ lengthPrefix layout len ++ plaintext) payloadLen
    -- The ciphertext and then the MAC overwrite their regions of the payload.
    let ciphertext := ciphers.applyKeystream keys.encryption keys.nonce
      ((payload.drop (versionSize + nonceSize)).take (macStart - (versionSize + nonceSize)))
    let payload := payload.take (versionSize + nonceSize) ++ ciphertext ++ payload.drop macStart
    let hmac := ciphers.hmac keys.auth ((payload.drop versionSize).take (macStart - versionSize))
    .ok (payload.take macStart ++ hmac.val)

/-! ## Decryption -/

def validatePayloadSize (len : Nat) : Except ErrorV2 Unit :=
  if maxPayloadSize < len then .error .messageTooLong else .ok ()

/-- `get(start..stop)` -/
def getRange (bytes : Bytes) (start stop : Nat) : Option Bytes :=
  if start ≤ stop ∧ stop ≤ bytes.length then some ((bytes.drop start).take (stop - start)) else none

def parsePlaintextLength (buffer : Bytes) : Except ErrorV2 (Nat × Nat) := do
  let firstTwo ← (getRange buffer 0 legacyLengthPrefixSize).elim (.error .invalidPadding) .ok
  let legacyLen := ofBigEndian firstTwo
  if legacyLen ≠ 0 then .ok (legacyLengthPrefixSize, legacyLen)
  else do
    let extendedBytes ← (getRange buffer legacyLengthPrefixSize extendedLengthPrefixSize).elim
      (.error .invalidPadding) .ok
    let extendedLen := ofBigEndian extendedBytes
    if extendedLen < extendedPrefixThreshold then .error .invalidPadding
    else if platform.usizeMax < extendedLen then .error .platformSizeUnsupported
    else .ok (extendedLengthPrefixSize, extendedLen)

/-- What is left once the payload is authentic and decrypted. -/
def unpad (decrypted : Bytes) : Except ErrorV2 Bytes := do
  let (prefixLen, unpaddedLen) ← parsePlaintextLength platform decrypted
  let plaintextEnd ←
    if platform.usizeMax < prefixLen + unpaddedLen then .error .invalidPadding
    else .ok (prefixLen + unpaddedLen)
  let unpadded ← (getRange decrypted prefixLen plaintextEnd).elim (.error .invalidPadding) .ok
  if unpadded.isEmpty then .error .messageEmpty
  else if unpadded.length ≠ unpaddedLen then .error .invalidPadding
  else if decrypted.length ≠ prefixLen + calcPadding unpaddedLen then .error .invalidPadding
  else .ok unpadded

def decryptToBytes (conversationKey : FixedBytes 32) (payload : Bytes) : Except ErrorV2 Bytes :=
  let len := payload.length
  if len < minPayloadSize then .error .payloadTooShort
  else do
    validatePayloadSize len
    let nonce ← (getRange payload versionSize (versionSize + nonceSize)).elim
      (.error (.notFound "nonce")) .ok
    let buffer ← (getRange payload (versionSize + nonceSize) (len - hmacSize)).elim
      (.error (.notFound "buffer")) .ok
    let mac ← (getRange payload (len - hmacSize) len).elim (.error (.notFound "hmac")) .ok
    let keys := ciphers.getMessageKeys conversationKey nonce
    if mac ≠ (ciphers.hmac keys.auth (nonce ++ buffer)).val then .error .invalidHmac
    else if !platform.canReserve buffer.length then .error .allocationFailed
    else unpad platform (ciphers.applyKeystream keys.encryption keys.nonce buffer)

end Platform

end RustNostr.Nip44
