import Mathlib
import RustNostr.Library.Checked
import RustNostr.Library.Fallible
import RustNostr.Nostr.Nip44RoundTrip

/-!
# Decryption on a machine

`decrypt_to_bytes` again, with every number of a fixed width and every index checked.
It never panics, whatever the payload, and a payload that it accepts has the length
and the length prefix that encryption gives to the plaintext.
-/

set_option autoImplicit false

namespace RustNostr.Nip44

open Library

/-- A pointer has 16, 32 or 64 bits. -/
structure Machine extends Platform where
  pointer : usizeMax = 2 ^ 16 - 1 ∨ usizeMax = 2 ^ 32 - 1 ∨ usizeMax = 2 ^ 64 - 1

/-- Bytes in memory. -/
structure Machine.Slice (machine : Machine) where
  bytes : Bytes
  fits : bytes.length ≤ machine.isizeMax

namespace Checked

open Library.Checked

def u8Max : Nat := 2 ^ 8 - 1
def u32Max : Nat := 2 ^ 32 - 1
def u64Max : Nat := 2 ^ 64 - 1

/-- `as u64` -/
def asU64 (number : Nat) : Nat := number % 2 ^ 64

/-! ## Padding -/

/-- `u64::leading_zeros` -/
def leadingZeros (number : Nat) : Nat := if number = 0 then 64 else 63 - Nat.log2 number

def log2RoundDown (number : Nat) : Option Nat :=
  if number = 0 then some 0
  else do
    let highest ← minus 64 1
    minus highest (leadingZeros number)

def calcPadding (len : Nat) : Option Nat :=
  if len ≤ 32 then some 32
  else do
    let less ← minus len 1
    let log ← log2RoundDown less
    let exponent ← atMost u32Max (log + 1)
    let nextpower ← shiftOne 64 exponent
    let chunk := if nextpower ≤ 256 then 32 else nextpower / 8
    let chunks ← quotient less chunk
    let count ← atMost u64Max (chunks + 1)
    atMost u64Max (chunk * count)

/-! ## Key derivation -/

section Machine

variable (machine : Machine) (ciphers : Ciphers)

/-- The loop of `expand_into`. -/
def expandLoop (prk info : Bytes) : Nat → Bytes → Nat → Nat → Bytes → Option Bytes
  | 0, _, _, _, _ => none
  | steps + 1, out, written, counter, previous =>
      if written < out.length then do
        let first := if 0 < written then previous else []
        let block := ciphers.hmac prk (first ++ info ++ [UInt8.ofNat counter])
        let left ← minus out.length written
        let take := min left block.val.length
        let stop ← atMost machine.usizeMax (written + take)
        let part ← slice block.val 0 take
        let out ← copyFromSlice out written stop part
        let written ← atMost machine.usizeMax (written + take)
        let counter ← atMost u8Max (counter + 1)
        expandLoop prk info steps out written counter block.val
      else some out

def expandInto (prk info out : Bytes) : Option Bytes :=
  expandLoop machine ciphers prk info (out.length + 1) out 0 1 (List.replicate 32 0)

def getMessageKeys (conversationKey : FixedBytes 32) (nonce : Bytes) :
    Option Ciphers.MessageKeys := do
  let keys ← expandInto machine ciphers conversationKey.val nonce (List.replicate 76 0)
  some ⟨keys⟩

def encryption (keys : Ciphers.MessageKeys) : Option Bytes := slice keys.bytes 0 32

def nonce (keys : Ciphers.MessageKeys) : Option Bytes := slice keys.bytes 32 (32 + 12)

def auth (keys : Ciphers.MessageKeys) : Option Bytes := slice keys.bytes (32 + 12) 76

/-- ChaCha20 counts its blocks of 64 bytes with 32 bits. -/
def applyKeystream (key iv bytes : Bytes) : Option Bytes :=
  if (bytes.length + 63) / 64 ≤ u32Max then some (ciphers.applyKeystream key iv bytes) else none

/-! ## Decryption -/

/-- A result, an error or a panic. -/
abbrev Run (α : Type) := ExceptT ErrorV2 Option α

/-- What cannot panic. -/
def settle {α : Type} (outcome : Except ErrorV2 α) : Run α := ExceptT.mk (some outcome)

def unpad (decrypted : Bytes) : Run Bytes := do
  let (prefixLen, unpaddedLen) ← settle (parsePlaintextLength machine.toPlatform decrypted)
  let plaintextEnd ←
    if machine.usizeMax < prefixLen + unpaddedLen then throw .invalidPadding
    else pure (prefixLen + unpaddedLen)
  let unpadded ← settle ((getRange decrypted prefixLen plaintextEnd).elim (.error .invalidPadding) .ok)
  if unpadded.isEmpty then throw .messageEmpty
  else if unpadded.length ≠ unpaddedLen then throw .invalidPadding
  else do
    let padding ← calcPadding (asU64 unpaddedLen)
    let expectedLen ←
      if u64Max < asU64 prefixLen + padding then throw .invalidPadding
      else pure (asU64 prefixLen + padding)
    if asU64 decrypted.length ≠ expectedLen then throw .invalidPadding
    else do
      let moved ← copyWithin decrypted prefixLen plaintextEnd 0
      pure (moved.take unpaddedLen)

def decryptToBytes (conversationKey : FixedBytes 32) (payload : machine.Slice) : Run Bytes :=
  let len := payload.bytes.length
  if len < minPayloadSize then throw .payloadTooShort
  else do
    settle (validatePayloadSize (asU64 len))
    let iv ← settle ((getRange payload.bytes versionSize (versionSize + nonceSize)).elim
      (.error (.notFound "nonce")) .ok)
    let macStart ← minus len hmacSize
    let buffer ← settle ((getRange payload.bytes (versionSize + nonceSize) macStart).elim
      (.error (.notFound "buffer")) .ok)
    let mac ← settle ((getRange payload.bytes macStart len).elim (.error (.notFound "hmac")) .ok)
    let keys ← getMessageKeys machine ciphers conversationKey iv
    let authKey ← auth keys
    if mac ≠ (ciphers.hmac authKey (iv ++ buffer)).val then throw .invalidHmac
    else do
      let cipherKey ← encryption keys
      let cipherKey ← exactly 32 cipherKey
      let cipherNonce ← nonce keys
      let cipherNonce ← exactly 12 cipherNonce
      if !machine.canReserve buffer.length then throw .allocationFailed
      else do
        let decrypted ← applyKeystream ciphers cipherKey cipherNonce buffer
        unpad machine decrypted

end Machine

/-! ## No panic -/

theorem asU64_of_lt {number : Nat} (small : number < 2 ^ 64) : asU64 number = number :=
  Nat.mod_eq_of_lt small

theorem log2RoundDown_eq {number : Nat} (small : number < 2 ^ 64) :
    log2RoundDown number = some (Nip44.log2RoundDown number) := by
  unfold log2RoundDown Nip44.log2RoundDown
  split
  next zero =>
    subst zero
    rfl
  next nonzero =>
    have below : Nat.log2 number < 64 := (Nat.log2_lt nonzero).mpr small
    rw [minus_of_le (by decide), leadingZeros, if_neg nonzero]
    change minus 63 (63 - Nat.log2 number) = _
    rw [minus_of_le (Nat.sub_le _ _)]
    exact congrArg some (by omega)

/-- Lengths of 32 bits do not overflow. -/
theorem calcPadding_eq {len : Nat} (small : len < 2 ^ 32) :
    calcPadding len = some (Nip44.calcPadding len) := by
  have bound : Nip44.calcPadding len ≤ 2 ^ 32 := calcPadding_le (Nat.le_of_lt small) (by decide)
  unfold calcPadding
  unfold Nip44.calcPadding at bound ⊢
  split
  next => rfl
  next large =>
    rw [if_neg large] at bound
    have nonzero : len - 1 ≠ 0 := by omega
    have log : Nip44.log2RoundDown (len - 1) < 32 := (Nat.log2_lt nonzero).mpr (by omega)
    have exponent : Nip44.log2RoundDown (len - 1) + 1 ≤ u32Max := by
      rw [u32Max]
      omega
    have positive : 0 < if 2 ^ (Nip44.log2RoundDown (len - 1) + 1) ≤ 256 then 32
        else 2 ^ (Nip44.log2RoundDown (len - 1) + 1) / 8 := by
      split
      next => decide
      next => omega
    rw [minus_of_le (by omega), Option.bind_eq_bind, Option.bind_some, log2RoundDown_eq (by omega),
      Option.bind_some, atMost_of_le exponent, Option.bind_some, shiftOne_of_lt (by omega),
      Option.bind_some]
    dsimp only at bound ⊢
    generalize (if 2 ^ (Nip44.log2RoundDown (len - 1) + 1) ≤ 256 then 32
      else 2 ^ (Nip44.log2RoundDown (len - 1) + 1) / 8) = chunk at positive bound ⊢
    have chunks : (len - 1) / chunk ≤ len - 1 := Nat.div_le_self _ _
    have count : (len - 1) / chunk + 1 ≤ u64Max := by
      rw [u64Max]
      omega
    rw [quotient_of_pos positive, Option.bind_some, atMost_of_le count, Option.bind_some]
    exact atMost_of_le (le_trans bound (by decide))

/-- What a settled step leaves. -/
@[simp] theorem settle_ok_bind {α β : Type} (value : α) (rest : α → Run β) :
    (settle (.ok value) >>= rest) = rest value := rfl

@[simp] theorem settle_error_bind {α β : Type} (error : ErrorV2) (rest : α → Run β) :
    (settle (.error error) >>= rest) = settle (.error error) := rfl

@[simp] theorem lift_some_bind {α β : Type} (value : α) (rest : α → Run β) :
    ((liftM (some value) : Run α) >>= rest) = rest value := rfl

theorem ok_bind {α β : Type} (value : α) (rest : α → Except ErrorV2 β) :
    (Except.ok value >>= rest) = rest value := rfl

theorem throw_eq_settle {α : Type} (error : ErrorV2) : (throw error : Run α) = settle (.error error) := rfl

theorem pure_eq_settle {α : Type} (value : α) : (pure value : Run α) = settle (.ok value) := rfl

section Machine

variable {machine : Machine} {ciphers : Ciphers}

theorem usizeMax_lt (machine : Machine) : machine.usizeMax < 2 ^ 64 := by
  have pointer := machine.pointer
  omega

theorem getRange_eq_some {bytes part : Bytes} {start stop : Nat}
    (found : getRange bytes start stop = some part) :
    start ≤ stop ∧ stop ≤ bytes.length ∧ part = (bytes.drop start).take (stop - start) := by
  unfold getRange at found
  split at found
  next inside =>
    cases found
    exact ⟨inside.1, inside.2, rfl⟩
  next => cases found

theorem elim_eq_ok {α : Type} {found : Option α} {error : ErrorV2} {value : α}
    (read : found.elim (.error error) .ok = (.ok value : Except ErrorV2 α)) : found = some value := by
  cases found with
  | none => cases read
  | some value =>
      cases read
      rfl

/-- The two forms of the length prefix. -/
inductive Prefixed (buffer : Bytes) : Nat → Nat → Prop where
  | legacy (long : 2 ≤ buffer.length) (nonzero : ofBigEndian (buffer.take 2) ≠ 0) :
      Prefixed buffer 2 (ofBigEndian (buffer.take 2))
  | extended (long : 6 ≤ buffer.length) (zero : ofBigEndian (buffer.take 2) = 0)
      (large : 65536 ≤ ofBigEndian ((buffer.drop 2).take 4)) :
      Prefixed buffer 6 (ofBigEndian ((buffer.drop 2).take 4))

theorem parsePlaintextLength_ok {platform : Platform} {buffer : Bytes} {prefixLen len : Nat}
    (parsed : parsePlaintextLength platform buffer = .ok (prefixLen, len)) :
    Prefixed buffer prefixLen len := by
  unfold parsePlaintextLength at parsed
  obtain ⟨firstTwo, read, parsed⟩ := bind_ok.mp parsed
  obtain ⟨_, long, rfl⟩ := getRange_eq_some (elim_eq_ok read)
  dsimp only at parsed
  split at parsed
  next nonzero =>
    cases parsed
    exact .legacy long nonzero
  next zero =>
    obtain ⟨extendedBytes, read, parsed⟩ := bind_ok.mp parsed
    obtain ⟨_, long, rfl⟩ := getRange_eq_some (elim_eq_ok read)
    split at parsed
    next => cases parsed
    next large =>
      split at parsed
      next => cases parsed
      next =>
        cases parsed
        exact .extended long (not_not.mp zero) (not_lt.mp large)

theorem Prefixed.lt {buffer : Bytes} {prefixLen len : Nat} (prefixed : Prefixed buffer prefixLen len) :
    prefixLen ≤ 6 ∧ len < 2 ^ 32 := by
  cases prefixed with
  | legacy long =>
      have below := ofBigEndian_lt (buffer.take 2)
      rw [List.length_take_of_le long] at below
      exact ⟨by decide, lt_trans below (by decide)⟩
  | extended long =>
      have below := ofBigEndian_lt ((buffer.drop 2).take 4)
      rw [List.length_take_of_le (by rw [List.length_drop]; omega)] at below
      exact ⟨le_refl 6, lt_of_lt_of_le below (by decide)⟩

theorem unpad_eq {decrypted : Bytes} (small : decrypted.length < 2 ^ 64) :
    unpad machine decrypted = settle (Nip44.unpad machine.toPlatform decrypted) := by
  unfold unpad Nip44.unpad
  cases parsed : parsePlaintextLength machine.toPlatform decrypted with
  | error error => rfl
  | ok lengths =>
      obtain ⟨prefixLen, unpaddedLen⟩ := lengths
      obtain ⟨short, fits⟩ := (parsePlaintextLength_ok parsed).lt
      rw [settle_ok_bind, ok_bind]
      dsimp only
      by_cases overflows : machine.usizeMax < prefixLen + unpaddedLen
      · rw [if_pos overflows, if_pos overflows]
        rfl
      rw [if_neg overflows, if_neg overflows, pure_eq_settle, settle_ok_bind, ok_bind]
      cases found : getRange decrypted prefixLen (prefixLen + unpaddedLen) with
      | none => rfl
      | some unpadded =>
          obtain ⟨order, inside, shape⟩ := getRange_eq_some found
          rw [Option.elim_some, settle_ok_bind, ok_bind]
          by_cases empty : unpadded.isEmpty = true
          · rw [if_pos empty, if_pos empty]
            rfl
          rw [if_neg empty, if_neg empty]
          by_cases other : unpadded.length ≠ unpaddedLen
          · rw [if_pos other, if_pos other]
            rfl
          rw [if_neg other, if_neg other]
          have padding := calcPadding_le (Nat.le_of_lt fits) (by decide)
          have noOverflow : ¬ u64Max < prefixLen + Nip44.calcPadding unpaddedLen := by
            rw [u64Max]
            omega
          rw [asU64_of_lt (show unpaddedLen < 2 ^ 64 by omega), calcPadding_eq fits, lift_some_bind,
            asU64_of_lt (show prefixLen < 2 ^ 64 by omega), if_neg noOverflow, pure_eq_settle,
            settle_ok_bind, asU64_of_lt small]
          by_cases mismatch : decrypted.length ≠ prefixLen + Nip44.calcPadding unpaddedLen
          · rw [if_pos mismatch, if_pos mismatch]
            rfl
          rw [if_neg mismatch, if_neg mismatch]
          obtain ⟨moved, copied, kept⟩ := copyWithin_front order inside
          rw [Nat.add_sub_cancel_left] at kept shape
          rw [copied, lift_some_bind, kept, ← shape]
          rfl

/-- The loop writes the blocks that are left behind what it has written. -/
theorem expandLoop_eq {prk info : Bytes} {count steps written counter : Nat} {out previous : Bytes}
    (left : count = (out.length - written + 31) / 32) (order : written ≤ out.length)
    (indexed : out.length ≤ machine.usizeMax) (enough : count < steps) (counted : counter + count ≤ u8Max) :
    expandLoop machine ciphers prk info steps out written counter previous =
      some (out.take written ++ (ciphers.blocks prk info count (UInt8.ofNat counter)
        (if 0 < written then previous else [])).take (out.length - written)) := by
  induction count generalizing steps written counter out previous with
  | zero =>
      cases steps with
      | zero => exact absurd enough (Nat.lt_irrefl 0)
      | succ steps =>
          have whole : ¬ written < out.length := by omega
          rw [expandLoop, if_neg whole, Ciphers.blocks, List.take_nil, List.append_nil,
            List.take_of_length_le (not_lt.mp whole)]
  | succ count ih =>
      cases steps with
      | zero => exact absurd enough (Nat.not_lt_zero _)
      | succ steps =>
          have more : written < out.length := by omega
          rw [expandLoop, if_pos more]
          dsimp only
          generalize blockIs : ciphers.hmac prk
            ((if 0 < written then previous else []) ++ info ++ [UInt8.ofNat counter]) = block
          rw [block.property, minus_of_le order, Option.bind_eq_bind, Option.bind_some]
          obtain ⟨taken, takenIs⟩ : ∃ taken, taken = min (out.length - written) 32 := ⟨_, rfl⟩
          rw [← takenIs]
          have stop : written + taken ≤ out.length := by omega
          have taken32 : taken ≤ block.val.length := by
            rw [block.property]
            omega
          have part : slice block.val 0 taken = some (block.val.take taken) :=
            slice_of_le (Nat.zero_le _) taken32
          have partLength : (block.val.take taken).length = written + taken - written := by
            rw [List.length_take_of_le taken32, Nat.add_sub_cancel_left]
          have counted' : counter + 1 ≤ u8Max := by omega
          simp only [atMost_of_le (le_trans stop indexed), part,
            copyFromSlice_of_le (Nat.le_add_right written taken) stop partLength, atMost_of_le counted',
            Option.bind_eq_bind, Option.bind_some]
          have headLength : (out.take written ++ block.val.take taken).length = written + taken := by
            rw [List.length_append, List.length_take_of_le order, List.length_take_of_le taken32]
          have outLength : (out.take written ++ block.val.take taken ++ out.drop (written + taken)).length =
              out.length := by
            rw [List.length_append, headLength, List.length_drop]
            omega
          rw [ih (by omega) (by omega) (by omega) (by omega) (by omega), outLength,
            List.take_left' headLength, if_pos (show 0 < written + taken by omega), List.append_assoc]
          rw [Ciphers.blocks, blockIs, List.take_append, block.property]
          rw [show UInt8.ofNat (counter + 1) = UInt8.ofNat counter + 1 from UInt8.ofNat_add counter 1]
          by_cases long : 32 ≤ out.length - written
          · have same : taken = 32 := by omega
            subst same
            rw [List.take_of_length_le (Nat.le_of_eq block.property),
              List.take_of_length_le (le_trans (Nat.le_of_eq block.property) long), Nat.sub_add_eq]
          · have last : count = 0 := by omega
            have same : taken = out.length - written := by omega
            rw [last, same, Ciphers.blocks, List.take_nil, List.take_nil]

theorem blocks_length (ciphers : Ciphers) (prk info : Bytes) (count : Nat) (counter : UInt8)
    (previous : Bytes) : (ciphers.blocks prk info count counter previous).length = 32 * count := by
  induction count generalizing counter previous with
  | zero => rfl
  | succ count ih =>
      rw [Ciphers.blocks]
      generalize ciphers.hmac prk (previous ++ info ++ [counter]) = block
      rw [List.length_append, block.property, ih]
      omega

theorem getMessageKeys_length (ciphers : Ciphers) (conversationKey : FixedBytes 32) (iv : Bytes) :
    (ciphers.getMessageKeys conversationKey iv).bytes.length = 76 := by
  rw [Ciphers.getMessageKeys, Ciphers.expandInto, List.length_take, blocks_length]
  rfl

section Keys

variable {keys : Ciphers.MessageKeys} (whole : keys.bytes.length = 76)

include whole in
theorem encryption_eq : encryption keys = some keys.encryption ∧ keys.encryption.length = 32 := by
  refine ⟨slice_of_le (by decide) (by omega), ?_⟩
  rw [Ciphers.MessageKeys.encryption, List.length_take_of_le (by omega)]

include whole in
theorem nonce_eq : nonce keys = some keys.nonce ∧ keys.nonce.length = 12 := by
  refine ⟨slice_of_le (by decide) (by omega), ?_⟩
  rw [Ciphers.MessageKeys.nonce, List.length_take_of_le (by rw [List.length_drop]; omega)]

include whole in
theorem auth_eq : auth keys = some keys.auth := by
  rw [auth, slice_of_le (by decide) (by omega), List.take_of_length_le (by rw [List.length_drop]; omega)]
  rfl

end Keys

theorem getMessageKeys_eq (conversationKey : FixedBytes 32) (iv : Bytes) :
    getMessageKeys machine ciphers conversationKey iv = some (ciphers.getMessageKeys conversationKey iv) := by
  have pointer := machine.pointer
  have length : (List.replicate 76 (0 : UInt8)).length = 76 := List.length_replicate
  have expanded := @expandLoop_eq machine ciphers conversationKey.val iv 3 77 0 1 (List.replicate 76 0)
    (List.replicate 32 0) (by rw [length]) (Nat.zero_le _) (by rw [length]; omega) (by decide) (by decide)
  rw [getMessageKeys, expandInto, length, expanded, length]
  rfl

theorem length_of_valid {len : Nat} {nothing : Unit} (valid : validatePayloadSize len = .ok nothing) :
    len ≤ 2 ^ 32 + 71 := by
  unfold validatePayloadSize at valid
  split at valid
  next => cases valid
  next within =>
    have padding : Nip44.calcPadding maxPlaintextSize ≤ 2 ^ 32 := calcPadding_le (by decide) (by decide)
    rw [maxPayloadSize, maxCiphertextSize, versionSize, nonceSize, hmacSize, extendedLengthPrefixSize] at within
    omega

/-- Whatever the payload, decryption does not panic. -/
theorem decryptToBytes_eq (conversationKey : FixedBytes 32) (payload : machine.Slice) :
    decryptToBytes machine ciphers conversationKey payload =
      settle (Nip44.decryptToBytes machine.toPlatform ciphers conversationKey payload.bytes) := by
  have pointer := usizeMax_lt machine
  have small : payload.bytes.length < 2 ^ 64 :=
    lt_of_le_of_lt (le_trans payload.fits machine.isizeMax_le) pointer
  unfold decryptToBytes Nip44.decryptToBytes
  dsimp only
  split
  next => rfl
  next enough =>
    rw [asU64_of_lt small]
    cases valid : validatePayloadSize payload.bytes.length with
    | error error => rfl
    | ok _ =>
        rw [settle_ok_bind, ok_bind]
        cases foundNonce : getRange payload.bytes versionSize (versionSize + nonceSize) with
        | none => rfl
        | some iv =>
            rw [Option.elim_some, settle_ok_bind, ok_bind]
            have least : hmacSize ≤ payload.bytes.length := le_trans (by decide) (not_lt.mp enough)
            rw [minus_of_le least, lift_some_bind]
            cases foundBuffer : getRange payload.bytes (versionSize + nonceSize)
                (payload.bytes.length - hmacSize) with
            | none => rfl
            | some buffer =>
                rw [Option.elim_some, settle_ok_bind, ok_bind]
                cases foundMac : getRange payload.bytes (payload.bytes.length - hmacSize)
                    payload.bytes.length with
                | none => rfl
                | some mac =>
                    rw [Option.elim_some, settle_ok_bind, ok_bind, getMessageKeys_eq, lift_some_bind]
                    have keysLength := getMessageKeys_length ciphers conversationKey iv
                    generalize ciphers.getMessageKeys conversationKey iv = keys at keysLength ⊢
                    obtain ⟨cipherKey, keyLength⟩ := encryption_eq keysLength
                    obtain ⟨cipherNonce, nonceLength⟩ := nonce_eq keysLength
                    rw [auth_eq keysLength, lift_some_bind]
                    by_cases forged : mac ≠ (ciphers.hmac keys.auth (iv ++ buffer)).val
                    · rw [if_pos forged, if_pos forged]
                      rfl
                    rw [if_neg forged, if_neg forged, cipherKey, lift_some_bind,
                      exactly_of_length keyLength, lift_some_bind, cipherNonce, lift_some_bind,
                      exactly_of_length nonceLength, lift_some_bind]
                    by_cases refused : (!machine.canReserve buffer.length) = true
                    · rw [if_pos refused, if_pos refused]
                      rfl
                    obtain ⟨_, _, shape⟩ := getRange_eq_some foundBuffer
                    have bufferLength : buffer.length ≤ payload.bytes.length := by
                      rw [shape, List.length_take, List.length_drop]
                      omega
                    have bounded := length_of_valid valid
                    have counted : (buffer.length + 63) / 64 ≤ u32Max := by
                      rw [u32Max]
                      omega
                    rw [if_neg refused, if_neg refused, applyKeystream, if_pos counted, lift_some_bind]
                    apply unpad_eq
                    rw [applyKeystream_length]
                    exact lt_of_le_of_lt bufferLength small

end Machine

/-! ## What is accepted -/

/-- What lies between the nonce and the MAC, decrypted. -/
def decryptedBuffer (ciphers : Ciphers) (conversationKey : FixedBytes 32) (payload : Bytes) : Bytes :=
  let iv := (payload.drop versionSize).take nonceSize
  let keys := ciphers.getMessageKeys conversationKey iv
  ciphers.applyKeystream keys.encryption keys.nonce
    ((payload.drop (versionSize + nonceSize)).take (payload.length - (versionSize + nonceSize + hmacSize)))

/-- The prefix is the one that encryption writes for the length. -/
theorem Prefixed.canonical {buffer : Bytes} {prefixLen len : Nat} (prefixed : Prefixed buffer prefixLen len)
    (present : buffer.length = prefixLen + Nip44.calcPadding len) :
    ∃ layout, PayloadLayout.new len = .ok layout ∧ layout.prefixLen = prefixLen ∧
      layout.payloadLen = 65 + buffer.length ∧ buffer.take prefixLen = lengthPrefix layout len := by
  have small := prefixed.lt.2
  cases prefixed with
  | legacy long nonzero =>
      have takenLength : (buffer.take 2).length = 2 := List.length_take_of_le long
      have below := ofBigEndian_lt (buffer.take 2)
      have read := bigEndian_ofBigEndian (buffer.take 2)
      rw [takenLength] at below read
      generalize ofBigEndian (buffer.take 2) = len at *
      have short : ¬ maxPlaintextSize < len := by
        rw [maxPlaintextSize]
        omega
      have two : len < extendedPrefixThreshold := below
      refine ⟨⟨2, 2 + Nip44.calcPadding len, 33 + (2 + Nip44.calcPadding len) + 32⟩, ?_, rfl, ?_, read.symm⟩
      swap
      · dsimp only
        omega
      rw [PayloadLayout.new, if_neg nonzero, if_neg short, if_pos two]
      rfl
  | extended long zero large =>
      have takenLength : ((buffer.drop 2).take 4).length = 4 :=
        List.length_take_of_le (by rw [List.length_drop]; omega)
      have firstLength : (buffer.take 2).length = 2 := List.length_take_of_le (by omega)
      have read := bigEndian_ofBigEndian ((buffer.drop 2).take 4)
      have first := bigEndian_ofBigEndian (buffer.take 2)
      rw [takenLength] at read
      rw [firstLength, zero] at first
      have parts : buffer.take 6 = buffer.take 2 ++ (buffer.drop 2).take 4 := by
        rw [show 6 = 2 + 4 from rfl, List.take_add]
      generalize ofBigEndian ((buffer.drop 2).take 4) = len at *
      have short : ¬ maxPlaintextSize < len := by
        rw [maxPlaintextSize]
        omega
      have six : ¬ len < extendedPrefixThreshold := not_lt.mpr large
      have nonzero : len ≠ 0 := by omega
      refine ⟨⟨6, 6 + Nip44.calcPadding len, 33 + (6 + Nip44.calcPadding len) + 32⟩, ?_, rfl, ?_, ?_⟩
      · rw [PayloadLayout.new, if_neg nonzero, if_neg short, if_neg six]
        rfl
      · dsimp only
        omega
      · rw [parts, ← first, ← read]
        rfl

theorem unpad_ok {platform : Platform} {decrypted plaintext : Bytes}
    (unpadded : Nip44.unpad platform decrypted = .ok plaintext) :
    ∃ prefixLen, Prefixed decrypted prefixLen plaintext.length ∧
      decrypted.length = prefixLen + Nip44.calcPadding plaintext.length ∧
      (decrypted.drop prefixLen).take plaintext.length = plaintext := by
  unfold Nip44.unpad at unpadded
  obtain ⟨⟨prefixLen, len⟩, parsed, unpadded⟩ := bind_ok.mp unpadded
  dsimp only at unpadded
  split at unpadded
  next => cases unpadded
  next =>
    rw [ok_bind] at unpadded
    obtain ⟨part, read, unpadded⟩ := bind_ok.mp unpadded
    obtain ⟨_, _, shape⟩ := getRange_eq_some (elim_eq_ok read)
    split at unpadded
    next => cases unpadded
    next =>
      split at unpadded
      next => cases unpadded
      next same =>
        have same : part.length = len := not_not.mp same
        split at unpadded
        next => cases unpadded
        next whole =>
          cases unpadded
          rw [same]
          rw [Nat.add_sub_cancel_left] at shape
          exact ⟨prefixLen, parsePlaintextLength_ok parsed, not_not.mp whole, shape.symm⟩

theorem decryptToBytes_ok {platform : Platform} {ciphers : Ciphers} {conversationKey : FixedBytes 32}
    {payload plaintext : Bytes}
    (decrypted : Nip44.decryptToBytes platform ciphers conversationKey payload = .ok plaintext) :
    minPayloadSize ≤ payload.length ∧
      Nip44.unpad platform (decryptedBuffer ciphers conversationKey payload) = .ok plaintext := by
  unfold Nip44.decryptToBytes at decrypted
  dsimp only at decrypted
  split at decrypted
  next => cases decrypted
  next enough =>
    refine ⟨not_lt.mp enough, ?_⟩
    obtain ⟨_, _, decrypted⟩ := bind_ok.mp decrypted
    obtain ⟨iv, foundNonce, decrypted⟩ := bind_ok.mp decrypted
    obtain ⟨buffer, foundBuffer, decrypted⟩ := bind_ok.mp decrypted
    obtain ⟨mac, _, decrypted⟩ := bind_ok.mp decrypted
    obtain ⟨_, _, ivShape⟩ := getRange_eq_some (elim_eq_ok foundNonce)
    obtain ⟨_, _, bufferShape⟩ := getRange_eq_some (elim_eq_ok foundBuffer)
    have length : payload.length - hmacSize - (versionSize + nonceSize) =
        payload.length - (versionSize + nonceSize + hmacSize) := by omega
    rw [Nat.add_sub_cancel_left] at ivShape
    rw [length] at bufferShape
    split at decrypted
    next => cases decrypted
    next =>
      split at decrypted
      next => cases decrypted
      next =>
        rw [ivShape, bufferShape] at decrypted
        exact decrypted

theorem decryptedBuffer_length (ciphers : Ciphers) (conversationKey : FixedBytes 32) {payload : Bytes}
    (enough : minPayloadSize ≤ payload.length) :
    65 + (decryptedBuffer ciphers conversationKey payload).length = payload.length := by
  have least : 99 ≤ payload.length := enough
  rw [decryptedBuffer, applyKeystream_length, List.length_take, List.length_drop, versionSize, nonceSize, hmacSize]
  omega

/-- Decryption never panics, and what it accepts has the length and the length prefix
of an encryption of the plaintext. -/
theorem decryptToBytes_canonical (machine : Machine) (ciphers : Ciphers) (conversationKey : FixedBytes 32)
    (payload : machine.Slice) :
    ∃ outcome, (decryptToBytes machine ciphers conversationKey payload).run = some outcome ∧
      ∀ plaintext, outcome = .ok plaintext →
        ∃ layout, PayloadLayout.new plaintext.length = .ok layout ∧
          payload.bytes.length = layout.payloadLen ∧
          let decrypted := decryptedBuffer ciphers conversationKey payload.bytes
          decrypted.take layout.prefixLen = lengthPrefix layout plaintext.length ∧
            (decrypted.drop layout.prefixLen).take plaintext.length = plaintext := by
  refine ⟨_, congrArg ExceptT.run (decryptToBytes_eq conversationKey payload), ?_⟩
  intro plaintext accepted
  obtain ⟨enough, unpadded⟩ := decryptToBytes_ok accepted
  obtain ⟨prefixLen, prefixed, whole, found⟩ := unpad_ok unpadded
  obtain ⟨layout, created, rfl, length, written⟩ := prefixed.canonical whole
  rw [decryptedBuffer_length ciphers conversationKey enough] at length
  exact ⟨layout, created, length.symm, written, found⟩

end Checked

end RustNostr.Nip44
