import Mathlib
import RustNostr.Nostr.Nip44
import RustNostr.Nostr.Hex

/-!
# Decrypting what was encrypted

A payload is laid out in regions, and each is found again where decryption looks
for it.
-/

set_option autoImplicit false

namespace RustNostr.Nip44

open Library

/-! ## Padding -/

theorem le_calcPadding (len : Nat) : len ≤ calcPadding len := by
  unfold calcPadding
  split
  next small => exact small
  next large =>
    have positive : 0 < if 2 ^ (log2RoundDown (len - 1) + 1) ≤ 256 then 32
        else 2 ^ (log2RoundDown (len - 1) + 1) / 8 := by
      split
      next => decide
      next => omega
    have below := Nat.lt_mul_div_succ (len - 1) positive
    dsimp only
    omega

theorem least_le_calcPadding (len : Nat) : 32 ≤ calcPadding len := by
  by_cases small : len ≤ 32
  · rw [calcPadding, if_pos small]
  · have above := le_calcPadding len
    omega

theorem chunks_le {chunk bound number : Nat} (divides : chunk ∣ bound) (below : number < bound) :
    chunk * (number / chunk + 1) ≤ bound := by
  obtain ⟨count, whole⟩ := divides
  rw [whole] at below ⊢
  exact Nat.mul_le_mul_left chunk (Nat.div_lt_of_lt_mul below)

/-- Padding does not pass a power of two. -/
theorem calcPadding_le {len exponent : Nat} (fits : len ≤ 2 ^ exponent) (long : 5 ≤ exponent) :
    calcPadding len ≤ 2 ^ exponent := by
  unfold calcPadding
  split
  next => exact le_trans (by decide) (Nat.pow_le_pow_right Nat.two_pos long)
  next large =>
    have nonzero : len - 1 ≠ 0 := by omega
    have below : log2RoundDown (len - 1) < exponent := (Nat.log2_lt nonzero).mpr (by omega)
    have five : 5 ≤ log2RoundDown (len - 1) := (Nat.le_log2 nonzero).mpr (by omega)
    have within : len - 1 < 2 ^ (log2RoundDown (len - 1) + 1) := Nat.lt_log2_self
    refine le_trans (chunks_le ?_ within) (Nat.pow_le_pow_right Nat.two_pos below)
    split
    next => exact Nat.pow_dvd_pow 2 (show 5 ≤ log2RoundDown (len - 1) + 1 by omega)
    next => exact Nat.div_dvd_of_dvd (Nat.pow_dvd_pow 2 (show 3 ≤ log2RoundDown (len - 1) + 1 by omega))

/-! ## The cipher -/

theorem applyKeystream_length (ciphers : Ciphers) (key nonce bytes : Bytes) :
    (ciphers.applyKeystream key nonce bytes).length = bytes.length := List.length_mapIdx

theorem applyKeystream_twice (ciphers : Ciphers) (key nonce bytes : Bytes) :
    ciphers.applyKeystream key nonce (ciphers.applyKeystream key nonce bytes) = bytes := by
  apply List.ext_getElem
  · rw [applyKeystream_length, applyKeystream_length]
  · intro position _ _
    simp [Ciphers.applyKeystream]

/-! ## Slices -/

theorem getRange_append {left middle right : Bytes} {start stop : Nat} (before : left.length = start)
    (through : (left ++ middle).length = stop) : getRange (left ++ (middle ++ right)) start stop =
      some middle := by
  rw [List.length_append] at through
  have inside : start ≤ stop ∧ stop ≤ (left ++ (middle ++ right)).length := by
    rw [List.length_append, List.length_append]
    omega
  rw [getRange, if_pos inside, List.drop_left' before, List.take_left' (by omega)]

/-! ## Regions -/

def prefixLen (plaintext : Bytes) : Nat :=
  if plaintext.length < extendedPrefixThreshold then legacyLengthPrefixSize
  else extendedLengthPrefixSize

def prefixBytes (plaintext : Bytes) : Bytes :=
  if plaintext.length < extendedPrefixThreshold then bigEndian 2 plaintext.length
  else [0, 0] ++ bigEndian 4 plaintext.length

def zeros (plaintext : Bytes) : Bytes :=
  List.replicate (calcPadding plaintext.length - plaintext.length) 0

/-- The ciphertext before it is encrypted. -/
def padded (plaintext : Bytes) : Bytes := prefixBytes plaintext ++ (plaintext ++ zeros plaintext)

theorem prefixBytes_length (plaintext : Bytes) :
    (prefixBytes plaintext).length = prefixLen plaintext := by
  unfold prefixBytes prefixLen
  split <;> simp [legacyLengthPrefixSize, extendedLengthPrefixSize]

theorem padded_length (plaintext : Bytes) :
    (padded plaintext).length = prefixLen plaintext + calcPadding plaintext.length := by
  have enough := le_calcPadding plaintext.length
  rw [padded, List.length_append, List.length_append, prefixBytes_length, zeros,
    List.length_replicate]
  omega

variable {platform : Platform} {ciphers : Ciphers}

theorem parsePlaintextLength_padded {plaintext : Bytes} (nonempty : plaintext.length ≠ 0)
    (short : plaintext.length ≤ maxPlaintextSize)
    (indexed : plaintext.length ≤ platform.usizeMax) :
    parsePlaintextLength platform (padded plaintext) =
      .ok (prefixLen plaintext, plaintext.length) := by
  unfold parsePlaintextLength padded prefixBytes prefixLen
  unfold maxPlaintextSize at short
  by_cases legacy : plaintext.length < extendedPrefixThreshold
  · have two : getRange (bigEndian 2 plaintext.length ++ (plaintext ++ zeros plaintext)) 0
        legacyLengthPrefixSize = some (bigEndian 2 plaintext.length) :=
      @getRange_append [] _ _ _ _ rfl (bigEndian_length 2 _)
    have read : ofBigEndian (bigEndian 2 plaintext.length) = plaintext.length :=
      ofBigEndian_bigEndian legacy
    simp [Bind.bind, Except.bind, legacy, two, read, nonempty]
  · have two : getRange (0 :: 0 :: (bigEndian 4 plaintext.length ++ (plaintext ++ zeros plaintext)))
        0 legacyLengthPrefixSize = some [0, 0] := @getRange_append [] [0, 0] _ _ _ rfl rfl
    have four : getRange (0 :: 0 :: (bigEndian 4 plaintext.length ++ (plaintext ++ zeros plaintext)))
        legacyLengthPrefixSize extendedLengthPrefixSize = some (bigEndian 4 plaintext.length) := by
      have through : ([0, 0] ++ bigEndian 4 plaintext.length).length = extendedLengthPrefixSize := by
        rw [List.length_append, bigEndian_length]
        rfl
      exact @getRange_append [0, 0] _ _ 2 _ rfl through
    have read : ofBigEndian (bigEndian 4 plaintext.length) = plaintext.length :=
      ofBigEndian_bigEndian (by norm_num; omega)
    have none : ofBigEndian [0, 0] = 0 := rfl
    have inRange : ¬ platform.usizeMax < plaintext.length := not_lt.mpr indexed
    simp [Bind.bind, Except.bind, legacy, two, four, read, none, inRange]

/-- The plaintext is found again. -/
theorem unpad_padded {plaintext : Bytes} (nonempty : plaintext.length ≠ 0)
    (short : plaintext.length ≤ maxPlaintextSize)
    (indexed : (padded plaintext).length ≤ platform.usizeMax) :
    unpad platform (padded plaintext) = .ok plaintext := by
  have enough := le_calcPadding plaintext.length
  rw [padded_length] at indexed
  have parsed : parsePlaintextLength platform (padded plaintext) =
      .ok (prefixLen plaintext, plaintext.length) :=
    parsePlaintextLength_padded nonempty short (by omega)
  have found : getRange (padded plaintext) (prefixLen plaintext)
      (prefixLen plaintext + plaintext.length) = some plaintext := by
    apply getRange_append (prefixBytes_length plaintext)
    rw [List.length_append, prefixBytes_length]
  have inRange : ¬ platform.usizeMax < prefixLen plaintext + plaintext.length := by omega
  have filled : plaintext.isEmpty = false :=
    List.isEmpty_eq_false_iff.mpr fun empty => nonempty (congrArg List.length empty)
  unfold unpad
  rw [parsed]
  simp [Bind.bind, Except.bind, inRange, found, filled, padded_length]

/-- A payload by its regions. -/
def payloadOf (ciphers : Ciphers) (conversationKey : FixedBytes 32) (plaintext : Bytes)
    (nonce : FixedBytes 32) : Bytes :=
  let keys := ciphers.getMessageKeys conversationKey nonce.val
  let ciphertext := ciphers.applyKeystream keys.encryption keys.nonce (padded plaintext)
  [2] ++ (nonce.val ++ (ciphertext ++ (ciphers.hmac keys.auth (nonce.val ++ ciphertext)).val))

theorem resize_of_le {bytes : Bytes} {length : Nat} (short : bytes.length ≤ length) :
    resize bytes length = bytes ++ List.replicate (length - bytes.length) 0 := by
  rw [resize, List.take_of_length_le short]

theorem new_eq_ok {plaintext : Bytes} {layout : PayloadLayout}
    (created : PayloadLayout.new plaintext.length = .ok layout) :
    plaintext.length ≠ 0 ∧ plaintext.length ≤ maxPlaintextSize ∧ layout = {
      prefixLen := prefixLen plaintext
      ciphertextLen := (padded plaintext).length
      payloadLen := 65 + (padded plaintext).length } := by
  unfold PayloadLayout.new at created
  split at created
  next => cases created
  next nonempty =>
    split at created
    next => cases created
    next short =>
      cases created
      refine ⟨nonempty, not_lt.mp short, ?_⟩
      rw [padded_length]
      simp only [PayloadLayout.mk.injEq, versionSize, nonceSize, hmacSize]
      refine ⟨rfl, rfl, ?_⟩
      unfold prefixLen
      omega

theorem supportedAllocationSize_eq_ok {len size : Nat}
    (supported : supportedAllocationSize platform len = .ok size) :
    len ≤ platform.isizeMax ∧ size = len := by
  unfold supportedAllocationSize at supported
  split at supported
  next => cases supported
  next within =>
    split at supported
    next => cases supported
    next =>
      cases supported
      exact ⟨not_lt.mp within, rfl⟩

theorem lengthPrefix_eq (plaintext : Bytes) (ciphertextLen payloadLen : Nat) :
    lengthPrefix { prefixLen := prefixLen plaintext, ciphertextLen, payloadLen } plaintext.length =
      prefixBytes plaintext := by
  unfold lengthPrefix prefixLen prefixBytes
  by_cases legacy : plaintext.length < extendedPrefixThreshold
  · simp [legacy]
  · simp [legacy, legacyLengthPrefixSize, extendedLengthPrefixSize]

/-- The payload before its ciphertext and MAC overwrite what stands there. -/
theorem resize_payload (nonce : FixedBytes 32) (plaintext : Bytes) :
    resize ([2] ++ nonce.val ++ prefixBytes plaintext ++ plaintext) (65 + (padded plaintext).length) =
      ([2] ++ nonce.val) ++ (padded plaintext ++ List.replicate 32 0) := by
  have enough := le_calcPadding plaintext.length
  have header : ([2] ++ nonce.val : Bytes).length = 33 := by
    rw [List.length_append, nonce.property]
    rfl
  have written : ([2] ++ nonce.val ++ prefixBytes plaintext ++ plaintext).length =
      33 + prefixLen plaintext + plaintext.length := by
    rw [List.length_append, List.length_append, header, prefixBytes_length]
  have gap : 65 + (prefixLen plaintext + calcPadding plaintext.length) -
      (33 + prefixLen plaintext + plaintext.length) =
      (calcPadding plaintext.length - plaintext.length) + 32 := by omega
  rw [resize_of_le (by rw [written, padded_length]; omega), written, padded_length, gap,
    List.replicate_add, padded, zeros]
  simp only [List.append_assoc]

theorem encrypted_regions (ciphers : Ciphers) (conversationKey nonce : FixedBytes 32)
    (plaintext : Bytes) :
    let keys := ciphers.getMessageKeys conversationKey nonce.val
    let payload := ([2] ++ nonce.val) ++ (padded plaintext ++ List.replicate 32 0)
    let macStart := 33 + (padded plaintext).length
    let ciphertext := ciphers.applyKeystream keys.encryption keys.nonce
      ((payload.drop 33).take (macStart - 33))
    let overwritten := payload.take 33 ++ ciphertext ++ payload.drop macStart
    overwritten.take macStart ++
        (ciphers.hmac keys.auth ((overwritten.drop 1).take (macStart - 1))).val =
      payloadOf ciphers conversationKey plaintext nonce := by
  intro keys payload macStart ciphertext overwritten
  have header : ([2] ++ nonce.val : Bytes).length = 33 := by
    rw [List.length_append, nonce.property]
    rfl
  have region : (payload.drop 33).take (macStart - 33) = padded plaintext := by
    rw [List.drop_left' header, List.take_left' (by simp only [macStart]; omega)]
  have encrypted : ciphertext = ciphers.applyKeystream keys.encryption keys.nonce (padded plaintext) :=
    congrArg (ciphers.applyKeystream keys.encryption keys.nonce) region
  have length : ([2] ++ nonce.val ++ ciphertext).length = macStart := by
    rw [List.length_append, header, encrypted, applyKeystream_length]
  have first : payload.take 33 = [2] ++ nonce.val := List.take_left' header
  have whole : overwritten = [2] ++ nonce.val ++ ciphertext ++ payload.drop macStart := by
    rw [← first]
  have authenticated : (overwritten.drop 1).take (macStart - 1) = nonce.val ++ ciphertext := by
    rw [← List.drop_take, whole, List.take_left' length]
    rfl
  rw [authenticated, whole, List.take_left' length, encrypted]
  simp only [payloadOf, List.append_assoc]
  rfl

/-- What a successful encryption has passed, and the payload that it yields. -/
theorem encrypt_eq_ok {conversationKey nonce : FixedBytes 32} {plaintext payload : Bytes}
    (encrypted : encryptToBytesWithNonce platform ciphers conversationKey plaintext nonce =
      .ok payload) :
    plaintext.length ≠ 0 ∧ plaintext.length ≤ maxPlaintextSize ∧
      65 + (padded plaintext).length ≤ platform.isizeMax ∧
      platform.canReserve (65 + (padded plaintext).length) = true ∧
      payload = payloadOf ciphers conversationKey plaintext nonce := by
  unfold encryptToBytesWithNonce at encrypted
  cases created : PayloadLayout.new plaintext.length with
  | error error =>
      simp only [created] at encrypted
      cases encrypted
  | ok layout =>
      obtain ⟨nonempty, short, shape⟩ := new_eq_ok created
      subst shape
      cases whole : supportedAllocationSize platform (65 + (padded plaintext).length) with
      | error error =>
          simp only [created, whole, Bind.bind, Except.bind] at encrypted
          cases encrypted
      | ok payloadLen =>
          cases part : supportedAllocationSize platform (padded plaintext).length with
          | error error =>
              simp only [created, whole, part, Bind.bind, Except.bind] at encrypted
              cases encrypted
          | ok ciphertextLen =>
              obtain ⟨within, rfl⟩ := supportedAllocationSize_eq_ok whole
              obtain ⟨_, rfl⟩ := supportedAllocationSize_eq_ok part
              simp only [created, whole, part, Bind.bind, Except.bind] at encrypted
              split at encrypted
              next => cases encrypted
              next reserved =>
                refine ⟨nonempty, short, within, ?_, ?_⟩
                · simpa using reserved
                · cases encrypted
                  rw [lengthPrefix_eq, resize_payload]
                  exact (encrypted_regions ciphers conversationKey nonce plaintext)

theorem decrypt_payloadOf {conversationKey nonce : FixedBytes 32} {plaintext : Bytes}
    (nonempty : plaintext.length ≠ 0) (short : plaintext.length ≤ maxPlaintextSize)
    (indexed : (padded plaintext).length ≤ platform.usizeMax)
    (reserved : platform.canReserve (padded plaintext).length = true) :
    decryptToBytes platform ciphers conversationKey
      (payloadOf ciphers conversationKey plaintext nonce) = .ok plaintext := by
  have size := padded_length plaintext
  have prefixSize : 2 ≤ prefixLen plaintext ∧ prefixLen plaintext ≤ 6 := by
    unfold prefixLen
    split <;> decide
  have least := least_le_calcPadding plaintext.length
  have most : calcPadding plaintext.length ≤ 2 ^ 32 :=
    calcPadding_le (le_trans short (by decide)) (by decide)
  let keys := ciphers.getMessageKeys conversationKey nonce.val
  let ciphertext := ciphers.applyKeystream keys.encryption keys.nonce (padded plaintext)
  let mac := ciphers.hmac keys.auth (nonce.val ++ ciphertext)
  have ciphertextLength : ciphertext.length = (padded plaintext).length :=
    applyKeystream_length ciphers _ _ _
  have length : (payloadOf ciphers conversationKey plaintext nonce).length =
      65 + (padded plaintext).length := by
    change ([2] ++ (nonce.val ++ (ciphertext ++ mac.val))).length = _
    simp only [List.length_append, nonce.property, ciphertextLength, mac.property, List.length_singleton]
    omega
  have long : ¬ 65 + (padded plaintext).length < minPayloadSize := by
    simp only [minPayloadSize, versionSize, nonceSize, minCiphertextSize, legacyLengthPrefixSize, hmacSize]
    omega
  have valid : validatePayloadSize (65 + (padded plaintext).length) = .ok () := by
    have greatest : calcPadding maxPlaintextSize = 2 ^ 32 := by decide
    apply if_neg
    simp only [maxPayloadSize, maxCiphertextSize, greatest, versionSize, nonceSize, hmacSize,
      extendedLengthPrefixSize]
    omega
  have nonceRange : getRange (payloadOf ciphers conversationKey plaintext nonce) versionSize
      (versionSize + nonceSize) = some nonce.val := by
    apply @getRange_append [2] nonce.val (ciphertext ++ mac.val) _ _ rfl
    rw [List.length_append, nonce.property]
    rfl
  have bufferRange : getRange (payloadOf ciphers conversationKey plaintext nonce)
      (versionSize + nonceSize) (65 + (padded plaintext).length - hmacSize) = some ciphertext := by
    have header : ([2] ++ nonce.val : Bytes).length = versionSize + nonceSize := by
      rw [List.length_append, nonce.property]
      rfl
    apply @getRange_append ([2] ++ nonce.val) ciphertext mac.val _ _ header
    rw [List.length_append, header, ciphertextLength]
    simp only [versionSize, nonceSize, hmacSize]
    omega
  have macRange : getRange (payloadOf ciphers conversationKey plaintext nonce)
      (65 + (padded plaintext).length - hmacSize) (65 + (padded plaintext).length) = some mac.val := by
    have before : ([2] ++ (nonce.val ++ ciphertext) : Bytes).length =
        65 + (padded plaintext).length - hmacSize := by
      rw [List.length_append, List.length_append, nonce.property, ciphertextLength,
        List.length_singleton, hmacSize]
      omega
    have shape : payloadOf ciphers conversationKey plaintext nonce =
        [2] ++ (nonce.val ++ ciphertext) ++ (mac.val ++ []) := by
      rw [List.append_nil, List.append_assoc, List.append_assoc]
      rfl
    rw [shape]
    apply getRange_append before
    rw [List.length_append, before, mac.property, hmacSize]
    omega
  have decrypted : ciphers.applyKeystream keys.encryption keys.nonce ciphertext = padded plaintext :=
    applyKeystream_twice ciphers _ _ _
  have unpadded : unpad platform (padded plaintext) = .ok plaintext :=
    unpad_padded nonempty short indexed
  unfold decryptToBytes
  rw [length]
  simp only [long, valid, nonceRange, bufferRange, macRange, Bind.bind, Except.bind, Option.elim_some,
    if_false]
  have authentic : mac.val =
      (ciphers.hmac (ciphers.getMessageKeys conversationKey nonce.val).auth
        (nonce.val ++ ciphertext)).val := rfl
  have allowed : (!platform.canReserve ciphertext.length) ≠ true := by
    rw [ciphertextLength, reserved]
    decide
  rw [if_neg (not_not.mpr authentic), if_neg allowed]
  exact (congrArg (unpad platform) decrypted).trans unpadded

/-- Whatever is encrypted is decrypted to itself, if memory that could be reserved for
the payload can be reserved for a part of it. -/
theorem decryptToBytes_encryptToBytesWithNonce (platform : Platform) (ciphers : Ciphers)
    (smaller : ∀ small large, small ≤ large → platform.canReserve large = true →
      platform.canReserve small = true)
    (conversationKey nonce : FixedBytes 32) (plaintext payload : Bytes)
    (encrypted : encryptToBytesWithNonce platform ciphers conversationKey plaintext nonce =
      .ok payload) :
    decryptToBytes platform ciphers conversationKey payload = .ok plaintext := by
  obtain ⟨nonempty, short, within, reserved, shape⟩ := encrypt_eq_ok encrypted
  rw [shape]
  apply decrypt_payloadOf nonempty short
  · exact le_trans (Nat.le_add_left _ 65) (le_trans within platform.isizeMax_le)
  · exact smaller _ _ (Nat.le_add_left _ 65) reserved

/-- A machine with 64 bits and memory. -/
def samplePlatform : Platform where
  isizeMax := 9223372036854775807
  usizeMax := 18446744073709551615
  isizeMax_le := by decide
  canReserve _ := true

def ofHex (digits : String) : Bytes := (hexBytes digits.toList).getD []

def ofHex32 (digits : String) : FixedBytes 32 :=
  let bytes := ofHex digits
  if whole : bytes.length = 32 then ⟨bytes, whole⟩ else .replicate 32 0

def sampleKey : FixedBytes 32 :=
  ofHex32 "c41c775356fd92eadc63ff5a0dc1da211b268cbea22316767095b2871ea1412d"

def sampleNonce : FixedBytes 32 :=
  ofHex32 "0000000000000000000000000000000000000000000000000000000000000001"

def sampleBlock1 : FixedBytes 32 :=
  ofHex32 "63e64ca552c6a0664d4f6402c033fd698f43d531520e177d7c5c84357feafd1a"

def sampleBlock2 : FixedBytes 32 :=
  ofHex32 "1f58294fc1d270dc407146cab3bd1176db3c377f82fd03162d0f3a9a323cace3"

def sampleBlock3 : FixedBytes 32 :=
  ofHex32 "9fb89970b9f32395476e1a08c1c995b505a924a3ffbd046f4c52ee91cac8704d"

def sampleMac : FixedBytes 32 :=
  ofHex32 "794259929a02bb06ad8e8cf709ee4ccc567e9d514cdf5781af27a3e905e55b1b"

def sampleKeystream : Bytes :=
  ofHex "79ec67e5548ad3ff58ca920e6c0b4329f6040230f7e6e5641f20741780f0adc35a09"

def sampleCiphertext : Bytes :=
  ofHex "79ed06e5548ad3ff58ca920e6c0b4329f6040230f7e6e5641f20741780f0adc35a09"

/-- The real functions on the first published payload. -/
def sampleCiphers : Ciphers where
  hmac _ message :=
    if message = sampleNonce.val ++ [1] then sampleBlock1
    else if message = sampleBlock1.val ++ sampleNonce.val ++ [2] then sampleBlock2
    else if message = sampleBlock2.val ++ sampleNonce.val ++ [3] then sampleBlock3
    else if message = sampleNonce.val ++ sampleCiphertext then sampleMac
    else .replicate 32 0
  keystream _ _ position := sampleKeystream[position]?.getD 0

/-- The letter `a`, encrypted and decrypted. -/
theorem decryptToBytes_encryptToBytesWithNonce_letter :
    encryptToBytesWithNonce samplePlatform sampleCiphers sampleKey [97] sampleNonce =
      .ok ([2] ++ sampleNonce.val ++ sampleCiphertext ++ sampleMac.val) ∧
    decryptToBytes samplePlatform sampleCiphers sampleKey
      ([2] ++ sampleNonce.val ++ sampleCiphertext ++ sampleMac.val) = .ok [97] := by
  have encrypted : encryptToBytesWithNonce samplePlatform sampleCiphers sampleKey [97] sampleNonce =
      .ok ([2] ++ sampleNonce.val ++ sampleCiphertext ++ sampleMac.val) := by decide +kernel
  exact ⟨encrypted, decryptToBytes_encryptToBytesWithNonce samplePlatform sampleCiphers
    (fun _ _ _ reserved => reserved) sampleKey sampleNonce [97] _ encrypted⟩

end RustNostr.Nip44
