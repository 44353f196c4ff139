import Mathlib
import RustNostr.Nostr.EventJson

/-!
# Hexadecimal

The texts of IDs and keys, as `faster_hex` writes and reads them. The model takes
both directions as parameters; here is what is asked of them, and a codec that does
it.
-/

set_option autoImplicit false

namespace RustNostr

open Library

/-- Lowercase digits are written, and what was written is read back. -/
structure HexCodec (externals : Externals) : Prop where
  encode : ∀ bytes, externals.hexEncode bytes = Json.lowercaseHex bytes
  decode : ∀ bytes : FixedBytes 32, externals.hexDecode (Json.lowercaseHex bytes.val) = some bytes

theorem HexCodec.hexEncode_ne_empty {externals : Externals} (codec : HexCodec externals) {bytes : Bytes}
    (some_ : bytes ≠ []) : externals.hexEncode bytes ≠ "" := by
  cases bytes with
  | nil => exact absurd rfl some_
  | cons byte bytes =>
      rw [codec.encode, Json.lowercaseHex]
      simp

/-- Digits of either case are read, and nothing else. -/
structure HexReader (externals : Externals) : Prop extends HexCodec externals where
  read : ∀ text bytes, externals.hexDecode text = some bytes →
    text.toList.map Char.toLower = (Json.lowercaseHex bytes.val).toList

def hexDigit (char : Char) : Option UInt8 :=
  if char.isDigit then some (UInt8.ofNat (char.toNat - 48))
  else if 'a' ≤ char ∧ char ≤ 'f' then some (UInt8.ofNat (char.toNat - 87))
  else if 'A' ≤ char ∧ char ≤ 'F' then some (UInt8.ofNat (char.toNat - 55))
  else none

def hexBytes : List Char → Option Bytes
  | [] => some []
  | [_] => none
  | high :: low :: rest => do
      let high ← hexDigit high
      let low ← hexDigit low
      let bytes ← hexBytes rest
      some ((high * 16 + low) :: bytes)

def hexOf (byte : UInt8) : List Char :=
  let digit (value : Nat) := Char.ofNat (if value < 10 then 48 + value else 87 + value)
  [digit (byte.toNat / 16), digit (byte.toNat % 16)]

/-- Hexadecimal as the code decodes and encodes it; no relay URL is valid. -/
def hexExternals : Externals where
  hexDecode text := do
    let bytes ← hexBytes text.toList
    if whole : bytes.length = 32 then some ⟨bytes, whole⟩ else none
  hexEncode bytes := String.ofList (bytes.flatMap hexOf)
  relayUrlParse _ := none

theorem hexDigit_written {digit : Nat} (small : digit < 16) :
    hexDigit (Json.hexDigit digit) = some (UInt8.ofNat digit) := by
  have each : ∀ digit < 16, hexDigit (Json.hexDigit digit) = some (UInt8.ofNat digit) := by
    decide
  exact each digit small

theorem hexOf_eq (byte : UInt8) :
    hexOf byte = [Json.hexDigit (byte.toNat / 16), Json.hexDigit (byte.toNat % 16)] := by
  simp only [hexOf, Json.hexDigit, apply_ite Char.ofNat]

theorem hexBytes_written (bytes : Bytes) : hexBytes (bytes.flatMap hexOf) = some bytes := by
  induction bytes with
  | nil => rfl
  | cons byte bytes ih =>
      have bound := byte.toNat_lt
      have joined : UInt8.ofNat (byte.toNat / 16) * 16 + UInt8.ofNat (byte.toNat % 16) = byte := by
        apply UInt8.toNat.inj
        simp only [UInt8.toNat_add, UInt8.toNat_mul, UInt8.toNat_ofNat', UInt8.reduceToNat]
        omega
      rw [List.flatMap_cons, hexOf_eq]
      simp only [List.cons_append, List.nil_append, hexBytes, ih, Option.bind_eq_bind,
        Option.bind_some, hexDigit_written (show byte.toNat / 16 < 16 by omega),
        hexDigit_written (show byte.toNat % 16 < 16 by omega), joined]

theorem hexExternals_hexCodec : HexCodec hexExternals where
  encode bytes := by
    simp only [hexExternals, Json.lowercaseHex, ← hexOf_eq]
  decode bytes := by
    have read : hexBytes (Json.lowercaseHex bytes.val).toList = some bytes.val := by
      simp only [Json.lowercaseHex, String.toList_ofList, ← hexOf_eq]
      exact hexBytes_written bytes.val
    simp [hexExternals, read, bytes.property]

theorem hexDigit_eq_some {char : Char} {digit : UInt8} (read : hexDigit char = some digit) :
    digit.toNat < 16 ∧ char.toLower = Json.hexDigit digit.toNat := by
  have each : ∀ number < 128, (hexDigit (Char.ofNat number)).all fun digit =>
      digit.toNat < 16 ∧ (Char.ofNat number).toLower = Json.hexDigit digit.toNat := by decide
  have ascii : char.toNat < 128 := by
    unfold hexDigit at read
    split at read
    next decimal =>
      have below : char.toNat ≤ '9'.toNat := (Char.isDigit_iff_toNat.mp decimal).2
      exact lt_of_le_of_lt below (by decide)
    next =>
      split at read
      next lower =>
        have below : char.toNat ≤ 'f'.toNat := lower.2
        exact lt_of_le_of_lt below (by decide)
      next =>
        split at read
        next upper =>
          have below : char.toNat ≤ 'F'.toNat := upper.2
          exact lt_of_le_of_lt below (by decide)
        next => cases read
  have found := each char.toNat ascii
  rw [Char.ofNat_toNat, read] at found
  exact of_decide_eq_true found

theorem hexBytes_eq_some {text : List Char} {bytes : Bytes} (read : hexBytes text = some bytes) :
    text.map Char.toLower = (Json.lowercaseHex bytes).toList := by
  rw [Json.lowercaseHex, String.toList_ofList]
  induction text using hexBytes.induct generalizing bytes with
  | case1 =>
      cases read
      rfl
  | case2 => cases read
  | case3 high low rest ih =>
      obtain ⟨first, highRead, read⟩ := Option.bind_eq_some_iff.mp read
      obtain ⟨second, lowRead, read⟩ := Option.bind_eq_some_iff.mp read
      obtain ⟨others, restRead, read⟩ := Option.bind_eq_some_iff.mp read
      cases read
      have top := hexDigit_eq_some highRead
      have bottom := hexDigit_eq_some lowRead
      have joined : (first * 16 + second).toNat = first.toNat * 16 + second.toNat := by
        simp only [UInt8.toNat_add, UInt8.toNat_mul, UInt8.reduceToNat]
        omega
      have upper : (first * 16 + second).toNat / 16 = first.toNat := by omega
      have lower : (first * 16 + second).toNat % 16 = second.toNat := by omega
      rw [List.map_cons, List.map_cons, ih restRead, top.2, bottom.2, List.flatMap_cons, upper, lower]
      rfl

theorem hexExternals_hexReader : HexReader hexExternals where
  toHexCodec := hexExternals_hexCodec
  read text bytes decoded := by
    obtain ⟨found, read, whole⟩ := Option.bind_eq_some_iff.mp decoded
    split at whole
    next =>
      cases whole
      exact hexBytes_eq_some read
    next => cases whole

end RustNostr
