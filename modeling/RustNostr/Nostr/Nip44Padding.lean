import Mathlib
import RustNostr.Nostr.Nip44Checked

/-!
# Padded lengths

How the padding grows with the plaintext, and that no length of a payload overflows
(`nostr/src/nips/nip44/v2.rs`).
-/

set_option autoImplicit false

namespace RustNostr.Nip44

open Library

/-! ## Growth -/

/-- The power of two above a plaintext is above its padding too. -/
theorem calcPadding_le_nextpower {len : Nat} (large : 32 < len) :
    calcPadding len ≤ 2 ^ (log2RoundDown (len - 1) + 1) := by
  have nonzero : len - 1 ≠ 0 := by omega
  have five : 5 ≤ log2RoundDown (len - 1) := (Nat.le_log2 nonzero).mpr (by omega)
  have within : len - 1 < 2 ^ (log2RoundDown (len - 1) + 1) := Nat.lt_log2_self
  exact calcPadding_le (by omega) (by omega)

theorem calcPadding_lt {len : Nat} (positive : 0 < len) : calcPadding len < 2 * len + 32 := by
  by_cases small : len ≤ 32
  · rw [calcPadding, if_pos small]
    omega
  · have padded := calcPadding_le_nextpower (not_le.mp small)
    have floor : 2 ^ log2RoundDown (len - 1) ≤ len - 1 := Nat.log2_self_le (by omega)
    rw [Nat.pow_succ] at padded
    omega

/-- Lengths with the same power of two above them have chunks of the same size. Otherwise
the power of two lies between the shorter padding and the longer plaintext. -/
theorem calcPadding_mono {shorter longer : Nat} (order : shorter ≤ longer) :
    calcPadding shorter ≤ calcPadding longer := by
  by_cases small : shorter ≤ 32
  · rw [calcPadding, if_pos small]
    exact least_le_calcPadding longer
  have large : ¬ longer ≤ 32 := by omega
  have logs : log2RoundDown (shorter - 1) ≤ log2RoundDown (longer - 1) := by
    have floor : 2 ^ log2RoundDown (shorter - 1) ≤ shorter - 1 := Nat.log2_self_le (by omega)
    exact (Nat.le_log2 (by omega)).mpr (by omega)
  rcases logs.eq_or_lt with same | below
  · rw [calcPadding, calcPadding, if_neg small, if_neg large, same]
    dsimp only
    exact Nat.mul_le_mul_left _ (Nat.succ_le_succ (Nat.div_le_div_right (by omega)))
  · have floor : 2 ^ log2RoundDown (longer - 1) ≤ longer - 1 := Nat.log2_self_le (by omega)
    calc calcPadding shorter
        ≤ 2 ^ (log2RoundDown (shorter - 1) + 1) := calcPadding_le_nextpower (not_le.mp small)
      _ ≤ 2 ^ log2RoundDown (longer - 1) := Nat.pow_le_pow_right Nat.two_pos below
      _ ≤ longer := by omega
      _ ≤ calcPadding longer := le_calcPadding longer

theorem PayloadLayout.payloadLen_le {len : Nat} {layout : PayloadLayout}
    (created : PayloadLayout.new len = .ok layout) : layout.payloadLen ≤ maxPayloadSize := by
  unfold PayloadLayout.new at created
  split at created
  next => cases created
  next =>
    split at created
    next => cases created
    next within =>
      cases created
      have padding := calcPadding_mono (not_lt.mp within)
      have short : (if len < extendedPrefixThreshold then legacyLengthPrefixSize
          else extendedLengthPrefixSize) ≤ extendedLengthPrefixSize := by
        split
        next => decide
        next => exact le_refl _
      dsimp only
      rw [maxPayloadSize, maxCiphertextSize]
      omega

/-! ## Without overflow -/

namespace Checked

open Library.Checked

/-- `u64::checked_add`, with the error for an overflow -/
def checkedAdd (left right : Nat) : Except ErrorV2 Nat :=
  if left + right ≤ u64Max then .ok (left + right) else .error .messageTooLong

def PayloadLayout.new (plaintextLen : Nat) : Run PayloadLayout :=
  if plaintextLen = 0 then throw .messageEmpty
  else if maxPlaintextSize < plaintextLen then throw .messageTooLong
  else do
    let prefixLen :=
      if plaintextLen < extendedPrefixThreshold then legacyLengthPrefixSize
      else extendedLengthPrefixSize
    let paddedLen ← calcPadding plaintextLen
    let ciphertextLen ← settle (checkedAdd prefixLen paddedLen)
    let len ← settle (checkedAdd versionSize nonceSize)
    let len ← settle (checkedAdd len ciphertextLen)
    let payloadLen ← settle (checkedAdd len hmacSize)
    pure { prefixLen, ciphertextLen, payloadLen }

def maxCiphertextSize : Option Nat := do
  let padding ← calcPadding maxPlaintextSize
  atMost u64Max (extendedLengthPrefixSize + padding)

/-- A constant of the crate, computed where an overflow stops the compiler. -/
def maxPayloadSize : Option Nat := do
  let size ← atMost u64Max (versionSize + nonceSize)
  let ciphertextSize ← maxCiphertextSize
  let size ← atMost u64Max (size + ciphertextSize)
  atMost u64Max (size + hmacSize)

theorem checkedAdd_of_le {left right : Nat} (fits : left + right ≤ u64Max) :
    checkedAdd left right = .ok (left + right) := if_pos fits

theorem maxPayloadSize_eq : maxPayloadSize = some Nip44.maxPayloadSize := by
  have padding : Nip44.calcPadding maxPlaintextSize ≤ 2 ^ 32 := calcPadding_le (by decide) (by decide)
  rw [maxPayloadSize, maxCiphertextSize, calcPadding_eq (by decide), Nip44.maxPayloadSize, Nip44.maxCiphertextSize]
  generalize Nip44.calcPadding maxPlaintextSize = padded at padding ⊢
  have fits : versionSize + nonceSize + (extendedLengthPrefixSize + padded) + hmacSize ≤ u64Max := by
    rw [versionSize, nonceSize, extendedLengthPrefixSize, hmacSize, u64Max]
    omega
  simp only [Option.bind_eq_bind, Option.bind_some]
  rw [atMost_of_le (by omega), Option.bind_some, atMost_of_le (by omega), Option.bind_some,
    atMost_of_le (by omega), Option.bind_some, atMost_of_le fits]

theorem PayloadLayout.new_eq (len : Nat) : PayloadLayout.new len = settle (Nip44.PayloadLayout.new len) := by
  unfold PayloadLayout.new Nip44.PayloadLayout.new
  split
  next => rfl
  next =>
    split
    next => rfl
    next within =>
      have small : len < 2 ^ 32 := lt_of_le_of_lt (not_lt.mp within) (by decide)
      have padding : Nip44.calcPadding len ≤ 2 ^ 32 := calcPadding_le (Nat.le_of_lt small) (by decide)
      have short : (if len < extendedPrefixThreshold then legacyLengthPrefixSize
          else extendedLengthPrefixSize) ≤ 6 := by
        split
        next => decide
        next => decide
      rw [calcPadding_eq small, lift_some_bind]
      dsimp only
      generalize (if len < extendedPrefixThreshold then legacyLengthPrefixSize
        else extendedLengthPrefixSize) = prefixLen at short ⊢
      generalize Nip44.calcPadding len = padded at padding ⊢
      have fits : versionSize + nonceSize + (prefixLen + padded) + hmacSize ≤ u64Max := by
        rw [versionSize, nonceSize, hmacSize, u64Max]
        omega
      rw [checkedAdd_of_le (by omega), settle_ok_bind, checkedAdd_of_le (by omega), settle_ok_bind,
        checkedAdd_of_le (by omega), settle_ok_bind, checkedAdd_of_le fits, settle_ok_bind]
      rfl

theorem exists_layout {len : Nat} (positive : 0 < len) (small : len ≤ u32Max) :
    ∃ layout, Nip44.PayloadLayout.new len = .ok layout := by
  have within : ¬ maxPlaintextSize < len := not_lt.mpr small
  rw [Nip44.PayloadLayout.new, if_neg (Nat.pos_iff_ne_zero.mp positive), if_neg within]
  exact ⟨_, rfl⟩

/-- What the padding and the layout of a plaintext of any length are. -/
theorem calcPadding_bounds {len : Nat} (positive : 0 < len) (small : len ≤ u32Max) :
    ∃ padding, calcPadding len = some padding ∧ len ≤ padding ∧ 32 ≤ padding ∧ padding < 2 * len + 32 ∧
      (∀ longer, len ≤ longer → longer ≤ u32Max →
        ∃ more, calcPadding longer = some more ∧ padding ≤ more) ∧
      ∃ layout greatest, (PayloadLayout.new len).run = some (.ok layout) ∧
        maxPayloadSize = some greatest ∧ layout.payloadLen ≤ greatest := by
  have bits {number : Nat} (within : number ≤ u32Max) : number < 2 ^ 32 := lt_of_le_of_lt within (by decide)
  obtain ⟨layout, created⟩ := exists_layout positive small
  refine ⟨_, calcPadding_eq (bits small), le_calcPadding len, least_le_calcPadding len, calcPadding_lt positive,
    fun longer order within => ⟨_, calcPadding_eq (bits within), calcPadding_mono order⟩,
    layout, _, ?_, maxPayloadSize_eq, Nip44.PayloadLayout.payloadLen_le created⟩
  rw [PayloadLayout.new_eq, created]
  rfl

/-- A byte more than the least chunk. -/
theorem calcPadding_bounds_33 :
    ∃ padding, calcPadding 33 = some padding ∧ 33 ≤ padding ∧ 32 ≤ padding ∧ padding < 2 * 33 + 32 ∧
      (∀ longer, 33 ≤ longer → longer ≤ u32Max →
        ∃ more, calcPadding longer = some more ∧ padding ≤ more) ∧
      ∃ layout greatest, (PayloadLayout.new 33).run = some (.ok layout) ∧
        maxPayloadSize = some greatest ∧ layout.payloadLen ≤ greatest :=
  calcPadding_bounds (by decide) (by decide)

end Checked

end RustNostr.Nip44
