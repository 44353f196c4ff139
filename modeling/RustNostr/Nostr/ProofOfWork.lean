import Mathlib
import RustNostr.Library.Checked
import RustNostr.Library.DigitString
import RustNostr.Nostr.EventJson

/-!
# Proof of work (NIP-13)

The leading zero bits of a hash, counted in a `u8`, and the texts that an ID of a given
difficulty begins with (`nostr/src/nips/nip13/mod.rs`).
-/

set_option autoImplicit false

namespace RustNostr.Nip13

open Library Library.Checked

/-- The loop of `get_leading_zero_bits`, where `none` is an overflow: a zero byte is added
with saturation, the bits of the first other byte are not. -/
def leadingZeroBitsLoop : Nat → Bytes → Option Nat
  | res, [] => some res
  | res, byte :: rest =>
      if byte = 0 then leadingZeroBitsLoop (min 255 (res + 8)) rest
      else atMost 255 (res + EventId.leadingZeros byte)

def getLeadingZeroBits (bytes : Bytes) : Option Nat := leadingZeroBitsLoop 0 bytes

/-- `EventId::check_pow` -/
def checkPow (id : EventId) (difficulty : UInt8) : Option Bool := do
  let bits ← getLeadingZeroBits id.val
  return difficulty.toNat ≤ bits

/-- `format!("{:01$x}", number, width)` -/
def paddedHex (width number : Nat) : String :=
  String.ofList (List.leftpad width '0' (Nat.toDigits 16 number))

/-- None of the sums and products leaves its type. -/
def getPrefixesForDifficulty (leadingZeroBits : UInt8) : List String :=
  if leadingZeroBits = 0 then []
  else
    let bits := leadingZeroBits.toNat
    let hexLen := if bits % 4 = 0 then bits / 4 else bits / 4 + 1
    (List.range (2 ^ (hexLen * 4 - bits))).map (paddedHex hexLen)

/-! ## The count -/

/-- The bits of a byte, the highest first. -/
def bitsOf (byte : UInt8) : List Bool := (List.range 8).map fun place => byte.toNat.testBit (7 - place)

/-- How many of the bits stand before the first that is set. -/
def zeroBits (bytes : Bytes) : Nat := ((bytes.flatMap bitsOf).takeWhile fun bit => !bit).length

theorem leadingZeros_bits (bits : List Bool) :
    DigitString.leadingZeros 1 (bits.map Bool.toNat) = (bits.takeWhile fun bit => !bit).length := by
  induction bits with
  | nil => rfl
  | cons bit rest ih =>
      cases bit with
      | false => simp [DigitString.leadingZeros, ih, Nat.add_comm]
      | true => simp [DigitString.leadingZeros]

theorem bitsOf_value (byte : UInt8) : DigitString.value 1 ((bitsOf byte).map Bool.toNat) = byte.toNat := by
  have each : ∀ number < 256,
      DigitString.value 1 ((bitsOf (UInt8.ofNat number)).map Bool.toNat) = number := by
    decide +kernel
  have small : byte.toNat < 256 := byte.toNat_lt
  simpa using each byte.toNat small

theorem zeroBits_eq (bytes : Bytes) :
    zeroBits bytes = DigitString.leadingZeros 8 (bytes.map UInt8.toNat) := by
  rw [zeroBits, ← leadingZeros_bits, List.map_flatMap]
  refine @DigitString.leadingZeros_flatMap _ 1 8 _ _ _ ?_ ?_ ?_
  · intro byte _
    simp [bitsOf]
  · exact fun byte _ => bitsOf_value byte
  · intro byte _ digit member
    obtain ⟨bit, _, rfl⟩ := List.mem_map.mp member
    exact bit.toNat_lt

theorem leadingZeroBitsLoop_replicate {res : Nat} (count : Nat) (rest : Bytes) (fits : res ≤ 255) :
    leadingZeroBitsLoop res (List.replicate count 0 ++ rest) =
      leadingZeroBitsLoop (min 255 (res + 8 * count)) rest := by
  induction count generalizing res with
  | zero => rw [List.replicate_zero, List.nil_append, Nat.mul_zero, Nat.add_zero, Nat.min_eq_right fits]
  | succ count ih =>
      have next : min 255 (min 255 (res + 8) + 8 * count) = min 255 (res + 8 * (count + 1)) := by omega
      rw [List.replicate_succ, List.cons_append, leadingZeroBitsLoop, if_pos rfl,
        ih (Nat.min_le_left _ _), next]

/-- The zero bytes that a byte string begins with. -/
def zeroBytes (bytes : Bytes) : Nat := (bytes.takeWhile (· = 0)).length

/-- The first byte that is not zero. -/
def firstByte (bytes : Bytes) : Option UInt8 := (bytes.dropWhile (· = 0)).head?

theorem zeroBytes_append (bytes : Bytes) :
    List.replicate (zeroBytes bytes) 0 ++ bytes.dropWhile (· = 0) = bytes := by
  have zeros : bytes.takeWhile (· = 0) = List.replicate (zeroBytes bytes) 0 := by
    refine List.eq_replicate_of_mem fun byte member => ?_
    simpa using List.mem_takeWhile_imp member
  rw [← zeros, List.takeWhile_append_dropWhile]

theorem firstByte_ne_zero {bytes : Bytes} {byte : UInt8} (first : firstByte bytes = some byte) :
    byte ≠ 0 := by
  have stopped := List.head?_dropWhile_not (fun byte : UInt8 => decide (byte = 0)) bytes
  rw [show (bytes.dropWhile _).head? = some byte from first] at stopped
  simpa using stopped

/-- Where 32 zero bytes or more come first, the highest bit of the first other byte is set. -/
def Countable (bytes : Bytes) : Prop :=
  32 ≤ zeroBytes bytes → ∀ byte, firstByte bytes = some byte → 128 ≤ byte.toNat

theorem getLeadingZeroBits_eq (bytes : Bytes) :
    getLeadingZeroBits bytes =
      (firstByte bytes).elim (some (min 255 (8 * zeroBytes bytes)))
        fun byte => atMost 255 (min 255 (8 * zeroBytes bytes) + EventId.leadingZeros byte) := by
  have start : getLeadingZeroBits bytes =
      leadingZeroBitsLoop (min 255 (8 * zeroBytes bytes)) (bytes.dropWhile (· = 0)) := by
    rw [getLeadingZeroBits]
    conv_lhs => rw [← zeroBytes_append bytes]
    rw [leadingZeroBitsLoop_replicate _ _ (Nat.zero_le 255), Nat.zero_add]
  rw [start, firstByte]
  cases first : bytes.dropWhile (· = 0) with
  | nil => rfl
  | cons byte rest =>
      have nonzero : byte ≠ 0 := @firstByte_ne_zero bytes byte (by rw [firstByte, first]; rfl)
      rw [leadingZeroBitsLoop, if_neg nonzero]
      rfl

theorem zeroBits_split (bytes : Bytes) :
    zeroBits bytes = 8 * zeroBytes bytes + (firstByte bytes).elim 0 EventId.leadingZeros := by
  have whole : bytes.map UInt8.toNat =
      List.replicate (zeroBytes bytes) 0 ++ (bytes.dropWhile (· = 0)).map UInt8.toNat := by
    conv_lhs => rw [← zeroBytes_append bytes]
    rw [List.map_append, List.map_replicate]
    rfl
  rw [zeroBits_eq, whole, DigitString.leadingZeros_replicate_append, firstByte]
  cases first : bytes.dropWhile (· = 0) with
  | nil => rfl
  | cons byte rest =>
      have nonzero : byte ≠ 0 := @firstByte_ne_zero bytes byte (by rw [firstByte, first]; rfl)
      have number : byte.toNat ≠ 0 := fun zero => nonzero (UInt8.toNat.inj zero)
      rw [List.map_cons, DigitString.leadingZeros, if_neg number]
      rfl

/-- The highest bit of a byte is set or adds nothing to the count. -/
theorem leadingZeros_eq_zero_iff (byte : UInt8) : EventId.leadingZeros byte = 0 ↔ 128 ≤ byte.toNat := by
  rw [EventId.leadingZeros, Nat.sub_eq_zero_iff_le]
  exact @Nat.lt_size 7 byte.toNat

theorem leadingZeros_le_seven {byte : UInt8} (nonzero : byte ≠ 0) : EventId.leadingZeros byte ≤ 7 := by
  have number : 0 < byte.toNat := Nat.pos_of_ne_zero fun zero => nonzero (UInt8.toNat.inj zero)
  have some : 0 < Nat.size byte.toNat := Nat.size_pos.mpr number
  rw [EventId.leadingZeros]
  omega

theorem getLeadingZeroBits_iff (bytes : Bytes) :
    getLeadingZeroBits bytes = some (min 255 (zeroBits bytes)) ↔ Countable bytes := by
  rw [getLeadingZeroBits_eq, zeroBits_split, Countable]
  cases first : firstByte bytes with
  | none => simp
  | some byte =>
      have few := leadingZeros_le_seven (firstByte_ne_zero first)
      have high := leadingZeros_eq_zero_iff byte
      simp only [Option.elim_some, Option.some.injEq, forall_eq', atMost, ite_eq_iff, reduceCtorEq,
        and_false, or_false]
      omega

/-! ## The prefixes -/

/-- The values of the hexadecimal digits. -/
def nibbles (bytes : Bytes) : List Nat := bytes.flatMap fun byte => [byte.toNat / 16, byte.toNat % 16]

theorem lowercaseHex_toList (bytes : Bytes) :
    (Json.lowercaseHex bytes).toList = (nibbles bytes).map Json.hexDigit := by
  rw [Json.lowercaseHex, String.toList_ofList, nibbles, List.map_flatMap]
  rfl

theorem nibbles_fits (bytes : Bytes) : DigitString.Fits 4 (nibbles bytes) := by
  intro digit member
  obtain ⟨byte, _, isDigit⟩ := List.mem_flatMap.mp member
  have small := byte.toNat_lt
  simp only [List.mem_cons, List.not_mem_nil, or_false] at isDigit
  omega

theorem nibbles_length (bytes : Bytes) : (nibbles bytes).length = 2 * bytes.length :=
  DigitString.length_flatMap_of_parts fun _ _ => rfl

theorem zeroBits_nibbles (bytes : Bytes) : zeroBits bytes = DigitString.leadingZeros 4 (nibbles bytes) := by
  rw [zeroBits_eq]
  refine (@DigitString.leadingZeros_flatMap _ 4 2 _ _ _ (fun _ _ => rfl) ?_ ?_).symm
  · intro byte _
    rw [DigitString.value_cons, DigitString.value_singleton]
    simp only [List.length_singleton]
    omega
  · intro byte member digit isDigit
    exact nibbles_fits [byte] digit (by simpa [nibbles] using isDigit)

theorem digitChar_eq : ∀ digit < 16, Nat.digitChar digit = Json.hexDigit digit := by decide

theorem hexDigit_inj : ∀ left < 16, ∀ right < 16, Json.hexDigit left = Json.hexDigit right → left = right := by
  decide

/-- A number below 16 takes one digit; the others are zeros. -/
theorem paddedHex_toList {width number : Nat} (small : number < 16) :
    (paddedHex (width + 1) number).toList =
      (List.replicate width 0 ++ [number]).map Json.hexDigit := by
  rw [paddedHex, String.toList_ofList, Nat.toDigits_of_lt_base small, List.leftpad, List.map_append,
    List.map_replicate, digitChar_eq number small]
  rfl

theorem map_hexDigit_inj {left right : List Nat} (leftFits : DigitString.Fits 4 left)
    (rightFits : DigitString.Fits 4 right) :
    left.map Json.hexDigit = right.map Json.hexDigit ↔ left = right := by
  refine ⟨fun same => ?_, fun same => same ▸ rfl⟩
  induction left generalizing right with
  | nil => exact (List.map_eq_nil_iff.mp same.symm).symm
  | cons digit rest ih =>
      cases right with
      | nil => cases same
      | cons digit' rest' =>
          rw [List.map_cons, List.map_cons, List.cons.injEq] at same
          rw [hexDigit_inj digit leftFits.of_cons.1 digit' rightFits.of_cons.1 same.1,
            ih leftFits.of_cons.2 rightFits.of_cons.2 same.2]

/-- The number of the first digits decides which padded number a text begins with. -/
theorem paddedHex_isPrefixOf {width number : Nat} {digits : List Nat} (small : number < 16)
    (fits : DigitString.Fits 4 digits) (long : width + 1 ≤ digits.length) :
    (paddedHex (width + 1) number).toList.isPrefixOf (digits.map Json.hexDigit) = true ↔
      DigitString.value 4 (digits.take (width + 1)) = number := by
  have length : (List.replicate width 0 ++ [number]).length = width + 1 := by simp
  have padFits : DigitString.Fits 4 (List.replicate width 0 ++ [number]) := by
    intro digit member
    cases List.mem_append.mp member with
    | inl zero =>
        rw [List.eq_of_mem_replicate zero]
        exact Nat.two_pow_pos 4
    | inr last => exact List.mem_singleton.mp last ▸ small
  have padValue : DigitString.value 4 (List.replicate width 0 ++ [number]) = number := by
    rw [DigitString.value_append, DigitString.value_replicate_zero, DigitString.value_singleton,
      Nat.zero_mul, Nat.zero_add]
  have sameLength : (digits.take (width + 1)).length = (List.replicate width 0 ++ [number]).length := by
    rw [length, List.length_take, Nat.min_eq_left long]
  rw [List.isPrefixOf_iff_prefix, paddedHex_toList small, List.prefix_iff_eq_take, List.length_map,
    length, ← List.map_take, map_hexDigit_inj padFits fits.take, eq_comm,
    ← DigitString.value_inj fits.take padFits sameLength, padValue]

/-- How many digits the prefixes have. -/
def prefixLength (difficulty : Nat) : Nat := (difficulty - 1) / 4 + 1

theorem getPrefixesForDifficulty_eq {difficulty : UInt8} (positive : difficulty ≠ 0) :
    getPrefixesForDifficulty difficulty =
      (List.range (2 ^ (prefixLength difficulty.toNat * 4 - difficulty.toNat))).map
        (paddedHex (prefixLength difficulty.toNat)) := by
  have number : difficulty.toNat ≠ 0 := fun zero => positive (UInt8.toNat.inj zero)
  have length : (if difficulty.toNat % 4 = 0 then difficulty.toNat / 4 else difficulty.toNat / 4 + 1) =
      prefixLength difficulty.toNat := by
    unfold prefixLength
    split <;> omega
  simp only [getPrefixesForDifficulty, if_neg positive, length]

/-- The bits that a prefix stands for are zero where the number of the first digits is small. -/
theorem value_take_lt_iff {difficulty : Nat} (positive : 0 < difficulty) (small : difficulty < 256)
    (id : EventId) :
    DigitString.value 4 ((nibbles id.val).take (prefixLength difficulty)) <
        2 ^ (prefixLength difficulty * 4 - difficulty) ↔ difficulty ≤ zeroBits id.val := by
  have length : (nibbles id.val).length = 64 := by rw [nibbles_length, id.property]
  have exponents : prefixLength difficulty * 4 - difficulty + 4 * (64 - prefixLength difficulty) =
      4 * 64 - difficulty := by
    unfold prefixLength
    omega
  rw [DigitString.value_take (nibbles_fits _), length, Nat.div_lt_iff_lt_mul (Nat.two_pow_pos _),
    ← Nat.pow_add, exponents, zeroBits_nibbles,
    DigitString.le_leadingZeros_iff (nibbles_fits _) (by rw [length]; omega), length]

/-- Exactly one prefix fits where the bits that it stands for are zero, and else none. -/
theorem countP_prefixes {difficulty : UInt8} (positive : difficulty ≠ 0) (id : EventId) :
    (getPrefixesForDifficulty difficulty).countP
        (fun text => text.toList.isPrefixOf (Json.lowercaseHex id.val).toList) =
      if difficulty.toNat ≤ zeroBits id.val then 1 else 0 := by
  have number : 0 < difficulty.toNat := Nat.pos_of_ne_zero fun zero => positive (UInt8.toNat.inj zero)
  have small : difficulty.toNat < 256 := difficulty.toNat_lt
  have few : 2 ^ (prefixLength difficulty.toNat * 4 - difficulty.toNat) ≤ 2 ^ 3 := by
    apply Nat.pow_le_pow_right (by decide)
    unfold prefixLength
    omega
  have long : prefixLength difficulty.toNat ≤ (nibbles id.val).length := by
    rw [nibbles_length, id.property, prefixLength]
    omega
  have each : ∀ i ∈ List.range (2 ^ (prefixLength difficulty.toNat * 4 - difficulty.toNat)),
      (paddedHex (prefixLength difficulty.toNat) i).toList.isPrefixOf
          ((nibbles id.val).map Json.hexDigit) = true ↔
        (i == DigitString.value 4 ((nibbles id.val).take (prefixLength difficulty.toNat))) = true := by
    intro i member
    have below := List.mem_range.mp member
    have digit : i < 16 := by omega
    exact (paddedHex_isPrefixOf digit (nibbles_fits _) long).trans (eq_comm.trans beq_iff_eq.symm)
  rw [getPrefixesForDifficulty_eq positive, List.countP_map, lowercaseHex_toList]
  refine (List.countP_congr each).trans (List.count_range.trans ?_)
  simp only [value_take_lt_iff number small id]

theorem countable_id (id : EventId) : Countable id.val := by
  intro many byte first
  have whole := congrArg List.length (zeroBytes_append id.val)
  rw [List.length_append, List.length_replicate, id.property] at whole
  have none : id.val.dropWhile (· = 0) = [] := List.length_eq_zero_iff.mp (by omega)
  rw [firstByte, none] at first
  cases first

theorem checkPow_iff (id : EventId) (difficulty : UInt8) :
    checkPow id difficulty = some true ↔ difficulty.toNat ≤ zeroBits id.val := by
  have small := difficulty.toNat_lt
  rw [checkPow, (getLeadingZeroBits_iff id.val).mpr (countable_id id)]
  simp only [Option.bind_eq_bind, Option.bind_some, Option.pure_def, Option.some.injEq, decide_eq_true_eq]
  omega

/-- For an ID, the count and the check are those of the rest of the model. -/
theorem leadingZeroBits_eq (bytes : Bytes) : EventId.leadingZeroBits bytes = min 255 (zeroBits bytes) := by
  rw [zeroBits_eq]
  induction bytes with
  | nil => rfl
  | cons byte rest ih =>
      rw [EventId.leadingZeroBits, List.map_cons, DigitString.leadingZeros]
      by_cases zero : byte = 0
      · have number : byte.toNat = 0 := by rw [zero]; rfl
        rw [if_pos zero, if_pos number, ih]
        omega
      · have number : byte.toNat ≠ 0 := fun same => zero (UInt8.toNat.inj same)
        rw [if_neg zero, if_neg number, EventId.leadingZeros]

theorem checkPow_eq (id : EventId) (difficulty : UInt8) :
    checkPow id difficulty = some (id.checkPow difficulty.toNat) := by
  rw [checkPow, (getLeadingZeroBits_iff id.val).mpr (countable_id id), EventId.checkPow,
    leadingZeroBits_eq]
  rfl

/-- The count is right exactly where it does not overflow, which is never for an ID; and an
ID has a difficulty exactly if it begins with one of its prefixes. -/
theorem difficulty_laws (bytes : Bytes) (id : EventId) {difficulty : UInt8} (positive : difficulty ≠ 0) :
    (getLeadingZeroBits bytes = some (min 255 (zeroBits bytes)) ↔ Countable bytes) ∧
      (checkPow id difficulty = some true ↔
        (getPrefixesForDifficulty difficulty).countP
          (fun text => text.toList.isPrefixOf (Json.lowercaseHex id.val).toList) = 1) := by
  refine ⟨getLeadingZeroBits_iff bytes, ?_⟩
  rw [checkPow_iff, countP_prefixes positive]
  by_cases reached : difficulty.toNat ≤ zeroBits id.val
  · rw [if_pos reached]
    exact iff_of_true reached rfl
  · rw [if_neg reached]
    exact iff_of_false reached Nat.zero_ne_one

theorem difficulty_laws_five :
    (5 : UInt8) ≠ 0 ∧ (getLeadingZeroBits [0, 5] = some (min 255 (zeroBits [0, 5])) ↔ Countable [0, 5]) ∧
      (checkPow (.replicate 32 0) 5 = some true ↔
        (getPrefixesForDifficulty 5).countP
          (fun text => text.toList.isPrefixOf (Json.lowercaseHex (FixedBytes.replicate 32 0).val).toList) =
            1) :=
  ⟨by decide, difficulty_laws [0, 5] (.replicate 32 0) (by decide)⟩

/-- Thirty-two zero bytes have brought the count to 255 already. -/
theorem getLeadingZeroBits_overflow :
    getLeadingZeroBits (List.replicate 32 0 ++ [1]) = none ∧
      min 255 (zeroBits (List.replicate 32 0 ++ [1])) = 255 := by
  decide +kernel

end RustNostr.Nip13
