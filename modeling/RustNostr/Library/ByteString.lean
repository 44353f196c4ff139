import Mathlib

/-! Byte strings under the lexicographic order, fixed-length fields inside
them, and big-endian numbers, whose byte order is the numeric order. -/

set_option autoImplicit false

namespace RustNostr.Library

instance linearOrderUInt8 : LinearOrder UInt8 where
  le_refl := UInt8.le_refl
  le_trans _ _ _ := UInt8.le_trans
  le_antisymm _ _ := UInt8.le_antisymm
  le_total := UInt8.le_total
  lt_iff_le_not_ge left right := by
    simp only [UInt8.lt_iff_toNat_lt, UInt8.le_iff_toNat_le]
    omega
  toDecidableLE := inferInstance
  toDecidableLT := inferInstance
  toDecidableEq := inferInstance

instance linearOrderUInt16 : LinearOrder UInt16 where
  le_refl := UInt16.le_refl
  le_trans _ _ _ := UInt16.le_trans
  le_antisymm _ _ := UInt16.le_antisymm
  le_total := UInt16.le_total
  lt_iff_le_not_ge left right := by
    simp only [UInt16.lt_iff_toNat_lt, UInt16.le_iff_toNat_le]
    omega
  toDecidableLE := inferInstance
  toDecidableLT := inferInstance
  toDecidableEq := inferInstance

instance linearOrderUInt64 : LinearOrder UInt64 where
  le_refl := UInt64.le_refl
  le_trans _ _ _ := UInt64.le_trans
  le_antisymm _ _ := UInt64.le_antisymm
  le_total := UInt64.le_total
  lt_iff_le_not_ge left right := by
    simp only [UInt64.lt_iff_toNat_lt, UInt64.le_iff_toNat_le]
    omega
  toDecidableLE := inferInstance
  toDecidableLT := inferInstance
  toDecidableEq := inferInstance

abbrev Bytes := List UInt8

/-- A byte array of a fixed length. -/
abbrev FixedBytes (length : Nat) := { bytes : Bytes // bytes.length = length }

namespace FixedBytes

def replicate (length : Nat) (byte : UInt8) : FixedBytes length :=
  ⟨List.replicate length byte, List.length_replicate⟩

theorem bytes_inj {length : Nat} {left right : FixedBytes length} :
    left.val = right.val ↔ left = right := Subtype.ext_iff.symm

theorem replicate_zero_le {length : Nat} (bytes : FixedBytes length) :
    replicate length 0 ≤ bytes := by
  obtain ⟨bytes, rfl⟩ := bytes
  change List.replicate bytes.length 0 ≤ bytes
  induction bytes with
  | nil => exact le_refl _
  | cons head rest ih =>
      rw [List.length_cons, List.replicate_succ, ← not_lt, List.cons_lt_cons_iff]
      rintro (less | ⟨_, less⟩)
      · exact absurd less (by simp [UInt8.lt_iff_toNat_lt])
      · exact absurd less (not_lt.mpr ih)

theorem le_replicate_max {length : Nat} (bytes : FixedBytes length) :
    bytes ≤ replicate length 255 := by
  obtain ⟨bytes, rfl⟩ := bytes
  change bytes ≤ List.replicate bytes.length 255
  induction bytes with
  | nil => exact le_refl _
  | cons head rest ih =>
      rw [List.length_cons, List.replicate_succ, ← not_lt, List.cons_lt_cons_iff]
      rintro (less | ⟨_, less⟩)
      · have bound := head.toNat_lt
        simp only [UInt8.lt_iff_toNat_lt, UInt8.reduceToNat] at less
        omega
      · exact absurd less (not_lt.mpr ih)

end FixedBytes

/-- Keys made of a field of one length followed by a suffix compare field
first. -/
theorem append_lt_append_iff {left right leftTail rightTail : Bytes}
    (same : left.length = right.length) :
    left ++ leftTail < right ++ rightTail ↔
      left < right ∨ left = right ∧ leftTail < rightTail := by
  induction left generalizing right with
  | nil =>
      obtain rfl : right = [] := List.eq_nil_of_length_eq_zero same.symm
      simp
  | cons head rest ih =>
      cases right with
      | nil => simp at same
      | cons head' rest' =>
          simp only [List.cons_append, List.cons_lt_cons_iff,
            ih (Nat.succ.inj same), List.cons.injEq]
          tauto

theorem append_eq_append_iff {left right leftTail rightTail : Bytes}
    (same : left.length = right.length) :
    left ++ leftTail = right ++ rightTail ↔ left = right ∧ leftTail = rightTail := by
  constructor
  · intro equal
    exact List.append_inj equal same
  · rintro ⟨rfl, rfl⟩
    rfl

theorem append_le_append_iff {left right leftTail rightTail : Bytes}
    (same : left.length = right.length) :
    left ++ leftTail ≤ right ++ rightTail ↔
      left < right ∨ left = right ∧ leftTail ≤ rightTail := by
  rw [← not_lt, append_lt_append_iff same.symm, ← not_lt (a := rightTail) (b := leftTail)]
  constructor
  · intro notLess
    rcases lt_trichotomy left right with less | equal | greater
    · exact .inl less
    · exact .inr ⟨equal, fun less => notLess (.inr ⟨equal.symm, less⟩)⟩
    · exact absurd (.inl greater) notLess
  · rintro (less | ⟨equal, notLess⟩) (less' | ⟨_, less'⟩)
    · exact absurd less (not_lt.mpr less'.le)
    · simp_all
    · exact absurd less' (by simp [equal])
    · exact notLess less'

/-- The last `length` bytes of a number, most significant first. -/
def bigEndian : Nat → Nat → Bytes
  | 0, _ => []
  | length + 1, number => UInt8.ofNat (number / 256 ^ length) :: bigEndian length number

@[simp] theorem bigEndian_length (length number : Nat) :
    (bigEndian length number).length = length := by
  induction length with
  | zero => rfl
  | succ length ih => simp [bigEndian, ih]

theorem bigEndian_mod (length number : Nat) {bound : Nat} (fits : length ≤ bound) :
    bigEndian length (number % 256 ^ bound) = bigEndian length number := by
  induction length with
  | zero => rfl
  | succ length ih =>
      have split : 256 ^ bound = 256 ^ length * (256 * 256 ^ (bound - length - 1)) := by
        rw [← Nat.pow_succ', ← Nat.pow_add]
        congr 1
        omega
      have quotient : number % 256 ^ bound / 256 ^ length % 256 =
          number / 256 ^ length % 256 := by
        rw [split, Nat.mod_mul_right_div_self, Nat.mod_mul_right_mod]
      simp only [bigEndian, ih (by omega), List.cons.injEq, and_true]
      rw [← UInt8.toNat_inj, UInt8.toNat_ofNat', UInt8.toNat_ofNat']
      exact quotient

/-- Big-endian bytes of numbers that fit order like the numbers. -/
def ofBigEndian (bytes : Bytes) : Nat := bytes.foldl (fun total byte => total * 256 + byte.toNat) 0

theorem ofBigEndian_bigEndian {length number : Nat} (fits : number < 256 ^ length) :
    ofBigEndian (bigEndian length number) = number := by
  have general : ∀ (length total : Nat),
      (bigEndian length number).foldl (fun total byte => total * 256 + byte.toNat) total =
        total * 256 ^ length + number % 256 ^ length := by
    intro length
    induction length with
    | zero => simp [bigEndian, Nat.mod_one]
    | succ length ih =>
        intro total
        have digits : number % 256 ^ (length + 1) =
            number / 256 ^ length % 256 * 256 ^ length + number % 256 ^ length := by
          rw [Nat.pow_succ, Nat.mod_mul, Nat.mul_comm (256 ^ length), Nat.add_comm]
        rw [bigEndian, List.foldl_cons, ih, digits, UInt8.toNat_ofNat', Nat.pow_succ]
        ring
  rw [ofBigEndian, general, Nat.zero_mul, Nat.zero_add, Nat.mod_eq_of_lt fits]

theorem ofBigEndian_cons (byte : UInt8) (bytes : Bytes) :
    ofBigEndian (byte :: bytes) = byte.toNat * 256 ^ bytes.length + ofBigEndian bytes := by
  have general : ∀ total, bytes.foldl (fun total byte => total * 256 + byte.toNat) total =
      total * 256 ^ bytes.length + ofBigEndian bytes := by
    induction bytes with
    | nil => intro total; simp [ofBigEndian]
    | cons first rest ih =>
        intro total
        rw [ofBigEndian, List.foldl_cons, List.foldl_cons, ih, ih (0 * 256 + first.toNat),
          List.length_cons, Nat.pow_succ]
        ring
  rw [ofBigEndian, List.foldl_cons, general, Nat.zero_mul, Nat.zero_add]

theorem ofBigEndian_lt (bytes : Bytes) : ofBigEndian bytes < 256 ^ bytes.length := by
  induction bytes with
  | nil => decide
  | cons byte bytes ih =>
      have digit : byte.toNat + 1 ≤ 256 := byte.toNat_lt
      have scaled := Nat.mul_le_mul_right (256 ^ bytes.length) digit
      rw [ofBigEndian_cons, List.length_cons, Nat.pow_succ]
      rw [Nat.add_mul, Nat.one_mul] at scaled
      omega

theorem bigEndian_ofBigEndian (bytes : Bytes) : bigEndian bytes.length (ofBigEndian bytes) = bytes := by
  induction bytes with
  | nil => rfl
  | cons byte bytes ih =>
      have rest := ofBigEndian_lt bytes
      have positive : 0 < 256 ^ bytes.length := Nat.pow_pos (by decide)
      have first : (byte.toNat * 256 ^ bytes.length + ofBigEndian bytes) / 256 ^ bytes.length =
          byte.toNat := by
        rw [Nat.mul_comm, Nat.mul_add_div positive, Nat.div_eq_of_lt rest, Nat.add_zero]
      have others : (byte.toNat * 256 ^ bytes.length + ofBigEndian bytes) % 256 ^ bytes.length =
          ofBigEndian bytes := by
        rw [Nat.mul_comm, Nat.mul_add_mod, Nat.mod_eq_of_lt rest]
      rw [ofBigEndian_cons, List.length_cons, bigEndian, first, UInt8.ofNat_toNat,
        ← bigEndian_mod bytes.length _ le_rfl, others, ih]

theorem bigEndian_lt_iff {length left right : Nat} (leftFits : left < 256 ^ length)
    (rightFits : right < 256 ^ length) :
    bigEndian length left < bigEndian length right ↔ left < right := by
  induction length generalizing left right with
  | zero =>
      simp only [Nat.pow_zero, Nat.lt_one_iff] at leftFits rightFits
      simp [bigEndian, leftFits, rightFits]
  | succ length ih =>
      have positive : 0 < 256 ^ length := Nat.pow_pos (by decide)
      have leftHead : left / 256 ^ length < 256 := by
        rw [Nat.div_lt_iff_lt_mul positive, ← Nat.pow_succ']
        exact leftFits
      have rightHead : right / 256 ^ length < 256 := by
        rw [Nat.div_lt_iff_lt_mul positive, ← Nat.pow_succ']
        exact rightFits
      rw [bigEndian, bigEndian, List.cons_lt_cons_iff,
        ← bigEndian_mod length left le_rfl, ← bigEndian_mod length right le_rfl,
        ih (Nat.mod_lt _ positive) (Nat.mod_lt _ positive), UInt8.lt_iff_toNat_lt,
        ← UInt8.toNat_inj, UInt8.toNat_ofNat', UInt8.toNat_ofNat',
        Nat.mod_eq_of_lt leftHead, Nat.mod_eq_of_lt rightHead]
      have leftSplit := Nat.div_add_mod left (256 ^ length)
      have rightSplit := Nat.div_add_mod right (256 ^ length)
      have leftRest := Nat.mod_lt left positive
      have rightRest := Nat.mod_lt right positive
      constructor
      · rintro (less | ⟨equal, less⟩)
        · have step := Nat.mul_le_mul_left (256 ^ length) (Nat.succ_le_of_lt less)
          rw [Nat.mul_succ] at step
          omega
        · rw [equal] at leftSplit
          omega
      · intro less
        rcases Nat.lt_trichotomy (left / 256 ^ length) (right / 256 ^ length) with
          smaller | equal | greater
        · exact .inl smaller
        · rw [equal] at leftSplit
          exact .inr ⟨equal, by omega⟩
        · have step := Nat.mul_le_mul_left (256 ^ length) (Nat.succ_le_of_lt greater)
          rw [Nat.mul_succ] at step
          omega

theorem bigEndian_inj {length left right : Nat} (leftFits : left < 256 ^ length)
    (rightFits : right < 256 ^ length) :
    bigEndian length left = bigEndian length right ↔ left = right := by
  constructor
  · intro equal
    have notLess := (bigEndian_lt_iff leftFits rightFits).not.mp (by simp [equal])
    have notGreater := (bigEndian_lt_iff rightFits leftFits).not.mp (by simp [equal])
    omega
  · rintro rfl
    rfl

end RustNostr.Library
