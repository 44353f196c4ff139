import Mathlib

/-! Numbers written in digits of so many bits each, the highest digit first. Their value and
the number of their leading zero bits do not depend on how the bits are grouped. -/

set_option autoImplicit false

namespace RustNostr.Library.DigitString

/-- Every digit has at most so many bits. -/
def Fits (width : Nat) (digits : List Nat) : Prop := ∀ digit ∈ digits, digit < 2 ^ width

def value (width : Nat) (digits : List Nat) : Nat := Nat.ofDigits (2 ^ width) digits.reverse

def leadingZeros (width : Nat) : List Nat → Nat
  | [] => 0
  | digit :: rest => if digit = 0 then width + leadingZeros width rest else width - Nat.size digit

section Value

variable {width count : Nat} {digits left right : List Nat}

theorem Fits.of_cons {digit : Nat} (fits : Fits width (digit :: digits)) :
    digit < 2 ^ width ∧ Fits width digits :=
  List.forall_mem_cons.mp fits

theorem Fits.take (fits : Fits width digits) : Fits width (digits.take count) :=
  fun digit member => fits digit (List.mem_of_mem_take member)

theorem value_append :
    value width (left ++ right) = value width left * 2 ^ (width * right.length) + value width right := by
  rw [value, value, value, List.reverse_append, Nat.ofDigits_append, List.length_reverse, Nat.pow_mul,
    Nat.add_comm, Nat.mul_comm]

theorem value_singleton (digit : Nat) : value width [digit] = digit := Nat.ofDigits_singleton

theorem value_cons (digit : Nat) :
    value width (digit :: digits) = digit * 2 ^ (width * digits.length) + value width digits := by
  rw [← List.singleton_append, value_append, value_singleton]

theorem value_replicate_zero : value width (List.replicate count 0) = 0 := by
  rw [value, List.reverse_replicate, Nat.ofDigits_replicate_zero]

theorem value_lt (fits : Fits width digits) : value width digits < 2 ^ (width * digits.length) := by
  induction digits with
  | nil => simp [value]
  | cons digit rest ih =>
      obtain ⟨small, others⟩ := fits.of_cons
      have bound := ih others
      have room : (digit + 1) * 2 ^ (width * rest.length) ≤ 2 ^ width * 2 ^ (width * rest.length) :=
        Nat.mul_le_mul_right _ small
      rw [value_cons, List.length_cons, Nat.mul_succ, Nat.add_comm (width * _), Nat.pow_add]
      rw [Nat.add_mul, Nat.one_mul] at room
      omega

theorem value_inj (leftFits : Fits width left) (rightFits : Fits width right)
    (same : left.length = right.length) : value width left = value width right ↔ left = right := by
  refine ⟨fun equal => ?_, fun equal => equal ▸ rfl⟩
  induction left generalizing right with
  | nil => exact (List.length_eq_zero_iff.mp same.symm).symm
  | cons digit rest ih =>
      cases right with
      | nil => simp at same
      | cons digit' rest' =>
          have sameRest : rest.length = rest'.length := by simpa using same
          have low := value_lt leftFits.of_cons.2
          have low' := value_lt rightFits.of_cons.2
          rw [value_cons, value_cons, sameRest] at equal
          rw [sameRest] at low
          have positive : 0 < 2 ^ (width * rest'.length) := Nat.two_pow_pos _
          have high : digit = digit' := by
            have divided := congrArg (· / 2 ^ (width * rest'.length)) equal
            simp only [Nat.mul_comm _ (2 ^ _), Nat.mul_add_div positive, Nat.div_eq_of_lt low,
              Nat.div_eq_of_lt low', Nat.add_zero] at divided
            exact divided
          subst high
          rw [ih leftFits.of_cons.2 rightFits.of_cons.2 sameRest (Nat.add_left_cancel equal)]

/-- The first digits give the number without its low bits. -/
theorem value_take (fits : Fits width digits) :
    value width (digits.take count) =
      value width digits / 2 ^ (width * (digits.length - count)) := by
  have whole : value width digits =
      value width (digits.take count) * 2 ^ (width * (digits.length - count)) +
        value width (digits.drop count) := by
    rw [← List.length_drop, ← value_append, List.take_append_drop]
  have low : value width (digits.drop count) < 2 ^ (width * (digits.length - count)) := by
    rw [← List.length_drop]
    exact value_lt fun digit member => fits digit (List.mem_of_mem_drop member)
  rw [whole, Nat.mul_comm (value _ _), Nat.mul_add_div (Nat.two_pow_pos _), Nat.div_eq_of_lt low,
    Nat.add_zero]

end Value

section LeadingZeros

variable {width count : Nat} {digits : List Nat}

theorem size_mul_two_pow_add {high low shift : Nat} (positive : 0 < high) (small : low < 2 ^ shift) :
    Nat.size (high * 2 ^ shift + low) = Nat.size high + shift := by
  apply le_antisymm
  · rw [Nat.size_le, Nat.pow_add]
    have below : (high + 1) * 2 ^ shift ≤ 2 ^ Nat.size high * 2 ^ shift :=
      Nat.mul_le_mul_right _ (Nat.lt_size_self high)
    rw [Nat.add_mul, Nat.one_mul] at below
    omega
  · have some : 0 < Nat.size high := Nat.size_pos.mpr positive
    have reached : 2 ^ (Nat.size high - 1) ≤ high := Nat.lt_size.mp (by omega)
    have above : 2 ^ (Nat.size high - 1) * 2 ^ shift ≤ high * 2 ^ shift := Nat.mul_le_mul_right _ reached
    rw [← Nat.pow_add] at above
    have larger : Nat.size high - 1 + shift < Nat.size (high * 2 ^ shift + low) :=
      Nat.lt_size.mpr (above.trans (Nat.le_add_right _ _))
    omega

/-- The bits of a digit string are its leading zeros and the bits of its value. -/
theorem leadingZeros_add_size (fits : Fits width digits) :
    leadingZeros width digits + Nat.size (value width digits) = width * digits.length := by
  induction digits with
  | nil => simp [leadingZeros, value]
  | cons digit rest ih =>
      obtain ⟨small, others⟩ := fits.of_cons
      rw [leadingZeros, value_cons, List.length_cons, Nat.mul_succ]
      split
      · next zero => rw [zero, Nat.zero_mul, Nat.zero_add, Nat.add_assoc, ih others, Nat.add_comm]
      · next nonzero =>
          have bits : Nat.size digit ≤ width := Nat.size_le.mpr small
          rw [size_mul_two_pow_add (Nat.pos_of_ne_zero nonzero) (value_lt others)]
          omega

theorem le_leadingZeros_iff (fits : Fits width digits) (inside : count ≤ width * digits.length) :
    count ≤ leadingZeros width digits ↔ value width digits < 2 ^ (width * digits.length - count) := by
  have whole := leadingZeros_add_size fits
  rw [← Nat.size_le]
  omega

theorem leadingZeros_replicate_append (rest : List Nat) :
    leadingZeros width (List.replicate count 0 ++ rest) = width * count + leadingZeros width rest := by
  induction count with
  | zero => simp
  | succ count ih =>
      rw [List.replicate_succ, List.cons_append, leadingZeros, if_pos rfl, ih, Nat.mul_succ]
      omega

end LeadingZeros

section Regrouping

variable {α : Type} {narrow parts : Nat} {digits : List α} {number : α → Nat} {split : α → List Nat}

theorem length_flatMap_of_parts (lengths : ∀ digit ∈ digits, (split digit).length = parts) :
    (digits.flatMap split).length = parts * digits.length := by
  induction digits with
  | nil => simp
  | cons digit rest ih =>
      have first := lengths digit List.mem_cons_self
      have others := ih fun other member => lengths other (List.mem_cons_of_mem _ member)
      rw [List.flatMap_cons, List.length_append, first, others, List.length_cons, Nat.mul_succ,
        Nat.add_comm]

/-- Each digit may be written in narrower digits. -/
theorem value_flatMap (lengths : ∀ digit ∈ digits, (split digit).length = parts)
    (values : ∀ digit ∈ digits, value narrow (split digit) = number digit) :
    value narrow (digits.flatMap split) = value (narrow * parts) (digits.map number) := by
  induction digits with
  | nil => rfl
  | cons digit rest ih =>
      have lengthsRest : ∀ other ∈ rest, (split other).length = parts :=
        fun other member => lengths other (List.mem_cons_of_mem _ member)
      have others := ih lengthsRest fun other member => values other (List.mem_cons_of_mem _ member)
      rw [List.flatMap_cons, value_append, List.map_cons, value_cons, others,
        values digit List.mem_cons_self, length_flatMap_of_parts lengthsRest, List.length_map,
        Nat.mul_assoc]

theorem leadingZeros_flatMap (lengths : ∀ digit ∈ digits, (split digit).length = parts)
    (values : ∀ digit ∈ digits, value narrow (split digit) = number digit)
    (fits : ∀ digit ∈ digits, Fits narrow (split digit)) :
    leadingZeros narrow (digits.flatMap split) = leadingZeros (narrow * parts) (digits.map number) := by
  have narrowFits : Fits narrow (digits.flatMap split) := by
    intro piece member
    obtain ⟨digit, isDigit, isPiece⟩ := List.mem_flatMap.mp member
    exact fits digit isDigit piece isPiece
  have wideFits : Fits (narrow * parts) (digits.map number) := by
    intro wide member
    obtain ⟨digit, isDigit, rfl⟩ := List.mem_map.mp member
    rw [← values digit isDigit, ← lengths digit isDigit]
    exact value_lt (fits digit isDigit)
  have narrowWhole := leadingZeros_add_size narrowFits
  have wideWhole := leadingZeros_add_size wideFits
  rw [value_flatMap lengths values, length_flatMap_of_parts lengths, ← Nat.mul_assoc] at narrowWhole
  rw [List.length_map] at wideWhole
  omega

end Regrouping

end RustNostr.Library.DigitString
