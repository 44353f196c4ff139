import Mathlib
import RustNostr.Library.ByteString

/-!
# Arithmetic that may overflow

Operations on machine numbers and on arrays of a fixed size, where `none` is a panic:
a result outside the type, a division by zero, an index outside the array.
-/

set_option autoImplicit false

namespace RustNostr.Library.Checked

/-- A sum or a product that must not pass the greatest number. -/
def atMost (greatest result : Nat) : Option Nat := if result ≤ greatest then some result else none

def minus (left right : Nat) : Option Nat := if right ≤ left then some (left - right) else none

def quotient (left right : Nat) : Option Nat := if right = 0 then none else some (left / right)

/-- `1 << exponent`, in so many bits. -/
def shiftOne (bits exponent : Nat) : Option Nat := if exponent < bits then some (2 ^ exponent) else none

/-- `bytes[start..stop]` -/
def slice (bytes : Bytes) (start stop : Nat) : Option Bytes :=
  if start ≤ stop ∧ stop ≤ bytes.length then some ((bytes.drop start).take (stop - start)) else none

/-- `bytes[start..stop].copy_from_slice(part)` -/
def copyFromSlice (bytes : Bytes) (start stop : Nat) (part : Bytes) : Option Bytes :=
  if start ≤ stop ∧ stop ≤ bytes.length ∧ part.length = stop - start then
    some (bytes.take start ++ part ++ bytes.drop stop)
  else none

/-- `bytes.copy_within(start..stop, dest)` -/
def copyWithin (bytes : Bytes) (start stop dest : Nat) : Option Bytes :=
  if start ≤ stop ∧ stop ≤ bytes.length ∧ dest ≤ bytes.length - (stop - start) then
    some (bytes.take dest ++ (bytes.drop start).take (stop - start) ++ bytes.drop (dest + (stop - start)))
  else none

/-- A slice as an array of a fixed size. -/
def exactly (length : Nat) (bytes : Bytes) : Option Bytes :=
  if bytes.length = length then some bytes else none

section Fitting

variable {left right greatest bits exponent start stop dest : Nat} {bytes part : Bytes}

theorem atMost_of_le (fits : left ≤ greatest) : atMost greatest left = some left := if_pos fits

theorem atMost_eq_some {result : Nat} : atMost greatest left = some result ↔ left ≤ greatest ∧ left = result := by
  simp [atMost]

theorem minus_of_le (fits : right ≤ left) : minus left right = some (left - right) := if_pos fits

theorem quotient_of_pos (positive : 0 < right) : quotient left right = some (left / right) :=
  if_neg (Nat.pos_iff_ne_zero.mp positive)

theorem shiftOne_of_lt (fits : exponent < bits) : shiftOne bits exponent = some (2 ^ exponent) :=
  if_pos fits

theorem slice_of_le (order : start ≤ stop) (inside : stop ≤ bytes.length) :
    slice bytes start stop = some ((bytes.drop start).take (stop - start)) := if_pos ⟨order, inside⟩

theorem copyFromSlice_of_le (order : start ≤ stop) (inside : stop ≤ bytes.length)
    (same : part.length = stop - start) :
    copyFromSlice bytes start stop part = some (bytes.take start ++ part ++ bytes.drop stop) :=
  if_pos ⟨order, inside, same⟩

/-- What is moved to the front and what is then kept of it. -/
theorem copyWithin_front (order : start ≤ stop) (inside : stop ≤ bytes.length) :
    ∃ moved, copyWithin bytes start stop 0 = some moved ∧
      moved.take (stop - start) = (bytes.drop start).take (stop - start) := by
  refine ⟨_, if_pos ⟨order, inside, Nat.zero_le _⟩, ?_⟩
  have length : ((bytes.drop start).take (stop - start)).length = stop - start := by
    rw [List.length_take, List.length_drop]
    omega
  rw [List.take_zero, List.nil_append, List.take_left' length]

theorem exactly_of_length (same : bytes.length = left) : exactly left bytes = some bytes := if_pos same

end Fitting

end RustNostr.Library.Checked
