import Mathlib

/-!
# Windows over a cycle

A cursor into a cycle moves on by the size of the window each time. The cursor is a
machine word, so it starts again at zero behind its greatest value, and it does not look
at the length of the cycle then. When have the windows shown every place?
-/

set_option autoImplicit false

namespace RustNostr.Library

/-- How many windows it takes to show every place once. -/
def roundsFor (length size : Nat) : Nat := (length + size - 1) / size

section Rounds

variable {length size : Nat}

theorem roundsFor_zero (positive : 0 < size) : roundsFor 0 size = 0 := by
  rw [roundsFor, Nat.div_eq_zero_iff]
  omega

theorem length_le_roundsFor (positive : 0 < size) : length ≤ roundsFor length size * size := by
  have division := Nat.div_add_mod (length + size - 1) size
  have remainder := Nat.mod_lt (length + size - 1) positive
  rw [roundsFor, Nat.mul_comm]
  omega

/-- No window is one too many. -/
theorem roundsFor_mul_lt (positive : 0 < size) : roundsFor length size * size < length + size := by
  have division := Nat.div_mul_le_self (length + size - 1) size
  rw [roundsFor]
  omega

end Rounds

/-- Where the cursor stands after so many windows. -/
def cursorAfter (word cursor size rounds : Nat) : Nat := (cursor + rounds * size) % word

/-- One of the windows shows the place. -/
def ShowsPlace (word length cursor size rounds place : Nat) : Prop :=
  ∃ round < rounds, ∃ offset < min length size, (cursorAfter word cursor size round + offset) % length = place

/-- The cursor does not reach the end of the word before its last window, or the word
leaves less over the cycle than the windows do. -/
def ShowsAll (word length cursor size : Nat) : Prop :=
  cursor + (roundsFor length size - 1) * size < word ∨
    word % length ≤ roundsFor length size * size - length

instance (word length cursor size : Nat) : Decidable (ShowsAll word length cursor size) :=
  inferInstanceAs (Decidable (_ ∨ _))

section Windows

variable {word length cursor size : Nat}

/-- Places are counted from the cursor. -/
theorem exists_distance (some : 0 < length) {place : Nat} (inside : place < length) :
    ∃ distance < length, (cursor + distance) % length = place := by
  refine ⟨(place + (length - cursor % length)) % length, Nat.mod_lt _ some, ?_⟩
  have start := Nat.mod_lt cursor some
  have parts := Nat.div_add_mod cursor length
  have sum : cursor + (place + (length - cursor % length)) = place + length * (cursor / length + 1) := by
    rw [Nat.mul_add, Nat.mul_one]
    omega
  rw [Nat.add_mod_mod, sum, Nat.add_mul_mod_self_left, Nat.mod_eq_of_lt inside]

/-- Within its word a cursor shows all places one after the other. -/
theorem showsPlace_of_within (positive : 0 < size) (within : cursor + (roundsFor length size - 1) * size < word)
    {place : Nat} (inside : place < length) :
    ShowsPlace word length cursor size (roundsFor length size) place := by
  obtain ⟨distance, near, same⟩ := @exists_distance length cursor (by omega) _ inside
  have before : distance / size < roundsFor length size :=
    (Nat.div_lt_iff_lt_mul positive).mpr (near.trans_le (length_le_roundsFor positive))
  have offset : distance % size < min length size :=
    lt_min ((Nat.mod_le _ _).trans_lt near) (Nat.mod_lt _ positive)
  have early : distance / size * size ≤ (roundsFor length size - 1) * size :=
    Nat.mul_le_mul_right _ (by omega)
  have stays : cursorAfter word cursor size (distance / size) = cursor + distance / size * size :=
    Nat.mod_eq_of_lt (by omega)
  refine ⟨distance / size, before, distance % size, offset, ?_⟩
  rw [stays, Nat.add_assoc, Nat.div_add_mod', same]

/-! ## The end of the word -/

theorem mod_ne_of_near {before after : Nat} (less : before < after) (near : after < before + length) :
    before % length ≠ after % length := by
  intro same
  have zero := Nat.sub_mod_eq_zero_of_mod_eq same.symm
  rw [Nat.mod_eq_of_lt (by omega)] at zero
  omega

/-- The first window behind the end of the word. -/
theorem exists_wrap (fits : cursor < word) (beyond : word ≤ cursor + (roundsFor length size - 1) * size) :
    ∃ wrap, 0 < wrap ∧ wrap < roundsFor length size ∧ word ≤ cursor + wrap * size ∧
      ∀ round < wrap, cursor + round * size < word := by
  have some : ∃ round, word ≤ cursor + round * size := ⟨_, beyond⟩
  have first : ∀ round < Nat.find some, cursor + round * size < word :=
    fun round earlier => not_le.mp (Nat.find_min some earlier)
  have positive : 0 < Nat.find some := by
    rw [Nat.pos_iff_ne_zero]
    intro zero
    have reached := Nat.find_spec some
    rw [zero, Nat.zero_mul, Nat.add_zero] at reached
    omega
  have last : Nat.find some ≤ roundsFor length size - 1 := Nat.find_min' some beyond
  exact ⟨Nat.find some, positive, by omega, Nat.find_spec some, first⟩

/-- Behind the end of the word, the cycle stands as much further as the word leaves over. -/
theorem cursorAfter_wrapped (fits : cursor < word) (whole : length ≤ word) {round : Nat}
    (reached : word ≤ cursor + round * size) (once : round * size < length) :
    cursorAfter word cursor size round + word % length + length * (word / length) = cursor + round * size := by
  have parts := Nat.div_add_mod word length
  have wrapped : cursorAfter word cursor size round = cursor + round * size - word := by
    rw [cursorAfter, Nat.mod_eq_sub_mod reached, Nat.mod_eq_of_lt (by omega)]
  omega

/-- When the cursor reaches the end of its word, the windows show all places only if
they show more than the word leaves over. -/
theorem showsPlace_of_wrapped (some : 0 < length) (positive : 0 < size) (fits : cursor < word)
    (whole : length ≤ word) (beyond : word ≤ cursor + (roundsFor length size - 1) * size) :
    (∀ place < length, ShowsPlace word length cursor size (roundsFor length size) place) ↔
      word % length ≤ roundsFor length size * size - length := by
  obtain ⟨wrap, started, before, reached, earlier⟩ := exists_wrap fits beyond
  have enough : length ≤ roundsFor length size * size := length_le_roundsFor positive
  have needed : roundsFor length size * size < length + size := roundsFor_mul_lt positive
  have left := Nat.mod_lt word some
  have least : size ≤ wrap * size := Nat.le_mul_of_pos_left _ started
  have once {round : Nat} (inside : round < roundsFor length size) : round * size < length := by
    have next : (round + 1) * size ≤ roundsFor length size * size := Nat.mul_le_mul_right _ inside
    rw [Nat.add_mul, Nat.one_mul] at next
    omega
  have smaller : min length size = size := min_eq_right (least.trans (once before).le)
  have later {round : Nat} (behind : wrap ≤ round) : word ≤ cursor + round * size :=
    reached.trans (Nat.add_le_add_left (Nat.mul_le_mul_right _ behind) _)
  constructor
  · intro shown
    by_contra tooFew
    -- The place behind the windows before the end, or behind those after it.
    have beforeEnd := once before
    let distance := max (wrap * size) (roundsFor length size * size - word % length)
    obtain ⟨round, inside, offset, near, same⟩ := shown ((cursor + distance) % length) (Nat.mod_lt _ some)
    rw [smaller] at near
    have next : (round + 1) * size ≤ roundsFor length size * size := Nat.mul_le_mul_right _ (by omega)
    rw [Nat.add_mul, Nat.one_mul] at next
    by_cases behind : wrap ≤ round
    · have moved := cursorAfter_wrapped fits whole (later behind) (once inside)
      have sinceWrap : wrap * size ≤ round * size := Nat.mul_le_mul_right _ behind
      rw [← Nat.add_mul_mod_self_left _ length (word / length)] at same
      exact mod_ne_of_near (by omega) (by omega) same
    · have stays : cursorAfter word cursor size round = cursor + round * size :=
        Nat.mod_eq_of_lt (earlier round (by omega))
      have untilWrap : (round + 1) * size ≤ wrap * size := Nat.mul_le_mul_right _ (by omega)
      rw [Nat.add_mul, Nat.one_mul] at untilWrap
      rw [stays] at same
      exact mod_ne_of_near (by omega) (by omega) same
  · intro covers place inside
    obtain ⟨distance, near, same⟩ := @exists_distance length cursor some _ inside
    by_cases early : distance < wrap * size
    · have stays : cursorAfter word cursor size (distance / size) = cursor + distance / size * size :=
        Nat.mod_eq_of_lt (earlier _ ((Nat.div_lt_iff_lt_mul positive).mpr early))
      have round : distance / size < roundsFor length size :=
        (Nat.div_lt_iff_lt_mul positive).mpr (by omega)
      refine ⟨distance / size, round, distance % size, ?_, ?_⟩
      · rw [smaller]
        exact Nat.mod_lt _ positive
      · rw [stays, Nat.add_assoc, Nat.div_add_mod', same]
    · let shifted := distance + word % length
      have round : shifted / size < roundsFor length size :=
        (Nat.div_lt_iff_lt_mul positive).mpr (by omega)
      have behind : wrap ≤ shifted / size := (Nat.le_div_iff_mul_le positive).mpr (by omega)
      have moved := cursorAfter_wrapped fits whole (later behind) (once round)
      have parts := Nat.div_add_mod' shifted size
      refine ⟨shifted / size, round, shifted % size, ?_, ?_⟩
      · rw [smaller]
        exact Nat.mod_lt _ positive
      · rw [← same, ← Nat.add_mul_mod_self_left _ length (word / length)]
        congr 1
        omega

theorem showsPlace_iff (positive : 0 < size) (fits : cursor < word) (whole : length ≤ word) :
    (∀ place < length, ShowsPlace word length cursor size (roundsFor length size) place) ↔
      ShowsAll word length cursor size := by
  rcases Nat.eq_zero_or_pos length with rfl | some
  · have within : cursor + (roundsFor 0 size - 1) * size < word := by
      rw [roundsFor_zero positive]
      simpa using fits
    exact iff_of_true (fun place inside => absurd inside (Nat.not_lt_zero place)) (.inl within)
  · by_cases within : cursor + (roundsFor length size - 1) * size < word
    · exact iff_of_true (fun place inside => showsPlace_of_within positive within inside) (.inl within)
    · rw [showsPlace_of_wrapped some positive fits whole (not_lt.mp within), ShowsAll, or_iff_right within]

end Windows

end RustNostr.Library
