import Mathlib
import RustNostr.Library.Utf8

/-!
# Slices of a text

Parts of a text by their bytes. A text can be cut only between two characters, so
cutting at a byte position may fail.
-/

set_option autoImplicit false

namespace RustNostr.Library

def encodeChars (chars : List Char) : Bytes := chars.flatMap String.utf8EncodeChar

def byteLength (chars : List Char) : Nat := (encodeChars chars).length

@[simp] theorem byteLength_nil : byteLength [] = 0 := rfl

@[simp] theorem byteLength_cons (char : Char) (chars : List Char) :
    byteLength (char :: chars) = char.utf8Size + byteLength chars := by
  rw [byteLength, encodeChars, List.flatMap_cons, List.length_append, String.length_utf8EncodeChar]
  rfl

@[simp] theorem encodeChars_append (left right : List Char) :
    encodeChars (left ++ right) = encodeChars left ++ encodeChars right := List.flatMap_append

@[simp] theorem byteLength_append (left right : List Char) :
    byteLength (left ++ right) = byteLength left + byteLength right := by
  rw [byteLength, encodeChars_append, List.length_append]
  rfl

theorem byteLength_eq_zero {chars : List Char} : byteLength chars = 0 ↔ chars = [] := by
  cases chars with
  | nil => simp
  | cons char chars =>
      have positive := char.utf8Size_pos
      simp only [byteLength_cons, List.cons_ne_nil, iff_false]
      omega

/-! ## Cutting -/

/-- The text before a byte position and the text from there on. -/
def splitAtByte : List Char → Nat → Option (List Char × List Char)
  | chars, 0 => some ([], chars)
  | [], _ + 1 => none
  | char :: chars, position + 1 =>
      if char.utf8Size ≤ position + 1 then
        (splitAtByte chars (position + 1 - char.utf8Size)).map fun parts =>
          (char :: parts.1, parts.2)
      else none

theorem splitAtByte_append (before after : List Char) :
    splitAtByte (before ++ after) (byteLength before) = some (before, after) := by
  induction before with
  | nil => cases after <;> rfl
  | cons char before ih =>
      have positive := char.utf8Size_pos
      rw [byteLength_cons, List.cons_append]
      cases position : char.utf8Size + byteLength before with
      | zero => omega
      | succ rest =>
          have left : rest + 1 - char.utf8Size = byteLength before := by omega
          rw [splitAtByte, if_pos (by omega), left, ih]
          rfl

/-- A position between two characters of the text. -/
def Boundary (text : List Char) (position : Nat) : Prop :=
  ∃ before after, text = before ++ after ∧ byteLength before = position

theorem Boundary.zero (text : List Char) : Boundary text 0 := ⟨[], text, rfl, rfl⟩

theorem Boundary.last (text : List Char) : Boundary text (byteLength text) :=
  ⟨text, [], (List.append_nil text).symm, rfl⟩

theorem Boundary.le {text : List Char} {position : Nat} (boundary : Boundary text position) :
    position ≤ byteLength text := by
  obtain ⟨before, after, shape, length⟩ := boundary
  rw [shape, byteLength_append, length]
  exact Nat.le_add_right _ _

/-- Of two ways to cut a text, the one that cuts later only cuts more off. -/
theorem exists_between {before after before' after' : List Char}
    (same : before ++ after = before' ++ after') (order : byteLength before ≤ byteLength before') :
    ∃ middle, before' = before ++ middle ∧ after = middle ++ after' := by
  cases List.append_eq_append_iff.mp same with
  | inl longer =>
      obtain ⟨middle, first, second⟩ := longer
      exact ⟨middle, first, second⟩
  | inr shorter =>
      obtain ⟨middle, first, second⟩ := shorter
      have none : middle = [] := by
        rw [← byteLength_eq_zero]
        rw [first, byteLength_append] at order
        omega
      subst none
      rw [List.append_nil] at first
      exact ⟨[], by rw [first, List.append_nil], second.symm⟩

/-! ## ASCII -/

theorem utf8EncodeChar_of_ascii {char : Char} (ascii : char.toNat < 128) :
    String.utf8EncodeChar char = [UInt8.ofNat char.toNat] := by
  have small : char.val.toNat ≤ 0x7f := Nat.le_of_lt_succ ascii
  unfold String.utf8EncodeChar
  exact if_pos small

/-- Only an ASCII character begins with an ASCII byte. -/
theorem le_head_of_not_ascii {char : Char} (large : ¬ char.toNat < 128) :
    ∃ first rest, String.utf8EncodeChar char = first :: rest ∧ 128 ≤ first.toNat := by
  have above : ¬ char.val.toNat ≤ 0x7f := fun small => large (Nat.lt_succ_of_le small)
  unfold String.utf8EncodeChar
  simp only [above, if_false]
  split
  next =>
    refine ⟨_, _, rfl, ?_⟩
    rw [UInt8.toNat_ofNat']
    omega
  next =>
    split
    next =>
      refine ⟨_, _, rfl, ?_⟩
      rw [UInt8.toNat_ofNat']
      omega
    next =>
      refine ⟨_, _, rfl, ?_⟩
      rw [UInt8.toNat_ofNat']
      omega

theorem utf8Size_of_ascii {char : Char} (ascii : char.toNat < 128) : char.utf8Size = 1 := by
  rw [← String.length_utf8EncodeChar, utf8EncodeChar_of_ascii ascii]
  rfl

theorem byteLength_of_ascii {chars : List Char} (ascii : ∀ char ∈ chars, char.toNat < 128) :
    byteLength chars = chars.length := by
  induction chars with
  | nil => rfl
  | cons char chars ih =>
      obtain ⟨first, others⟩ := List.forall_mem_cons.mp ascii
      rw [byteLength_cons, utf8Size_of_ascii first, ih others, List.length_cons, Nat.add_comm]

theorem exists_head_of_ascii {before after : List Char} {byte : UInt8}
    (found : (encodeChars (before ++ after))[byteLength before]? = some byte)
    (ascii : byte.toNat < 128) : ∃ char rest, after = char :: rest ∧ char.toNat = byte.toNat := by
  have head : (encodeChars after)[0]? = some byte := by
    rw [encodeChars_append, byteLength, List.getElem?_append_right (le_refl _), Nat.sub_self] at found
    exact found
  cases after with
  | nil => cases head
  | cons char after =>
      refine ⟨char, after, rfl, ?_⟩
      by_cases small : char.toNat < 128
      · rw [encodeChars, List.flatMap_cons, utf8EncodeChar_of_ascii small] at head
        cases head
        exact (UInt8.toNat_ofNat_of_lt' (by change _ < 256; omega)).symm
      · obtain ⟨first, rest, bytes, large⟩ := le_head_of_not_ascii small
        rw [encodeChars, List.flatMap_cons, bytes] at head
        cases head
        omega

/-- Where an ASCII byte stands between two characters, its character stands. -/
theorem Boundary.exists_ascii {text : List Char} {position : Nat} {byte : UInt8}
    (boundary : Boundary text position) (found : (encodeChars text)[position]? = some byte)
    (ascii : byte.toNat < 128) :
    ∃ before char after, text = before ++ char :: after ∧ byteLength before = position ∧
      char.toNat = byte.toNat := by
  obtain ⟨before, after, shape, length⟩ := boundary
  rw [shape, ← length] at found
  obtain ⟨char, rest, cut, same⟩ := exists_head_of_ascii found ascii
  exact ⟨before, char, rest, cut ▸ shape, length, same⟩

theorem Boundary.succ {text : List Char} {position : Nat} {byte : UInt8}
    (boundary : Boundary text position) (found : (encodeChars text)[position]? = some byte)
    (ascii : byte.toNat < 128) : Boundary text (position + 1) := by
  obtain ⟨before, char, after, shape, length, same⟩ := boundary.exists_ascii found ascii
  refine ⟨before ++ [char], after, ?_, ?_⟩
  · rw [shape, List.append_assoc, List.singleton_append]
  · rw [byteLength_append, length, byteLength_cons, utf8Size_of_ascii (same ▸ ascii), byteLength_nil]

/-- All bytes from the one position to the other are there and ASCII. -/
def AsciiRun (bytes : Bytes) (start stop : Nat) : Prop :=
  ∀ index, start ≤ index → index < stop → ∃ byte, bytes[index]? = some byte ∧ byte.toNat < 128

namespace AsciiRun

variable {bytes : Bytes} {start stop : Nat}

theorem append {last : Nat} (first : AsciiRun bytes start stop) (second : AsciiRun bytes stop last) :
    AsciiRun bytes start last := by
  intro index after before
  by_cases early : index < stop
  · exact first index after early
  · exact second index (not_lt.mp early) before

theorem mono {last : Nat} (run : AsciiRun bytes start stop) (shorter : last ≤ stop) :
    AsciiRun bytes start last :=
  fun index after before => run index after (lt_of_lt_of_le before shorter)

theorem of_take {part : Bytes} (found : (bytes.drop start).take part.length = part)
    (ascii : ∀ byte ∈ part, byte.toNat < 128) : AsciiRun bytes start (start + part.length) := by
  intro index after before
  have inside : index - start < part.length := by omega
  refine ⟨part[index - start], ?_, ascii _ (List.getElem_mem inside)⟩
  have read : ((bytes.drop start).take part.length)[index - start]? = some part[index - start] := by
    rw [found, List.getElem?_eq_getElem inside]
  rw [List.getElem?_take_of_lt inside, List.getElem?_drop, Nat.add_sub_cancel' after] at read
  exact read

theorem takeWhile {kept : UInt8 → Bool} (ascii : ∀ byte, kept byte = true → byte.toNat < 128) :
    AsciiRun bytes start (start + ((bytes.drop start).takeWhile kept).length) := by
  apply of_take
  · exact (List.prefix_iff_eq_take.mp (List.takeWhile_prefix kept)).symm
  · exact fun byte member => ascii byte (List.mem_takeWhile_imp member)

theorem le_length (run : AsciiRun bytes start stop) (nonempty : start < stop) :
    stop ≤ bytes.length := by
  obtain ⟨byte, found, _⟩ := run (stop - 1) (by omega) (by omega)
  have inside := (List.getElem?_eq_some_iff.mp found).1
  omega

end AsciiRun

/-- A run of ASCII bytes ends between two characters. -/
theorem Boundary.of_asciiRun {text : List Char} {start stop : Nat} (boundary : Boundary text start)
    (order : start ≤ stop) (run : AsciiRun (encodeChars text) start stop) : Boundary text stop := by
  induction stop, order using Nat.le_induction with
  | base => exact boundary
  | succ stop after ih =>
      obtain ⟨byte, found, small⟩ := run stop after (Nat.lt_succ_self stop)
      exact (ih (run.mono (Nat.le_succ stop))).succ found small

/-! ## Slices -/

structure TextSlice where
  start : Nat
  chars : List Char

namespace TextSlice

def stop (slice : TextSlice) : Nat := slice.start + byteLength slice.chars

/-- `get(position..)`, relative to the slice. -/
def from? (slice : TextSlice) (position : Nat) : Option TextSlice :=
  (splitAtByte slice.chars position).map fun parts => ⟨slice.start + position, parts.2⟩

/-- `get(..position)`, relative to the slice. -/
def to? (slice : TextSlice) (position : Nat) : Option TextSlice :=
  (splitAtByte slice.chars position).map fun parts => ⟨slice.start, parts.1⟩

/-- `get(start..stop)`, relative to the slice. -/
def range? (slice : TextSlice) (start stop : Nat) : Option TextSlice :=
  if start ≤ stop then (slice.from? start).bind fun rest => rest.to? (stop - start) else none

def Within (text : List Char) (slice : TextSlice) : Prop :=
  ∃ before after, text = before ++ (slice.chars ++ after) ∧ byteLength before = slice.start

theorem from?_append (start : Nat) (before after : List Char) :
    (TextSlice.mk start (before ++ after)).from? (byteLength before) =
      some ⟨start + byteLength before, after⟩ := by
  rw [from?, splitAtByte_append]
  rfl

theorem to?_append (start : Nat) (before after : List Char) :
    (TextSlice.mk start (before ++ after)).to? (byteLength before) = some ⟨start, before⟩ := by
  rw [to?, splitAtByte_append]
  rfl

/-- Between two boundaries of a text there is a slice. -/
theorem range?_eq_some {text : List Char} {first last : Nat} (start : Boundary text first)
    (stop : Boundary text last) (order : first ≤ last) :
    ∃ slice, (TextSlice.mk 0 text).range? first last = some slice ∧ slice.start = first ∧
      slice.stop = last ∧ slice.Within text := by
  obtain ⟨before, after, shape, length⟩ := start
  obtain ⟨before', after', shape', length'⟩ := stop
  obtain ⟨middle, rfl, rfl⟩ := exists_between (shape.symm.trans shape') (by omega)
  rw [byteLength_append] at length'
  have rest : last - first = byteLength middle := by omega
  subst shape
  refine ⟨⟨0 + byteLength before, middle⟩, ?_, ?_, ?_, ?_⟩
  · rw [range?, if_pos order, rest, ← length, from?_append]
    exact to?_append _ middle after'
  · simp only [Nat.zero_add, length]
  · simp only [TextSlice.stop, Nat.zero_add]
    omega
  · exact ⟨before, after', rfl, (Nat.zero_add _).symm⟩

theorem stop_append (start : Nat) (front back : List Char) :
    (TextSlice.mk (start + byteLength front) back).stop = (TextSlice.mk start (front ++ back)).stop := by
  rw [stop, stop, byteLength_append, Nat.add_assoc]

theorem Within.front {text front back : List Char} {start : Nat}
    (within : (TextSlice.mk start (front ++ back)).Within text) :
    (TextSlice.mk start front).Within text := by
  obtain ⟨before, after, shape, length⟩ := within
  exact ⟨before, back ++ after, by rw [shape, List.append_assoc], length⟩

theorem Within.back {text front back : List Char} {start : Nat}
    (within : (TextSlice.mk start (front ++ back)).Within text) :
    (TextSlice.mk (start + byteLength front) back).Within text := by
  obtain ⟨before, after, shape, length⟩ := within
  refine ⟨before ++ front, after, ?_, ?_⟩
  · rw [shape, List.append_assoc, List.append_assoc]
  · rw [byteLength_append, length]

/-- A slice begins with the ASCII character whose byte stands at its start. -/
theorem Within.eq_cons {text : List Char} {slice : TextSlice} {char : Char} (within : slice.Within text)
    (nonempty : slice.chars ≠ []) (ascii : char.toNat < 128)
    (found : (encodeChars text)[slice.start]? = some (UInt8.ofNat char.toNat)) :
    ∃ rest, slice.chars = char :: rest := by
  obtain ⟨before, after, shape, length⟩ := within
  have byte : (UInt8.ofNat char.toNat).toNat = char.toNat :=
    UInt8.toNat_ofNat_of_lt' (by change _ < 256; omega)
  rw [shape, ← length] at found
  obtain ⟨first, others, cut, same⟩ := exists_head_of_ascii found (by rw [byte]; exact ascii)
  cases chars : slice.chars with
  | nil => exact absurd chars nonempty
  | cons head rest =>
      rw [chars, List.cons_append] at cut
      cases cut
      exact ⟨rest, congrArg (List.cons · rest) (Char.toNat_inj.mp (same.trans byte))⟩

end TextSlice

/-- Slices that lie one behind the other from the position on, none of them empty,
and that make up the text. -/
inductive Covers : Nat → List TextSlice → List Char → Prop where
  | nil {position : Nat} : Covers position [] []
  | cons {position : Nat} {slice : TextSlice} {slices : List TextSlice} {rest : List Char} :
      slice.start = position → slice.chars ≠ [] → Covers slice.stop slices rest →
      Covers position (slice :: slices) (slice.chars ++ rest)

end RustNostr.Library
