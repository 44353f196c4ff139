import Mathlib
import RustNostr.Library.ByteString

/-!
# UTF-8

Reading bytes that may not be UTF-8: each longest broken beginning of a character
becomes one replacement character, as `String::from_utf8_lossy` documents it.
-/

set_option autoImplicit false

namespace RustNostr.Library

/-- Whether the two bytes can begin a character of three or four bytes. -/
def startsLongChar (first second : UInt8) : Bool :=
  if first = 0xE0 then 0xA0 ≤ second ∧ second ≤ 0xBF
  else if first = 0xED then 0x80 ≤ second ∧ second ≤ 0x9F
  else if 0xE1 ≤ first ∧ first ≤ 0xEF then 0x80 ≤ second ∧ second ≤ 0xBF
  else if first = 0xF0 then 0x90 ≤ second ∧ second ≤ 0xBF
  else if 0xF1 ≤ first ∧ first ≤ 0xF3 then 0x80 ≤ second ∧ second ≤ 0xBF
  else if first = 0xF4 then 0x80 ≤ second ∧ second ≤ 0x8F
  else false

/-- How many bytes are replaced where no character can be read. -/
def brokenLength : Bytes → Nat
  | first :: second :: rest =>
      if !startsLongChar first second then 1
      else
        match rest with
        | third :: _ => if 0xF0 ≤ first ∧ 0x80 ≤ third ∧ third ≤ 0xBF then 3 else 2
        | [] => 2
  | _ => 1

theorem brokenLength_pos (bytes : Bytes) : 0 < brokenLength bytes := by
  unfold brokenLength
  split
  next =>
    split
    next => exact Nat.one_pos
    next => split <;> [split; skip] <;> decide
  next => exact Nat.one_pos

/-- `String::from_utf8_lossy` -/
def fromUtf8Lossy (bytes : Bytes) : List Char :=
  match bytes with
  | [] => []
  | byte :: rest =>
      match (byte :: rest).toByteArray.utf8DecodeChar? 0 with
      | some char => char :: fromUtf8Lossy ((byte :: rest).drop char.utf8Size)
      | none => Char.ofNat 0xFFFD :: fromUtf8Lossy ((byte :: rest).drop (brokenLength (byte :: rest)))
termination_by bytes.length
decreasing_by
  · have pos := char.utf8Size_pos
    simp only [List.length_drop, List.length_cons]
    omega
  · have pos := brokenLength_pos (byte :: rest)
    simp only [List.length_drop, List.length_cons]
    omega

theorem fromUtf8Lossy_encodeChar (char : Char) (rest : Bytes) :
    fromUtf8Lossy (String.utf8EncodeChar char ++ rest) = char :: fromUtf8Lossy rest := by
  have decoded : (String.utf8EncodeChar char ++ rest).toByteArray.utf8DecodeChar? 0 = some char := by
    rw [List.toByteArray_append]
    exact ByteArray.utf8DecodeChar?_utf8EncodeChar_append
  have dropped : (String.utf8EncodeChar char ++ rest).drop char.utf8Size = rest :=
    List.drop_left' (String.length_utf8EncodeChar char)
  cases bytes : String.utf8EncodeChar char ++ rest with
  | nil =>
      have length := congrArg List.length bytes
      have pos := char.utf8Size_pos
      rw [List.length_append, String.length_utf8EncodeChar, List.length_nil] at length
      omega
  | cons byte others =>
      rw [bytes] at decoded dropped
      rw [fromUtf8Lossy, decoded]
      simp only [dropped]

/-- What is UTF-8 is read as the text it is. -/
theorem fromUtf8Lossy_encode (chars : List Char) :
    fromUtf8Lossy (chars.flatMap String.utf8EncodeChar) = chars := by
  induction chars with
  | nil => rw [List.flatMap_nil, fromUtf8Lossy]
  | cons char chars ih => rw [List.flatMap_cons, fromUtf8Lossy_encodeChar, ih]

theorem toUTF8_eq_flatMap (text : String) :
    text.toUTF8.data.toList = text.toList.flatMap String.utf8EncodeChar := by
  change text.toByteArray.data.toList = _
  rw [← String.utf8Encode_toList, List.utf8Encode, List.data_toByteArray]

theorem fromUtf8Lossy_toUTF8 (text : String) : fromUtf8Lossy text.toUTF8.data.toList = text.toList := by
  rw [toUTF8_eq_flatMap, fromUtf8Lossy_encode]

/-! ## Resynchronisation -/

theorem exists_utf8EncodeChar (char : Char) :
    ∃ first rest, String.utf8EncodeChar char = first :: rest := by
  cases bytes : String.utf8EncodeChar char with
  | nil =>
      have size := String.length_utf8EncodeChar char
      have pos := char.utf8Size_pos
      rw [bytes, List.length_nil] at size
      omega
  | cons first rest => exact ⟨first, rest, rfl⟩

/-- The bytes that stand in a character after its first. -/
def IsContinuation (byte : UInt8) : Prop := 0x80 ≤ byte ∧ byte ≤ 0xBF

theorem isContinuation_iff {byte : UInt8} :
    IsContinuation byte ↔ 128 ≤ byte.toNat ∧ byte.toNat ≤ 191 := Iff.rfl

theorem isContinuation_of_mem_tail {char : Char} {byte : UInt8}
    (member : byte ∈ (String.utf8EncodeChar char).tail) : IsContinuation byte := by
  have small (number : Nat) : IsContinuation (UInt8.ofNat (number % 64 + 128)) := by
    rw [isContinuation_iff, UInt8.toNat_ofNat']
    omega
  unfold String.utf8EncodeChar at member
  simp only at member
  split at member
  next => cases member
  next =>
    split at member
    next =>
      cases List.mem_singleton.mp member
      exact small _
    next =>
      split at member
      next =>
        rcases List.mem_cons.mp member with rfl | member
        · exact small _
        · cases List.mem_singleton.mp member
          exact small _
      next =>
        rcases List.mem_cons.mp member with rfl | member
        · exact small _
        · rcases List.mem_cons.mp member with rfl | member
          · exact small _
          · cases List.mem_singleton.mp member
            exact small _

theorem not_isContinuation_head {char : Char} {byte : UInt8} {rest : Bytes}
    (shape : String.utf8EncodeChar char = byte :: rest) : ¬ IsContinuation byte := by
  rw [isContinuation_iff]
  unfold String.utf8EncodeChar at shape
  simp only at shape
  split at shape
  next =>
    cases shape
    rw [UInt8.toNat_ofNat']
    omega
  next =>
    split at shape
    next =>
      cases shape
      rw [UInt8.toNat_ofNat']
      omega
    next =>
      split at shape
      next =>
        cases shape
        rw [UInt8.toNat_ofNat']
        omega
      next =>
        cases shape
        rw [UInt8.toNat_ofNat']
        omega

theorem startsLongChar_isContinuation {first second : UInt8}
    (starts : startsLongChar first second = true) : IsContinuation second := by
  have each : ∀ low high : UInt8, 0x80 ≤ low → high ≤ 0xBF →
      decide (low ≤ second ∧ second ≤ high) = true → IsContinuation second := by
    intro low high above below inside
    obtain ⟨lower, upper⟩ := of_decide_eq_true inside
    exact ⟨le_trans above lower, le_trans upper below⟩
  unfold startsLongChar at starts
  split at starts
  next => exact each _ _ (by decide) (by decide) starts
  next =>
    split at starts
    next => exact each _ _ (by decide) (by decide) starts
    next =>
      split at starts
      next => exact each _ _ (by decide) (by decide) starts
      next =>
        split at starts
        next => exact each _ _ (by decide) (by decide) starts
        next =>
          split at starts
          next => exact each _ _ (by decide) (by decide) starts
          next =>
            split at starts
            next => exact each _ _ (by decide) (by decide) starts
            next => cases starts

theorem exists_of_brokenLength (byte : UInt8) (rest : Bytes) :
    ∃ front back, rest = front ++ back ∧ (∀ other ∈ front, IsContinuation other) ∧
      (byte :: rest).drop (brokenLength (byte :: rest)) = back := by
  cases rest with
  | nil => exact ⟨[], [], rfl, by simp, rfl⟩
  | cons second rest =>
      unfold brokenLength
      simp only
      split
      next => exact ⟨[], second :: rest, rfl, by simp, rfl⟩
      next starts =>
        have continues := startsLongChar_isContinuation (by simpa using starts)
        cases rest with
        | nil => exact ⟨[second], [], rfl, by simpa using continues, rfl⟩
        | cons third rest =>
            simp only
            split
            next more =>
              exact ⟨[second, third], rest, rfl, by simpa using ⟨continues, more.2⟩, rfl⟩
            next => exact ⟨[second], third :: rest, rfl, by simpa using continues, rfl⟩

/-- Each character that is read takes one byte and continuation bytes behind it. -/
theorem exists_of_fromUtf8Lossy_cons (byte : UInt8) (rest : Bytes) :
    ∃ char front back, rest = front ++ back ∧ (∀ other ∈ front, IsContinuation other) ∧
      fromUtf8Lossy (byte :: rest) = char :: fromUtf8Lossy back := by
  rw [fromUtf8Lossy]
  split
  next char decoded =>
    have encoded := String.toByteArray_utf8EncodeChar_of_utf8DecodeChar?_eq_some decoded
    have taken : String.utf8EncodeChar char = (byte :: rest).take char.utf8Size := by
      have bytes := congrArg (fun bytes => bytes.data.toList) encoded
      simpa using bytes
    have pos := char.utf8Size_pos
    obtain ⟨size, sized⟩ : ∃ size, char.utf8Size = size + 1 := ⟨char.utf8Size - 1, by omega⟩
    rw [sized, List.take_succ_cons] at taken
    refine ⟨char, rest.take size, rest.drop size, (List.take_append_drop size rest).symm, ?_, ?_⟩
    · intro other member
      refine @isContinuation_of_mem_tail char other ?_
      rwa [taken]
    · rw [sized, List.drop_succ_cons]
  next =>
    obtain ⟨front, back, shape, continues, dropped⟩ := exists_of_brokenLength byte rest
    exact ⟨_, front, back, shape, continues, by rw [dropped]⟩

/-- The bytes of a character, or one byte that stands alone. -/
def pieceBytes : Char ⊕ UInt8 → Bytes := Sum.elim String.utf8EncodeChar fun byte => [byte]

/-- Continuation bytes in front of the pieces stand alone. -/
theorem exists_rest_of_continuations {pieces : List (Char ⊕ UInt8)} {front back : Bytes}
    (shape : pieces.flatMap pieceBytes = front ++ back)
    (continues : ∀ byte ∈ front, IsContinuation byte) :
    ∃ rest : List (Char ⊕ UInt8), rest.flatMap pieceBytes = back ∧ rest.length ≤ pieces.length := by
  induction front generalizing pieces with
  | nil => exact ⟨pieces, shape, Nat.le_refl _⟩
  | cons byte front ih =>
      obtain ⟨first, others⟩ := List.forall_mem_cons.mp continues
      cases pieces with
      | nil => cases shape
      | cons piece pieces =>
          rw [List.flatMap_cons] at shape
          cases piece with
          | inl char =>
              obtain ⟨head, tail, bytes⟩ := exists_utf8EncodeChar char
              rw [pieceBytes, Sum.elim_inl, bytes, List.cons_append, List.cons_append,
                List.cons.injEq] at shape
              exact absurd first (shape.1 ▸ not_isContinuation_head bytes)
          | inr single =>
              have tail : pieces.flatMap pieceBytes = front ++ back := (List.cons.inj shape).2
              obtain ⟨rest, same, fewer⟩ := ih tail others
              exact ⟨rest, same, Nat.le_succ_of_le fewer⟩

/-- No piece is read as more than one character. -/
theorem length_fromUtf8Lossy_le (pieces : List (Char ⊕ UInt8)) :
    (fromUtf8Lossy (pieces.flatMap pieceBytes)).length ≤ pieces.length := by
  induction length : pieces.length using Nat.strong_induction_on generalizing pieces with
  | _ count ih =>
      subst length
      cases pieces with
      | nil => rw [List.flatMap_nil, fromUtf8Lossy]; exact Nat.le_refl _
      | cons piece pieces =>
          rw [List.flatMap_cons]
          cases piece with
          | inl char =>
              rw [pieceBytes, Sum.elim_inl, fromUtf8Lossy_encodeChar]
              exact Nat.succ_le_succ (ih _ (Nat.lt_succ_self _) pieces rfl)
          | inr byte =>
              change (fromUtf8Lossy (byte :: pieces.flatMap pieceBytes)).length ≤ _
              obtain ⟨char, front, back, shape, continues, read⟩ :=
                exists_of_fromUtf8Lossy_cons byte (pieces.flatMap pieceBytes)
              obtain ⟨rest, same, fewer⟩ := exists_rest_of_continuations shape continues
              rw [read, ← same]
              have shorter := ih _ (Nat.lt_succ_of_le fewer) rest rfl
              exact Nat.succ_le_succ (shorter.trans fewer)

end RustNostr.Library
