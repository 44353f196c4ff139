import Mathlib
import RustNostr.Library.Splitting
import RustNostr.Library.TextSlice

/-!
# Forms

The `application/x-www-form-urlencoded` format: how bytes are written in it, how the
pairs of a query are read, and which texts are read as they stand.
-/

set_option autoImplicit false

namespace RustNostr.Library

/-! ## Percent-encoding -/

def upperHexDigit (digit : Nat) : Char :=
  if digit < 10 then Char.ofNat (48 + digit) else Char.ofNat (55 + digit)

def hexValue (char : Char) : Option Nat :=
  if '0' ≤ char ∧ char ≤ '9' then some (char.toNat - 48)
  else if 'A' ≤ char ∧ char ≤ 'F' then some (char.toNat - 55)
  else if 'a' ≤ char ∧ char ≤ 'f' then some (char.toNat - 87)
  else none

theorem hexValue_upperHexDigit {digit : Nat} (small : digit < 16) :
    hexValue (upperHexDigit digit) = some digit := by
  have each : ∀ digit < 16, hexValue (upperHexDigit digit) = some digit := by decide
  exact each digit small

def percentEncode (byte : UInt8) : List Char :=
  ['%', upperHexDigit (byte.toNat / 16), upperHexDigit (byte.toNat % 16)]

/-- A percent sign that two digits do not follow stands for itself. -/
def percentDecode : List Char → Bytes
  | '%' :: high :: low :: rest =>
      match hexValue high, hexValue low with
      | some first, some second => UInt8.ofNat (first * 16 + second) :: percentDecode rest
      | _, _ => String.utf8EncodeChar '%' ++ percentDecode (high :: low :: rest)
  | char :: rest => String.utf8EncodeChar char ++ percentDecode rest
  | [] => []

theorem percentDecode_cons {char : Char} (plain : char ≠ '%') (rest : List Char) :
    percentDecode (char :: rest) = String.utf8EncodeChar char ++ percentDecode rest := by
  rw [percentDecode]
  exact fun _ _ _ same => absurd same plain

theorem percentDecode_percentEncode (byte : UInt8) (rest : List Char) :
    percentDecode (percentEncode byte ++ rest) = byte :: percentDecode rest := by
  have bound := byte.toNat_lt
  have joined : UInt8.ofNat (byte.toNat / 16 * 16 + byte.toNat % 16) = byte := by
    rw [Nat.div_add_mod']
    exact UInt8.ofNat_toNat
  change percentDecode ('%' :: _ :: _ :: rest) = _
  rw [percentDecode, hexValue_upperHexDigit (by omega), hexValue_upperHexDigit (by omega)]
  simp only [joined]

/-! ## Forms -/

def plusToSpace (char : Char) : Char := if char = '+' then ' ' else char

/-- `form_urlencoded::decode` -/
def formDecode (text : List Char) : List Char :=
  fromUtf8Lossy (percentDecode (text.map plusToSpace))

/-- The bytes that are written as they are: digits, letters and `*-._`. -/
def formUnreserved (byte : UInt8) : Bool :=
  byte = 42 || byte = 45 || byte = 46 || byte = 95 || (48 ≤ byte && byte ≤ 57) ||
    (65 ≤ byte && byte ≤ 90) || (97 ≤ byte && byte ≤ 122)

def serializeByte (byte : UInt8) : List Char :=
  if byte = 32 then ['+']
  else if formUnreserved byte then [Char.ofNat byte.toNat]
  else percentEncode byte

/-- `form_urlencoded::byte_serialize` -/
def byteSerialize (bytes : Bytes) : List Char := bytes.flatMap serializeByte

theorem formUnreserved_char {byte : UInt8} (unreserved : formUnreserved byte = true) :
    (Char.ofNat byte.toNat).toNat = byte.toNat ∧ byte.toNat < 128 ∧
      Char.ofNat byte.toNat ≠ '%' ∧ Char.ofNat byte.toNat ≠ '+' := by
  have each : ∀ number < 256, formUnreserved (UInt8.ofNat number) = true →
      (Char.ofNat number).toNat = number ∧ number < 128 ∧ Char.ofNat number ≠ '%' ∧
        Char.ofNat number ≠ '+' := by decide +kernel
  refine each byte.toNat byte.toNat_lt ?_
  rwa [UInt8.ofNat_toNat]

theorem plusToSpace_upperHexDigit {digit : Nat} (small : digit < 16) :
    plusToSpace (upperHexDigit digit) = upperHexDigit digit := by
  have each : ∀ digit < 16, plusToSpace (upperHexDigit digit) = upperHexDigit digit := by decide
  exact each digit small

theorem map_plusToSpace_percentEncode (byte : UInt8) :
    (percentEncode byte).map plusToSpace = percentEncode byte := by
  have bound := byte.toNat_lt
  rw [percentEncode, List.map_cons, List.map_cons, List.map_cons, List.map_nil,
    plusToSpace_upperHexDigit (by omega), plusToSpace_upperHexDigit (by omega)]
  rfl

theorem percentDecode_serializeByte (byte : UInt8) (rest : List Char) :
    percentDecode ((serializeByte byte).map plusToSpace ++ rest) = byte :: percentDecode rest := by
  unfold serializeByte
  split
  next space =>
    change percentDecode (' ' :: rest) = _
    rw [percentDecode_cons (by decide), space]
    rfl
  next =>
    split
    next unreserved =>
      obtain ⟨number, ascii, plain, noPlus⟩ := formUnreserved_char unreserved
      have small : (Char.ofNat byte.toNat).toNat < 128 := by rwa [number]
      rw [List.map_singleton, plusToSpace, if_neg noPlus, List.singleton_append,
        percentDecode_cons plain, utf8EncodeChar_of_ascii small, number, UInt8.ofNat_toNat,
        List.singleton_append]
    next =>
      rw [map_plusToSpace_percentEncode, percentDecode_percentEncode]

theorem percentDecode_byteSerialize (bytes : Bytes) :
    percentDecode ((byteSerialize bytes).map plusToSpace) = bytes := by
  induction bytes with
  | nil => rfl
  | cons byte bytes ih =>
      rw [byteSerialize, List.flatMap_cons, List.map_append, percentDecode_serializeByte]
      exact congrArg (List.cons byte) ih

theorem formDecode_byteSerialize (text : List Char) :
    formDecode (byteSerialize (encodeChars text)) = text := by
  rw [formDecode, percentDecode_byteSerialize]
  exact fromUtf8Lossy_encode text

/-- The characters that a serialised text is made of. -/
def formSafe (char : Char) : Bool :=
  char.isAlphanum || char = '+' || char = '%' || char = '*' || char = '-' || char = '.' || char = '_'

theorem formSafe_upperHexDigit {digit : Nat} (small : digit < 16) :
    formSafe (upperHexDigit digit) = true := by
  have each : ∀ digit < 16, formSafe (upperHexDigit digit) = true := by decide
  exact each digit small

theorem formSafe_unreserved {byte : UInt8} (unreserved : formUnreserved byte = true) :
    formSafe (Char.ofNat byte.toNat) = true := by
  have each : ∀ number < 256, formUnreserved (UInt8.ofNat number) = true →
      formSafe (Char.ofNat number) = true := by decide +kernel
  refine each byte.toNat byte.toNat_lt ?_
  rwa [UInt8.ofNat_toNat]

theorem formSafe_of_mem_byteSerialize {bytes : Bytes} {char : Char}
    (member : char ∈ byteSerialize bytes) : formSafe char = true := by
  obtain ⟨byte, _, written⟩ := List.mem_flatMap.mp member
  have bound := byte.toNat_lt
  unfold serializeByte at written
  split at written
  next =>
    cases List.mem_singleton.mp written
    rfl
  next =>
    split at written
    next unreserved =>
      cases List.mem_singleton.mp written
      exact formSafe_unreserved unreserved
    next =>
      simp only [percentEncode, List.mem_cons, List.not_mem_nil, or_false] at written
      rcases written with rfl | rfl | rfl
      · rfl
      · exact formSafe_upperHexDigit (by omega)
      · exact formSafe_upperHexDigit (by omega)

theorem map_plusToSpace_of_plain {text : List Char} (plain : '+' ∉ text) :
    text.map plusToSpace = text := by
  refine (List.map_congr_left fun char member => ?_).trans (List.map_id text)
  have other : char ≠ '+' := fun same => plain (same ▸ member)
  exact if_neg other

/-! ## Texts that decode to themselves -/

/-- The byte and the rest of a text whose first two characters are hexadecimal digits. -/
def escaped : List Char → Option (UInt8 × List Char)
  | high :: low :: rest => do
      let first ← hexValue high
      let second ← hexValue low
      some (UInt8.ofNat (first * 16 + second), rest)
  | _ => none

theorem percentDecode_percent (rest : List Char) :
    percentDecode ('%' :: rest) =
      (escaped rest).elim (String.utf8EncodeChar '%' ++ percentDecode rest)
        fun found => found.1 :: percentDecode found.2 := by
  have short (rest : List Char) (few : rest.length < 2) : percentDecode ('%' :: rest) =
      String.utf8EncodeChar '%' ++ percentDecode rest := by
    rw [percentDecode]
    intro high low others _ same
    subst same
    simp only [List.length_cons] at few
    omega
  cases rest with
  | nil => exact short [] (by decide)
  | cons high rest =>
      cases rest with
      | nil => exact short [high] (Nat.lt_succ_self 1)
      | cons low rest =>
          rw [percentDecode, escaped]
          cases hexValue high with
          | none => rfl
          | some first => cases hexValue low <;> rfl

theorem length_of_escaped {text rest : List Char} {byte : UInt8}
    (found : escaped text = some (byte, rest)) : rest.length + 2 = text.length := by
  unfold escaped at found
  split at found
  next =>
    obtain ⟨_, _, found⟩ := Option.bind_eq_some_iff.mp found
    obtain ⟨_, _, found⟩ := Option.bind_eq_some_iff.mp found
    cases found
    rfl
  next => cases found

/-- A percent sign with two digits behind it stands in the text. -/
def hasEscape : List Char → Bool
  | [] => false
  | char :: rest => (char = '%' && (escaped rest).isSome) || hasEscape rest

theorem exists_pieces (text : List Char) : ∃ pieces : List (Char ⊕ UInt8),
    percentDecode text = pieces.flatMap pieceBytes ∧
      pieces.length + (hasEscape text).toNat ≤ text.length := by
  induction length : text.length using Nat.strong_induction_on generalizing text with
  | _ count ih =>
      subst length
      cases text with
      | nil => exact ⟨[], by rw [percentDecode]; rfl, Nat.le_refl _⟩
      | cons char text =>
          obtain ⟨pieces, read, fewer⟩ := ih _ (Nat.lt_succ_self _) text rfl
          by_cases percent : char = '%'
          · subst percent
            rw [percentDecode_percent, hasEscape]
            cases escapes : escaped text with
            | none =>
                refine ⟨.inl '%' :: pieces, by rw [Option.elim_none, read]; rfl, ?_⟩
                simp only [Option.isSome_none, Bool.and_false, Bool.false_or, List.length_cons]
                omega
            | some found =>
                have shorter := length_of_escaped escapes
                obtain ⟨pieces, read, fewer⟩ := ih _ (by rw [List.length_cons]; omega) found.2 rfl
                refine ⟨.inr found.1 :: pieces, by rw [Option.elim_some, read]; rfl, ?_⟩
                simp only [List.length_cons, Option.isSome_some, Bool.and_true, decide_true,
                  Bool.true_or, Bool.toNat_true]
                omega
          · refine ⟨.inl char :: pieces, by rw [percentDecode_cons percent, read]; rfl, ?_⟩
            simp only [hasEscape, percent, decide_false, Bool.false_and, Bool.false_or,
              List.length_cons]
            omega

theorem length_formDecode (text : List Char) :
    (formDecode text).length + (hasEscape (text.map plusToSpace)).toNat ≤ text.length := by
  obtain ⟨pieces, read, fewer⟩ := exists_pieces (text.map plusToSpace)
  have shorter := length_fromUtf8Lossy_le pieces
  rw [List.length_map] at fewer
  rw [formDecode, read]
  omega

theorem percentDecode_of_noEscape {text : List Char} (plain : hasEscape text = false) :
    percentDecode text = encodeChars text := by
  induction text with
  | nil => rw [percentDecode]; rfl
  | cons char text ih =>
      obtain ⟨here, rest⟩ := Bool.or_eq_false_iff.mp plain
      by_cases percent : char = '%'
      · subst percent
        have escapes : escaped text = none := by simpa using here
        rw [percentDecode_percent, escapes, Option.elim_none, ih rest]
        rfl
      · rw [percentDecode_cons percent, ih rest]
        rfl

/-- What decodes to itself. -/
theorem formDecode_eq_self {text : List Char} :
    formDecode text = text ↔ '+' ∉ text ∧ hasEscape text = false := by
  constructor
  · intro same
    have length := length_formDecode text
    have escapeFree : hasEscape (text.map plusToSpace) = false := by
      rw [same] at length
      cases escapes : hasEscape (text.map plusToSpace) with
      | false => rfl
      | true =>
          rw [escapes, Bool.toNat_true] at length
          omega
    have spaced : text.map plusToSpace = text := by
      rw [formDecode, percentDecode_of_noEscape escapeFree] at same
      exact (fromUtf8Lossy_encode _).symm.trans same
    refine ⟨fun member => ?_, spaced ▸ escapeFree⟩
    rw [← spaced] at member
    obtain ⟨char, _, plus⟩ := List.mem_map.mp member
    unfold plusToSpace at plus
    split at plus
    next => exact absurd plus (by decide)
    next other => exact other plus
  · intro plain
    rw [formDecode, map_plusToSpace_of_plain plain.1, percentDecode_of_noEscape plain.2]
    exact fromUtf8Lossy_encode text

theorem hasEscape_of_plain {text : List Char} (plain : '%' ∉ text) : hasEscape text = false := by
  induction text with
  | nil => rfl
  | cons char text ih =>
      have other : char ≠ '%' := fun same => plain (same ▸ List.mem_cons_self)
      rw [hasEscape, ih fun member => plain (.tail _ member), decide_eq_false other]
      rfl

/-! ## Pairs -/

/-- `form_urlencoded::parse`, before the names and values are decoded. -/
def queryPairs (query : List Char) : List (List Char × List Char) :=
  ((query.splitOn '&').filter fun piece => !piece.isEmpty).map fun piece =>
    (splitOnce ['='] piece).getD (piece, [])

def writePair (pair : List Char × List Char) : List Char := pair.1 ++ '=' :: pair.2

def writePairs (pairs : List (List Char × List Char)) : List Char :=
  ['&'].intercalate (pairs.map writePair)

/-- A name without separators and a value that does not end. -/
def PlainPair (pair : List Char × List Char) : Prop :=
  '&' ∉ pair.1 ∧ '=' ∉ pair.1 ∧ '&' ∉ pair.2

theorem splitOnce_equals {name value : List Char} :
    splitOnce ['='] (name ++ '=' :: value) = some (name, value) ↔ '=' ∉ name := by
  have split := splitOnce_append (List.cons_ne_nil '=' []) name value
  rwa [List.dropLast_singleton, List.append_nil, List.singleton_infix_iff] at split

theorem amp_notMem_writePair {pair : List Char × List Char} (plain : PlainPair pair) :
    '&' ∉ writePair pair := by
  simp [writePair, plain.1, plain.2.2]

theorem writePairs_cons (first : List Char × List Char) (rest : List (List Char × List Char)) :
    writePairs (first :: rest) = writePair first ++ rest.flatMap fun pair => '&' :: writePair pair := by
  induction rest generalizing first with
  | nil => simp [writePairs]
  | cons second rest ih =>
      have step : writePairs (first :: second :: rest) =
          writePair first ++ '&' :: writePairs (second :: rest) := by
        simp [writePairs, List.intercalate_cons_cons]
      rw [step, ih, List.flatMap_cons, List.cons_append]

theorem writePairs_eq_nil {pairs : List (List Char × List Char)} : writePairs pairs = [] ↔ pairs = [] := by
  cases pairs with
  | nil => simp [writePairs]
  | cons first rest => simp [writePairs_cons, writePair]

theorem mem_writePairs {pairs : List (List Char × List Char)} {char : Char}
    (member : char ∈ writePairs pairs) :
    char = '&' ∨ char = '=' ∨ ∃ pair ∈ pairs, char ∈ pair.1 ∨ char ∈ pair.2 := by
  have inside (pair : List Char × List Char) (present : pair ∈ pairs) (written : char ∈ writePair pair) :
      char = '=' ∨ ∃ pair ∈ pairs, char ∈ pair.1 ∨ char ∈ pair.2 := by
    rcases List.mem_append.mp written with name | value
    · exact .inr ⟨pair, present, .inl name⟩
    · rcases List.mem_cons.mp value with same | value
      · exact .inl same
      · exact .inr ⟨pair, present, .inr value⟩
  cases pairs with
  | nil => cases member
  | cons first rest =>
      rw [writePairs_cons] at member
      rcases List.mem_append.mp member with front | back
      · exact .inr (inside first List.mem_cons_self front)
      · obtain ⟨pair, present, written⟩ := List.mem_flatMap.mp back
        rcases List.mem_cons.mp written with same | written
        · exact .inl same
        · exact .inr (inside pair (.tail _ present) written)

theorem writePairs_append {front : List (List Char × List Char)} (some : front ≠ [])
    (pair : List Char × List Char) :
    writePairs (front ++ [pair]) = writePairs front ++ '&' :: writePair pair := by
  cases front with
  | nil => exact absurd rfl some
  | cons first rest =>
      rw [List.cons_append, writePairs_cons, writePairs_cons, List.flatMap_append, List.append_assoc]
      simp

theorem queryPairs_writePairs {pairs : List (List Char × List Char)}
    (plain : ∀ pair ∈ pairs, PlainPair pair) : queryPairs (writePairs pairs) = pairs := by
  cases pairs with
  | nil => rfl
  | cons first rest =>
      have apart : ∀ piece ∈ (first :: rest).map writePair, '&' ∉ piece := by
        intro piece member
        obtain ⟨pair, present, same⟩ := List.mem_map.mp member
        exact same ▸ amp_notMem_writePair (plain pair present)
      have kept : ((first :: rest).map writePair).filter (fun piece => !piece.isEmpty) =
          (first :: rest).map writePair := by
        refine List.filter_eq_self.mpr fun piece member => ?_
        obtain ⟨pair, _, same⟩ := List.mem_map.mp member
        simp [← same, writePair]
      rw [queryPairs, writePairs, List.splitOn_intercalate '&' apart (by simp), kept, List.map_map]
      refine (List.map_congr_left fun pair present => ?_).trans (List.map_id _)
      change (splitOnce ['='] (writePair pair)).getD _ = pair
      rw [writePair, splitOnce_equals.mpr (plain pair present).2.1]
      rfl

theorem queryPairs_append (front back : List Char) :
    queryPairs (front ++ '&' :: back) = queryPairs front ++ queryPairs back := by
  rw [queryPairs, List.splitOn_append_cons_self, List.filter_append, List.map_append]
  rfl

theorem queryPairs_writePair {pair : List Char × List Char} (plain : PlainPair pair) :
    queryPairs (writePair pair) = [pair] := by
  have single : writePairs [pair] = writePair pair := by rw [writePairs_cons]; exact List.append_nil _
  rw [← single, queryPairs_writePairs fun other member => ?_]
  cases List.mem_singleton.mp member
  exact plain

theorem length_value_le (piece : List Char) :
    ((splitOnce ['='] piece).getD (piece, [])).2.length ≤ piece.length := by
  cases split : splitOnce ['='] piece with
  | none => exact Nat.zero_le _
  | some parts =>
      have shape := congrArg List.length (eq_append_of_splitOnce split)
      rw [List.length_append, List.length_append] at shape
      rw [Option.getD_some]
      omega

/-- No value is longer than the text behind the first equals sign, and if the text is cut
each is shorter. -/
theorem length_of_mem_queryPairs {name text : List Char} (plain : '&' ∉ name ∧ '=' ∉ name)
    {pair : List Char × List Char} (member : pair ∈ queryPairs (name ++ '=' :: text)) :
    pair.2.length + (if '&' ∈ text then 1 else 0) ≤ text.length := by
  have apart : '&' ∉ name ++ ['='] := by simp [plain.1]
  have shape : name ++ '=' :: text = (name ++ ['=']) ++ text := by simp
  obtain ⟨piece, present, cut⟩ := List.mem_map.mp member
  subst cut
  have present := (List.mem_filter.mp present).1
  rw [shape, splitOn_append_of_notMem apart] at present
  cases pieces : text.splitOn '&' with
  | nil => exact absurd pieces (List.splitOn_ne_nil '&' text)
  | cons head tail =>
      rw [pieces, List.modifyHead_cons] at present
      rcases List.mem_cons.mp present with same | later
      · have shorter := length_of_mem_splitOn (pieces ▸ List.mem_cons_self (a := head) (l := tail))
        rw [same, List.append_assoc, List.singleton_append, splitOnce_equals.mpr plain.2]
        exact shorter
      · have shorter := length_of_mem_splitOn (pieces ▸ List.mem_cons_of_mem head later)
        exact (Nat.add_le_add_right (length_value_le piece) _).trans shorter

end RustNostr.Library
