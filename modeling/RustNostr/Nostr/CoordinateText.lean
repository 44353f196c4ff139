import Mathlib
import RustNostr.Nostr.Hex

/-!
# Coordinate text

The text of a coordinate and what is read back from it
(`nostr/src/nips/nip01/mod.rs`).
-/

set_option autoImplicit false

namespace RustNostr

open Library

/-! ## Numbers -/

theorem foldl_digits (text : List Char) (total : Nat) :
    text.foldl (fun total digit => total * 10 + (digit.toNat - '0'.toNat)) total =
      Nat.ofDigitChars 10 text total := by
  simp only [Nat.ofDigitChars_eq_foldl, Nat.mul_comm]

theorem toList_toString_nat (number : Nat) : (toString number).toList = Nat.toDigits 10 number := by simp

theorem notMem_toDigits {char : Char} (other : char.isDigit = false) (number : Nat) :
    char ∉ Nat.toDigits 10 number := by
  intro member
  have digit := Nat.isDigit_of_mem_toDigits (by decide) (by decide) member
  rw [other] at digit
  cases digit

/-- A number is read back from its decimal digits. -/
theorem parseUnsigned_toDigits {bound number : Nat} (small : number < bound) :
    parseUnsigned bound (Nat.toDigits 10 number) = some number := by
  have digits : ∀ digit ∈ Nat.toDigits 10 number, digit.isDigit = true := fun _ member =>
    Nat.isDigit_of_mem_toDigits (by decide) (by decide) member
  have unsigned : ∀ rest, Nat.toDigits 10 number ≠ '+' :: rest := by
    intro rest signed
    exact notMem_toDigits rfl number (signed ▸ List.mem_cons_self)
  have whole : (Nat.toDigits 10 number).isEmpty = false :=
    List.isEmpty_eq_false_iff.mpr Nat.toDigits_ne_nil
  have all : (Nat.toDigits 10 number).all Char.isDigit = true := List.all_eq_true.mpr digits
  unfold parseUnsigned
  split
  next rest signed => exact absurd signed (unsigned rest)
  next =>
    simp only [whole, all, foldl_digits, Nat.ofDigitChars_ten_toDigits, small, if_true]
    rfl

theorem parseUnsigned_toString {bound number : Nat} (small : number < bound) :
    parseUnsigned bound (toString number).toList = some number := by
  rw [toList_toString_nat, parseUnsigned_toDigits small]

theorem Kind.fromStr_toDigits (kind : Kind) :
    fromStr (Nat.toDigits 10 kind.asU16.toNat) = some (fromU16 kind.asU16) := by
  rw [fromStr, parseUnsigned_toDigits kind.asU16.toNat_lt, Option.map_some, UInt16.ofNat_toNat]

namespace Coordinate

/-! ## Splitting -/

theorem splitColon_ne_nil (text : List Char) : splitColon text ≠ [] := by
  unfold splitColon
  split
  next => exact List.cons_ne_nil _ _
  next => exact List.cons_ne_nil _ _
  next => split <;> exact List.cons_ne_nil _ _

theorem splitColon_append {piece : List Char} (whole : ':' ∉ piece) (rest : List Char) :
    splitColon (piece ++ ':' :: rest) = piece :: splitColon rest := by
  induction piece with
  | nil => rfl
  | cons char piece ih =>
      rw [List.mem_cons, not_or] at whole
      rw [List.cons_append, splitColon, ih whole.2]
      exact fun same => whole.1 same.symm

theorem splitColon_of_notMem {piece : List Char} (whole : ':' ∉ piece) :
    splitColon piece = [piece] := by
  induction piece with
  | nil => rfl
  | cons char piece ih =>
      rw [List.mem_cons, not_or] at whole
      rw [splitColon, ih whole.2]
      exact fun same => whole.1 same.symm

theorem head_splitColon (text : List Char) (pieces : List (List Char)) (piece : List Char)
    (split : splitColon text = piece :: pieces) : piece = text.takeWhile (· ≠ ':') := by
  by_cases colon : ':' ∈ text
  · obtain ⟨first, rest, shape, whole⟩ := List.eq_append_cons_of_mem colon
    rw [shape, splitColon_append whole, List.cons.injEq] at split
    have passed : ∀ char ∈ first, decide (char ≠ ':') = true := fun char member =>
      decide_eq_true fun same => whole (same ▸ member)
    rw [shape, List.takeWhile_append_of_pos passed, List.takeWhile_cons, ← split.1]
    simp
  · rw [splitColon_of_notMem colon, List.cons.injEq] at split
    have passed : ∀ char ∈ text, decide (char ≠ ':') = true := fun char member =>
      decide_eq_true fun same => colon (same ▸ member)
    rw [List.takeWhile_eq_self_iff.mpr passed, ← split.1]

/-- A text as the code cuts it: neither of the first two pieces has a colon. -/
structure Cut (text kind publicKey rest : List Char) : Prop where
  shape : text = kind ++ ':' :: (publicKey ++ ':' :: rest)
  kind : ':' ∉ kind
  publicKey : ':' ∉ publicKey

theorem Cut.eq {text kind publicKey rest kind' publicKey' rest' : List Char}
    (cut : Cut text kind publicKey rest) (other : Cut text kind' publicKey' rest') :
    kind = kind' ∧ publicKey = publicKey' ∧ rest = rest' := by
  have pieces : ∀ {kind publicKey rest : List Char}, Cut text kind publicKey rest →
      splitColon text = kind :: publicKey :: splitColon rest := by
    intro kind publicKey rest cut
    rw [cut.shape, splitColon_append cut.kind, splitColon_append cut.publicKey]
  have same := (pieces cut).symm.trans (pieces other)
  rw [List.cons.injEq, List.cons.injEq] at same
  have shapes := cut.shape.symm.trans other.shape
  rw [same.1, same.2.1] at shapes
  simp only [List.append_cancel_left_eq, List.cons.injEq, true_and] at shapes
  exact ⟨same.1, same.2.1, shapes⟩

theorem exists_cut {text first second : List Char} {pieces : List (List Char)} {third : List Char}
    (split : splitColon text = first :: second :: third :: pieces) :
    ∃ rest, Cut text first second rest ∧ third = rest.takeWhile (· ≠ ':') := by
  have cutAt : ∀ {text first : List Char} {others : List (List Char)}, others ≠ [] →
      splitColon text = first :: others →
      ∃ rest, text = first ++ ':' :: rest ∧ ':' ∉ first ∧ splitColon rest = others := by
    intro text first others more split
    by_cases colon : ':' ∈ text
    · obtain ⟨piece, rest, shape, whole⟩ := List.eq_append_cons_of_mem colon
      rw [shape, splitColon_append whole, List.cons.injEq] at split
      exact ⟨rest, split.1 ▸ shape, split.1 ▸ whole, split.2⟩
    · rw [splitColon_of_notMem colon, List.cons.injEq] at split
      exact absurd split.2.symm more
  obtain ⟨_, shape, kind, split⟩ := cutAt (List.cons_ne_nil _ _) split
  obtain ⟨rest, shape', publicKey, split⟩ := cutAt (List.cons_ne_nil _ _) split
  exact ⟨rest, ⟨shape' ▸ shape, kind, publicKey⟩, head_splitColon rest pieces third split⟩

/-! ## Reading and writing -/

section Text

variable {externals : Externals}

theorem fromKpiFormat_of_cut {text : String} {kind publicKey rest : List Char}
    (cut : Cut text.toList kind publicKey rest) : fromKpiFormat externals text = (do
      let kind ← Kind.fromStr kind
      let publicKey ← externals.hexDecode (String.ofList publicKey)
      some { kind, publicKey, identifier := String.ofList (rest.takeWhile (· ≠ ':')) }) := by
  have split : splitColon text.toList = kind :: publicKey :: splitColon rest := by
    rw [cut.shape, splitColon_append cut.kind, splitColon_append cut.publicKey]
  cases last : splitColon rest with
  | nil => exact absurd last (splitColon_ne_nil rest)
  | cons piece pieces =>
      rw [last] at split
      rw [← head_splitColon rest pieces piece last]
      unfold fromKpiFormat
      rw [split]

theorem cut_of_fromKpiFormat {text : String} {coordinate : Coordinate}
    (accepted : fromKpiFormat externals text = some coordinate) :
    ∃ kind publicKey rest, Cut text.toList kind publicKey rest ∧
      Kind.fromStr kind = some coordinate.kind ∧
      externals.hexDecode (String.ofList publicKey) = some coordinate.publicKey ∧
      coordinate.identifier.toList = rest.takeWhile (· ≠ ':') := by
  have pieces := accepted
  unfold fromKpiFormat at pieces
  split at pieces
  next kind publicKey identifier _ split =>
    obtain ⟨rest, cut, _⟩ := exists_cut split
    rw [fromKpiFormat_of_cut cut] at accepted
    obtain ⟨number, kindRead, accepted⟩ := Option.bind_eq_some_iff.mp accepted
    obtain ⟨key, keyRead, accepted⟩ := Option.bind_eq_some_iff.mp accepted
    cases accepted
    exact ⟨kind, publicKey, rest, cut, kindRead, keyRead, String.toList_ofList⟩
  next => cases pieces

/-- `Display for CoordinateBorrow` -/
def display (externals : Externals) (coordinate : Coordinate) : String :=
  toString coordinate.kind.asU16.toNat ++ ":" ++ externals.hexEncode coordinate.publicKey.val ++ ":" ++
    coordinate.identifier

/-- The derived equality; kinds are equal if their numbers are. -/
instance : BEq Coordinate where
  beq left right := left.kind == right.kind && left.publicKey == right.publicKey &&
    left.identifier == right.identifier

theorem beq_iff {left right : Coordinate} : (left == right) = true ↔
    left.kind.asU16 = right.kind.asU16 ∧ left.publicKey = right.publicKey ∧
      left.identifier = right.identifier := by
  change (_ && _ && _) = true ↔ _
  rw [Bool.and_eq_true, Bool.and_eq_true, Kind.beq_iff, beq_iff_eq, beq_iff_eq, and_assoc]

theorem hexDigit_ne_colon {digit : Nat} (small : digit < 16) : Json.hexDigit digit ≠ ':' := by
  have each : ∀ digit < 16, Json.hexDigit digit ≠ ':' := by decide
  exact each digit small

theorem colon_notMem_lowercaseHex (bytes : Bytes) : ':' ∉ (Json.lowercaseHex bytes).toList := by
  rw [Json.lowercaseHex, String.toList_ofList]
  intro member
  obtain ⟨byte, _, digit⟩ := List.mem_flatMap.mp member
  have bound := byte.toNat_lt
  rw [List.mem_pair] at digit
  cases digit with
  | inl high => exact hexDigit_ne_colon (by omega) high.symm
  | inr low => exact hexDigit_ne_colon (by omega) low.symm

theorem cut_display (hex : HexCodec externals) (coordinate : Coordinate) :
    Cut (coordinate.display externals).toList (Nat.toDigits 10 coordinate.kind.asU16.toNat)
      (Json.lowercaseHex coordinate.publicKey.val).toList coordinate.identifier.toList where
  shape := by
    simp [display, hex.encode]
  kind := notMem_toDigits rfl _
  publicKey := colon_notMem_lowercaseHex coordinate.publicKey.val

/-- Whatever its identifier, a coordinate is read back up to the first colon of
that. -/
theorem fromKpiFormat_display (hex : HexCodec externals) (coordinate : Coordinate) :
    fromKpiFormat externals (coordinate.display externals) = some {
      kind := .fromU16 coordinate.kind.asU16
      publicKey := coordinate.publicKey
      identifier := String.ofList (coordinate.identifier.toList.takeWhile (· ≠ ':')) } := by
  rw [fromKpiFormat_of_cut (cut_display hex coordinate), Kind.fromStr_toDigits,
    String.ofList_toList, hex.decode]
  rfl

end Text

theorem lowercaseHex_toLower (bytes : Bytes) :
    (Json.lowercaseHex bytes).toList.map Char.toLower = (Json.lowercaseHex bytes).toList := by
  have each : ∀ digit < 16, (Json.hexDigit digit).toLower = Json.hexDigit digit := by decide
  rw [Json.lowercaseHex, String.toList_ofList, List.map_flatMap]
  apply List.flatMap_congr
  intro byte _
  have bound := byte.toNat_lt
  rw [List.map_cons, List.map_cons, each _ (by omega), each _ (by omega), List.map_nil]

/-- The same text up to the way the number of the kind is written and to the case of
the digits of the key. -/
def SameText (left right : String) : Prop :=
  ∃ kind publicKey kind' publicKey' rest, Cut left.toList kind publicKey rest ∧
    Cut right.toList kind' publicKey' rest ∧ (Kind.fromStr kind).isSome ∧
    Kind.fromStr kind = Kind.fromStr kind' ∧
    publicKey.map Char.toLower = publicKey'.map Char.toLower

theorem takeWhile_eq_self {text : List Char} : text.takeWhile (· ≠ ':') = text ↔ ':' ∉ text := by
  rw [List.takeWhile_eq_self_iff]
  constructor
  · intro passed member
    exact of_decide_eq_true (passed ':' member) rfl
  · intro whole char member
    exact decide_eq_true fun same => whole (same ▸ member)

/-- The text of a coordinate gives the coordinate back exactly if its identifier has
no colon, and an accepted text is written again exactly if it has no third colon. -/
theorem fromKpiFormat_codec_iff (externals : Externals) (hex : HexReader externals) :
    (∀ coordinate : Coordinate, (∃ back, fromKpiFormat externals (coordinate.display externals) =
        some back ∧ (back == coordinate) = true) ↔ ':' ∉ coordinate.identifier.toList) ∧
    ∀ text coordinate, fromKpiFormat externals text = some coordinate →
      (SameText text (coordinate.display externals) ↔ text.toList.count ':' = 2) := by
  constructor
  · intro coordinate
    simp only [fromKpiFormat_display hex.toHexCodec, Option.some.injEq, exists_eq_left', beq_iff,
      Kind.asU16_fromU16, true_and]
    rw [← takeWhile_eq_self, ← String.toList_inj, String.toList_ofList]
  · intro text coordinate accepted
    obtain ⟨kind, publicKey, rest, cut, kindRead, keyRead, identifier⟩ :=
      cut_of_fromKpiFormat accepted
    have written := cut_display hex.toHexCodec coordinate
    have colons : text.toList.count ':' = 2 ↔ ':' ∉ rest := by
      rw [cut.shape, List.count_append, List.count_eq_zero.mpr cut.kind, List.count_cons_self,
        List.count_append, List.count_eq_zero.mpr cut.publicKey, List.count_cons_self,
        ← List.count_eq_zero (a := ':')]
      omega
    rw [colons, ← takeWhile_eq_self, ← identifier]
    constructor
    · intro same
      obtain ⟨_, _, _, _, common, left, right, _⟩ := same
      rw [(written.eq right).2.2, (cut.eq left).2.2]
    · intro whole
      refine ⟨kind, publicKey, _, _, rest, cut, whole ▸ written, ?_, ?_, ?_⟩
      · rw [kindRead]
        rfl
      · obtain ⟨number, _, named⟩ := Option.map_eq_some_iff.mp kindRead
        rw [kindRead, Kind.fromStr_toDigits, ← named, Kind.asU16_fromU16]
      · have lowercase := hex.read _ _ keyRead
        rw [String.toList_ofList] at lowercase
        rw [lowercase, lowercaseHex_toLower]

/-- An article of the author whose key is zero. -/
def zeroArticle (identifier : String) : Coordinate where
  kind := .custom 30023
  publicKey := .replicate 32 0
  identifier := identifier

theorem fromKpiFormat_codec_iff_article :
    (∃ back, fromKpiFormat hexExternals ((zeroArticle "post").display hexExternals) = some back ∧
      (back == zeroArticle "post") = true) ∧
    SameText ((zeroArticle "post").display hexExternals) ((zeroArticle "post").display hexExternals) := by
  have codec := fromKpiFormat_codec_iff hexExternals hexExternals_hexReader
  refine ⟨(codec.1 (zeroArticle "post")).mpr (by decide), ?_⟩
  exact (codec.2 _ _ rfl).mpr (by decide +kernel)

/-- The identifier is cut at its colon. -/
theorem fromKpiFormat_not_codec :
    fromKpiFormat hexExternals ((zeroArticle "blog:post").display hexExternals) =
      some (zeroArticle "blog") ∧ (zeroArticle "blog" == zeroArticle "blog:post") = false := by
  have cut : String.ofList ((zeroArticle "blog:post").identifier.toList.takeWhile (· ≠ ':')) =
      "blog" := by decide
  rw [fromKpiFormat_display hexExternals_hexCodec, cut]
  exact ⟨rfl, by decide⟩

end Coordinate

end RustNostr
