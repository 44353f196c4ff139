import Mathlib
import RustNostr.Library.FormUrlencoded

/-!
# Queries of URLs

What a URL parser makes of the text behind the question mark of a URL, and what of
it the pairs of the query still tell.
-/

set_option autoImplicit false

namespace RustNostr.Library

/-! ## The query of a URL -/


/-- The characters that are percent-encoded in the query of a URL whose scheme is not
special. -/
def queryEncoded (char : Char) : Bool :=
  char.toNat ≤ 32 || 126 < char.toNat || char = '"' || char = '#' || char = '<' || char = '>'

def percentEncodeQuery (text : List Char) : List Char :=
  text.flatMap fun char =>
    if queryEncoded char then (String.utf8EncodeChar char).flatMap percentEncode else [char]

def isTabOrNewline (char : Char) : Bool := char = '\t' || char = '\n' || char = '\r'

/-- C0 controls and the space, which are trimmed off the end of a URL. -/
def isC0ControlOrSpace (char : Char) : Bool := char.toNat ≤ 32

def trimEnd (text : List Char) : List Char := (text.reverse.dropWhile isC0ControlOrSpace).reverse

/-- What a parser takes for the query in the text that a URL has behind its question
mark: it trims it, takes tabs and newlines out and cuts the fragment off. -/
def queryText (text : List Char) : List Char :=
  ((trimEnd text).filter fun char => !isTabOrNewline char).takeWhile (· ≠ '#')

def urlQuery (text : List Char) : List Char := percentEncodeQuery (queryText text)

theorem percentEncodeQuery_of_plain {text : List Char}
    (plain : ∀ char ∈ text, queryEncoded char = false) : percentEncodeQuery text = text := by
  induction text with
  | nil => rfl
  | cons char text ih =>
      rw [percentEncodeQuery, List.flatMap_cons, if_neg (by simp [plain char List.mem_cons_self])]
      exact congrArg (List.cons char) (ih fun other member => plain other (.tail _ member))

theorem queryEncoded_of_formSafe {char : Char} (safe : formSafe char = true) :
    queryEncoded char = false := by
  have each : ∀ number < 128, formSafe (Char.ofNat number) = true →
      queryEncoded (Char.ofNat number) = false := by decide
  have ascii : char.toNat < 128 := by
    by_contra large
    have other : ∀ known : Char, known.toNat < 128 → char ≠ known := by
      intro known small same
      exact large (same ▸ small)
    have letter : char.isAlphanum = false := by
      rw [Bool.eq_false_iff]
      intro alphanum
      have below : char.toNat ≤ 'Z'.toNat ∨ char.toNat ≤ 'z'.toNat ∨ char.toNat ≤ '9'.toNat := by
        simp only [Char.isAlphanum, Char.isAlpha, Char.isUpper, Char.isLower, Char.isDigit,
          Bool.or_eq_true, Bool.and_eq_true, decide_eq_true_eq, or_assoc] at alphanum
        exact alphanum.imp And.right (Or.imp And.right And.right)
      have last : 'Z'.toNat < 128 ∧ 'z'.toNat < 128 ∧ '9'.toNat < 128 := by decide
      omega
    simp [formSafe, letter, other] at safe
  have found := each char.toNat ascii
  rw [Char.ofNat_toNat] at found
  exact found safe

/-! ### The text of the query -/

/-- Nothing of the text is lost behind the front of a query. -/
def Kept (text : List Char) : Prop :=
  trimEnd text = text ∧ (∀ char ∈ text, isTabOrNewline char = false) ∧ '#' ∉ text

instance (text : List Char) : Decidable (Kept text) :=
  inferInstanceAs (Decidable (_ ∧ _ ∧ _))

theorem trimEnd_of_plain {text : List Char}
    (plain : ∀ char ∈ text, isC0ControlOrSpace char = false) : trimEnd text = text := by
  have kept : text.reverse.dropWhile isC0ControlOrSpace = text.reverse := by
    refine List.dropWhile_eq_self_iff.mpr fun nonempty trimmed => ?_
    exact Bool.eq_false_iff.mp (plain _ (List.mem_reverse.mp (List.getElem_mem nonempty))) trimmed
  rw [trimEnd, kept, List.reverse_reverse]

theorem Kept.of_plain {text : List Char} (plain : ∀ char ∈ text, queryEncoded char = false) :
    Kept text := by
  refine ⟨trimEnd_of_plain fun char member => ?_, fun char member => ?_, fun member => ?_⟩
  · have shown := plain char member
    simp only [queryEncoded, Bool.or_eq_false_iff] at shown
    exact shown.1.1.1.1.1
  · rw [Bool.eq_false_iff]
    intro broken
    have shown := plain char member
    simp only [isTabOrNewline, Bool.or_eq_true, decide_eq_true_eq] at broken
    rcases broken with (rfl | rfl) | rfl <;> cases shown
  · cases plain _ member

theorem trimEnd_sublist (text : List Char) : (trimEnd text).Sublist text := by
  have trimmed := (List.dropWhile_sublist isC0ControlOrSpace (l := text.reverse)).reverse
  rwa [List.reverse_reverse] at trimmed

theorem queryText_sublist (text : List Char) : (queryText text).Sublist text :=
  ((List.takeWhile_sublist _).trans List.filter_sublist).trans (trimEnd_sublist text)

theorem queryText_of_kept {text : List Char} (kept : Kept text) : queryText text = text := by
  obtain ⟨untrimmed, unbroken, whole⟩ := kept
  have noBreak : ∀ char ∈ text, (!isTabOrNewline char) = true :=
    fun char member => by rw [unbroken char member]; rfl
  have noFragment : ∀ char ∈ text, decide (char ≠ '#') = true :=
    fun char member => decide_eq_true fun same => whole (same ▸ member)
  rw [queryText, untrimmed, List.filter_eq_self.mpr noBreak,
    List.takeWhile_eq_self_iff.mpr noFragment]

theorem queryText_eq_self {text : List Char} : queryText text = text ↔ Kept text := by
  refine ⟨fun same => ?_, queryText_of_kept⟩
  have first := (trimEnd_sublist text).length_le
  have second := List.length_filter_le (fun char => !isTabOrNewline char) (trimEnd text)
  have third := (List.takeWhile_sublist (fun char => decide (char ≠ '#'))
    (l := (trimEnd text).filter fun char => !isTabOrNewline char)).length_le
  have length := congrArg List.length same
  rw [queryText] at length
  have untrimmed : trimEnd text = text := (trimEnd_sublist text).eq_of_length (by omega)
  have unbroken : (text.filter fun char => !isTabOrNewline char) = text := by
    rw [untrimmed] at second third length
    exact List.filter_sublist.eq_of_length (by omega)
  rw [queryText, untrimmed, unbroken] at same
  refine ⟨untrimmed, fun char member => ?_, fun member => ?_⟩
  · simpa using List.filter_eq_self.mp unbroken char member
  · exact of_decide_eq_true (List.takeWhile_eq_self_iff.mp same _ member) rfl

theorem Kept.last {front : List Char} {last : Char} (kept : Kept (front ++ [last])) :
    isC0ControlOrSpace last = false := by
  rw [Bool.eq_false_iff]
  intro trimmed
  have length := congrArg List.length kept.1
  have shorter := (List.dropWhile_sublist isC0ControlOrSpace (l := front.reverse)).length_le
  rw [trimEnd, List.reverse_append, List.reverse_singleton, List.singleton_append,
    List.dropWhile_cons_of_pos trimmed, List.length_reverse, List.length_append,
    List.length_singleton] at length
  rw [List.length_reverse] at shorter
  omega

/-- What stands in front is kept if it cannot be trimmed. -/
theorem queryText_append {front : List Char} {last : Char} (kept : Kept (front ++ [last]))
    (text : List Char) : queryText (front ++ last :: text) = front ++ last :: queryText text := by
  have trimmed : trimEnd (front ++ last :: text) = (front ++ [last]) ++ trimEnd text := by
    have untouched : (last :: front.reverse).dropWhile isC0ControlOrSpace = last :: front.reverse :=
      List.dropWhile_cons_of_neg (Bool.eq_false_iff.mp kept.last)
    have shape : (front ++ last :: text).reverse = text.reverse ++ last :: front.reverse := by simp
    rw [trimEnd, shape, List.dropWhile_append]
    split
    next empty =>
      rw [untouched, trimEnd, List.isEmpty_iff.mp empty]
      simp
    next => simp [trimEnd]
  obtain ⟨_, unbroken, whole⟩ := kept
  have noBreak : ∀ char ∈ front ++ [last], (!isTabOrNewline char) = true :=
    fun char member => by rw [unbroken char member]; rfl
  have noFragment : ∀ char ∈ front ++ [last], decide (char ≠ '#') = true :=
    fun char member => decide_eq_true fun same => whole (same ▸ member)
  rw [queryText, trimmed, List.filter_append, List.filter_eq_self.mpr noBreak,
    List.takeWhile_append_of_pos noFragment, List.append_assoc]
  rfl

theorem urlQuery_of_plain {text : List Char} (plain : ∀ char ∈ text, queryEncoded char = false) :
    urlQuery text = text := by
  rw [urlQuery, queryText_of_kept (.of_plain plain), percentEncodeQuery_of_plain plain]

/-! ## Decoding what was encoded -/

/-- How the characters of a text may be written without changing what is decoded. -/
structure Rewriting (write : Char → List Char) (value : Char → Bytes) : Prop where
  percent : write '%' = ['%']
  digit : ∀ char, (hexValue char).isSome = true → write char = [char]
  other : ∀ char, hexValue char = none → ∃ head tail, write char = head :: tail ∧ hexValue head = none
  decode : ∀ char rest, char ≠ '%' →
    percentDecode (write char ++ rest) = value char ++ percentDecode rest

variable {write write' : Char → List Char} {value : Char → Bytes}

theorem escaped_of_first {first : Char} (bare : hexValue first = none) (rest : List Char) :
    escaped (first :: rest) = none := by
  cases rest with
  | nil => rfl
  | cons second rest => rw [escaped, bare]; rfl

theorem escaped_of_second {second : Char} (first : Char) (bare : hexValue second = none)
    (rest : List Char) : escaped (first :: second :: rest) = none := by
  rw [escaped, bare]
  cases hexValue first <;> rfl

theorem Rewriting.escaped_flatMap (rewriting : Rewriting write value) (text : List Char) :
    escaped (text.flatMap write) = (escaped text).map fun found => (found.1, found.2.flatMap write) := by
  cases text with
  | nil => rfl
  | cons first text =>
      rw [List.flatMap_cons]
      cases high : hexValue first with
      | none =>
          obtain ⟨head, tail, shape, bare⟩ := rewriting.other first high
          rw [shape, List.cons_append, escaped_of_first bare, escaped_of_first high]
          rfl
      | some high =>
          rw [rewriting.digit first (by rw [high]; rfl), List.singleton_append]
          cases text with
          | nil => rfl
          | cons second text =>
              rw [List.flatMap_cons]
              cases low : hexValue second with
              | none =>
                  obtain ⟨head, tail, shape, bare⟩ := rewriting.other second low
                  rw [shape, List.cons_append, escaped_of_second _ bare, escaped_of_second _ low]
                  rfl
              | some low =>
                  rw [rewriting.digit second (by rw [low]; rfl), List.singleton_append, escaped,
                    escaped, high, low]
                  rfl

theorem Rewriting.percentDecode_flatMap (rewriting : Rewriting write value)
    (rewriting' : Rewriting write' value) (text : List Char) :
    percentDecode (text.flatMap write) = percentDecode (text.flatMap write') := by
  induction length : text.length using Nat.strong_induction_on generalizing text with
  | _ count ih =>
      subst length
      cases text with
      | nil => rfl
      | cons char text =>
          have rest := ih _ (Nat.lt_succ_self _) text rfl
          rw [List.flatMap_cons, List.flatMap_cons]
          by_cases percent : char = '%'
          · subst percent
            rw [rewriting.percent, rewriting'.percent, List.singleton_append, List.singleton_append,
              percentDecode_percent, percentDecode_percent, rewriting.escaped_flatMap,
              rewriting'.escaped_flatMap, rest]
            cases escapes : escaped text with
            | none => rfl
            | some found =>
                have shorter := length_of_escaped escapes
                have same := ih _ (by rw [List.length_cons]; omega) found.2 rfl
                rw [Option.map_some, Option.map_some, Option.elim_some, Option.elim_some, same]
          · rw [rewriting.decode char _ percent, rewriting'.decode char _ percent, rest]

theorem rewriting_plusToSpace :
    Rewriting (fun char => [plusToSpace char]) fun char => String.utf8EncodeChar (plusToSpace char) where
  percent := rfl
  digit char digit := by
    have other : char ≠ '+' := fun same => by subst same; cases digit
    rw [plusToSpace, if_neg other]
  other char bare := by
    refine ⟨_, [], rfl, ?_⟩
    unfold plusToSpace
    split
    next => rfl
    next => exact bare
  decode char rest plain := by
    have other : plusToSpace char ≠ '%' := by
      unfold plusToSpace
      split
      next => decide
      next => exact plain
    rw [List.singleton_append, percentDecode_cons other]

theorem percentDecode_flatMap_percentEncode (bytes : Bytes) (rest : List Char) :
    percentDecode (bytes.flatMap percentEncode ++ rest) = bytes ++ percentDecode rest := by
  induction bytes with
  | nil => rfl
  | cons byte bytes ih =>
      rw [List.flatMap_cons, List.append_assoc, percentDecode_percentEncode, ih, List.cons_append]

theorem queryEncoded_of_digit {char : Char} (digit : (hexValue char).isSome = true) :
    queryEncoded char = false ∧ char ≠ '+' := by
  have alphanum : char.isAlphanum = true := by
    simp only [Char.isAlphanum, Char.isAlpha, Char.isUpper, Char.isLower, Char.isDigit,
      Bool.or_eq_true, Bool.and_eq_true, decide_eq_true_eq]
    unfold hexValue at digit
    split at digit
    next decimal => exact .inr decimal
    next =>
      split at digit
      next upper => exact .inl (.inl ⟨upper.1, le_trans upper.2 (by decide)⟩)
      next =>
        split at digit
        next lower => exact .inl (.inr ⟨lower.1, le_trans lower.2 (by decide)⟩)
        next => cases digit
  refine ⟨queryEncoded_of_formSafe (by rw [formSafe, alphanum]; rfl), fun same => ?_⟩
  subst same
  cases alphanum

/-- Percent-encoding with a set of characters -/
def percentEncodeSet (encoded : Char → Bool) (text : List Char) : List Char :=
  text.flatMap fun char =>
    if encoded char then (String.utf8EncodeChar char).flatMap percentEncode else [char]

/-- A set that leaves the digits and the marks of a query as they stand. -/
structure QuerySet (encoded : Char → Bool) : Prop where
  digit : ∀ char, (hexValue char).isSome = true → encoded char = false
  percent : encoded '%' = false
  plus : encoded '+' = false
  ampersand : encoded '&' = false
  equals : encoded '=' = false

theorem querySet : QuerySet queryEncoded where
  digit _ digit := (queryEncoded_of_digit digit).1
  percent := rfl
  plus := rfl
  ampersand := rfl
  equals := rfl

namespace QuerySet

variable {encoded : Char → Bool} (set : QuerySet encoded)

include set

theorem rewriting : Rewriting (fun char => (percentEncodeSet encoded [char]).map plusToSpace)
    fun char => String.utf8EncodeChar (plusToSpace char) where
  percent := by simp [percentEncodeSet, set.percent, plusToSpace]
  digit char digit := by
    have other := (queryEncoded_of_digit digit).2
    simp [percentEncodeSet, set.digit char digit, plusToSpace, other]
  other char bare := by
    cases written : encoded char with
    | true =>
        obtain ⟨byte, others, bytes⟩ := exists_utf8EncodeChar char
        have shape : percentEncodeSet encoded [char] = '%' :: (percentEncode byte).tail ++
            others.flatMap percentEncode := by
          simp [percentEncodeSet, written, bytes, percentEncode]
        exact ⟨'%', _, by rw [shape, List.cons_append, List.map_cons]; rfl, rfl⟩
    | false =>
        obtain ⟨head, tail, shape, bare⟩ := rewriting_plusToSpace.other char bare
        refine ⟨head, tail, ?_, bare⟩
        simpa [percentEncodeSet, written] using shape
  decode char rest plain := by
    cases written : encoded char with
    | true =>
        have other : char ≠ '+' := fun same => by
          subst same
          rw [set.plus] at written
          cases written
        have shape : (percentEncodeSet encoded [char]).map plusToSpace =
            (String.utf8EncodeChar char).flatMap percentEncode := by
          simp only [percentEncodeSet, List.flatMap_cons, List.flatMap_nil, written, if_true,
            List.append_nil, List.map_flatMap, map_plusToSpace_percentEncode]
        rw [shape, percentDecode_flatMap_percentEncode, plusToSpace, if_neg other]
    | false =>
        have shape : (percentEncodeSet encoded [char]).map plusToSpace = [plusToSpace char] := by
          simp [percentEncodeSet, written]
        rw [shape]
        exact rewriting_plusToSpace.decode char rest plain

theorem formDecode (text : List Char) :
    Library.formDecode (percentEncodeSet encoded text) = Library.formDecode text := by
  have same := set.rewriting.percentDecode_flatMap rewriting_plusToSpace text
  have written : text.flatMap (fun char => (percentEncodeSet encoded [char]).map plusToSpace) =
      (percentEncodeSet encoded text).map plusToSpace := by
    simp [percentEncodeSet, List.map_flatMap]
  have plus : text.flatMap (fun char => [plusToSpace char]) = text.map plusToSpace :=
    List.map_eq_flatMap.symm
  rw [written, plus] at same
  rw [Library.formDecode, same, Library.formDecode]

end QuerySet

theorem formDecode_percentEncodeQuery (text : List Char) :
    formDecode (percentEncodeQuery text) = formDecode text := querySet.formDecode text

/-! ## The pairs of a query -/

/-- What holds of the percent sign and of the digits holds of every character of an
encoded byte. -/
theorem of_mem_percentEncode {holds : Char → Prop} (sign : holds '%')
    (digits : ∀ digit < 16, holds (upperHexDigit digit)) {byte : UInt8} {char : Char}
    (member : char ∈ percentEncode byte) : holds char := by
  have bound := byte.toNat_lt
  simp only [percentEncode, List.mem_cons, List.not_mem_nil, or_false] at member
  rcases member with rfl | rfl | rfl
  · exact sign
  · exact digits _ (by omega)
  · exact digits _ (by omega)

theorem mem_percentEncode {byte : UInt8} {char : Char} (member : char ∈ percentEncode byte) :
    char ≠ '&' ∧ char ≠ '=' :=
  @of_mem_percentEncode (fun char => char ≠ '&' ∧ char ≠ '=') (by decide) (by decide) _ _ member

section Encoded

variable {encoded : Char → Bool}

theorem percentEncodeSet_cons (char : Char) (text : List Char) :
    percentEncodeSet encoded (char :: text) = percentEncodeSet encoded [char] ++ percentEncodeSet encoded text := by
  simp [percentEncodeSet]

theorem mem_of_mem_percentEncodeSet {text : List Char} {separator : Char}
    (known : separator = '&' ∨ separator = '=') (member : separator ∈ percentEncodeSet encoded text) :
    separator ∈ text := by
  obtain ⟨char, present, written⟩ := List.mem_flatMap.mp member
  split at written
  next =>
    obtain ⟨byte, _, written⟩ := List.mem_flatMap.mp written
    have other := mem_percentEncode written
    rcases known with rfl | rfl
    · exact absurd rfl other.1
    · exact absurd rfl other.2
  next =>
    cases List.mem_singleton.mp written
    exact present

theorem percentEncodeSet_eq_nil {text : List Char} : percentEncodeSet encoded text = [] ↔ text = [] := by
  refine ⟨fun empty => ?_, fun empty => by rw [empty]; rfl⟩
  cases text with
  | nil => rfl
  | cons char text =>
      have none := (List.flatMap_eq_nil_iff.mp empty) char List.mem_cons_self
      split at none
      next =>
        obtain ⟨byte, rest, bytes⟩ := exists_utf8EncodeChar char
        rw [bytes, List.flatMap_cons] at none
        cases none
      next => cases none

namespace QuerySet

variable (set : QuerySet encoded)

include set

theorem splitOn (text : List Char) :
    (percentEncodeSet encoded text).splitOn '&' = (text.splitOn '&').map (percentEncodeSet encoded) := by
  induction text with
  | nil => rfl
  | cons char text ih =>
      rw [percentEncodeSet_cons, List.splitOn_cons_eq_if_modifyHead]
      by_cases separator : char = '&'
      · subst separator
        have mark : percentEncodeSet encoded ['&'] = ['&'] := by simp [percentEncodeSet, set.ampersand]
        rw [mark, List.singleton_append, List.splitOn_cons_eq_if_modifyHead, ih]
        rfl
      · have apart : '&' ∉ percentEncodeSet encoded [char] := fun member =>
          separator (List.mem_singleton.mp (mem_of_mem_percentEncodeSet (.inl rfl) member)).symm
        rw [splitOn_append_of_notMem apart, ih, if_neg (by simpa using separator)]
        cases text.splitOn '&' with
        | nil => rfl
        | cons first rest =>
            rw [List.map_cons, List.modifyHead_cons, List.modifyHead_cons, List.map_cons,
              ← percentEncodeSet_cons]

theorem splitOnce (text : List Char) :
    Library.splitOnce ['='] (percentEncodeSet encoded text) = (Library.splitOnce ['='] text).map fun parts =>
      (percentEncodeSet encoded parts.1, percentEncodeSet encoded parts.2) := by
  cases split : Library.splitOnce ['='] text with
  | none =>
      rw [splitOnce_eq_none, List.singleton_infix_iff] at split
      rw [Option.map_none, splitOnce_eq_none, List.singleton_infix_iff]
      exact fun member => split (mem_of_mem_percentEncodeSet (.inr rfl) member)
  | some parts =>
      have shape : text = parts.1 ++ '=' :: parts.2 := eq_append_of_splitOnce split
      rw [shape] at split ⊢
      have apart := splitOnce_equals.mp split
      have mark : percentEncodeSet encoded ['='] = ['='] := by simp [percentEncodeSet, set.equals]
      have written : percentEncodeSet encoded (parts.1 ++ '=' :: parts.2) =
          percentEncodeSet encoded parts.1 ++ '=' :: percentEncodeSet encoded parts.2 := by
        rw [percentEncodeSet, List.flatMap_append]
        exact congrArg _ ((percentEncodeSet_cons '=' parts.2).trans (by rw [mark]; rfl))
      rw [written, splitOnce_equals.mpr fun member =>
        apart (mem_of_mem_percentEncodeSet (.inr rfl) member)]
      rfl

theorem queryPairs (text : List Char) :
    Library.queryPairs (percentEncodeSet encoded text) = (Library.queryPairs text).map fun pair =>
      (percentEncodeSet encoded pair.1, percentEncodeSet encoded pair.2) := by
  have same : (fun piece : List Char => !(percentEncodeSet encoded piece).isEmpty) =
      fun piece => !piece.isEmpty := by
    funext piece
    rw [Bool.eq_iff_iff]
    simp [percentEncodeSet_eq_nil]
  rw [Library.queryPairs, set.splitOn, List.filter_map, List.map_map, Library.queryPairs, List.map_map]
  change ((text.splitOn '&').filter fun piece => !(percentEncodeSet encoded piece).isEmpty).map _ = _
  rw [same]
  refine List.map_congr_left fun piece _ => ?_
  simp only [Function.comp_apply, set.splitOnce]
  cases Library.splitOnce ['='] piece <;> rfl

end QuerySet

end Encoded

theorem queryPairs_percentEncodeQuery (text : List Char) :
    queryPairs (percentEncodeQuery text) = (queryPairs text).map fun pair =>
      (percentEncodeQuery pair.1, percentEncodeQuery pair.2) := querySet.queryPairs text

/-- The pairs are read as they are written until the last, of which it depends. -/
theorem queryPairs_queryText {front : List (List Char × List Char)} {name : List Char}
    (plain : ∀ pair ∈ front, PlainPair pair) (kept : Kept (writePairs (front ++ [(name, [])])))
    (text : List Char) :
    queryPairs (queryText (writePairs (front ++ [(name, text)]))) =
      front ++ queryPairs (name ++ '=' :: queryText text) := by
  cases front with
  | nil =>
      have single (value : List Char) : writePairs [(name, value)] = name ++ '=' :: value := by
        rw [writePairs_cons]
        exact List.append_nil _
      rw [List.nil_append, single] at kept ⊢
      rw [queryText_append kept, List.nil_append]
  | cons first rest =>
      have shape (value : List Char) : writePairs (first :: rest ++ [(name, value)]) =
          (writePairs (first :: rest) ++ '&' :: name) ++ '=' :: value := by
        rw [writePairs_append (List.cons_ne_nil first rest), writePair, List.append_assoc,
          List.cons_append]
      rw [shape] at kept ⊢
      rw [queryText_append kept, List.append_assoc, List.cons_append, queryPairs_append,
        queryPairs_writePairs plain]

/-- A value that is read as it is written. -/
def Transparent (text : List Char) : Prop :=
  Kept text ∧ '&' ∉ text ∧ '+' ∉ text ∧ hasEscape text = false

instance (text : List Char) : Decidable (Transparent text) :=
  inferInstanceAs (Decidable (_ ∧ _ ∧ _ ∧ _))

section Values

variable {name text : List Char} (plain : '&' ∉ name ∧ '=' ∉ name)

include plain

theorem Transparent.queryPairs (transparent : Transparent text) :
    queryPairs (name ++ '=' :: queryText text) = [(name, text)] ∧ formDecode text = text := by
  obtain ⟨kept, single, decodes⟩ := transparent
  refine ⟨?_, formDecode_eq_self.mpr decodes⟩
  rw [queryText_of_kept kept]
  exact @queryPairs_writePair (name, text) ⟨plain.1, plain.2, single⟩

/-- Decoding does not lengthen a value, so that a text is read from no part of it. -/
theorem transparent_of_mem {pair : List Char × List Char}
    (member : pair ∈ queryPairs (name ++ '=' :: queryText text))
    (same : formDecode pair.2 = text) : Transparent text := by
  have value := length_of_mem_queryPairs plain member
  have decoded := length_formDecode pair.2
  have shorter := (queryText_sublist text).length_le
  rw [same] at decoded
  have whole : queryText text = text := (queryText_sublist text).eq_of_length (by omega)
  have single : '&' ∉ text := by
    intro member
    rw [whole, if_pos member] at value
    omega
  rw [whole, ← writePair.eq_def (name, text),
    @queryPairs_writePair (name, text) ⟨plain.1, plain.2, single⟩] at member
  cases List.mem_singleton.mp member
  exact ⟨queryText_eq_self.mp whole, single, formDecode_eq_self.mp same⟩

end Values

end RustNostr.Library
