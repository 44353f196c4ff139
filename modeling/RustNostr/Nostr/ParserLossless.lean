import Mathlib
import RustNostr.Nostr.Parser

/-!
# The parser loses nothing

Every match begins and ends between two characters, behind the one before. So every
slice can be taken, and the tokens stand for slices that make up the text.
-/

set_option autoImplicit false

namespace RustNostr.Parser

open Library

/-! ## Matches -/

/-- A match that can be cut out of the text. -/
structure GoodMatch (text : List Char) (found : Match) : Prop where
  start : Boundary text found.start
  stop : Boundary text found.stop
  nonempty : found.start < found.stop
  hashtag : found.type = .hashtag → (encodeChars text)[found.start]? = some 0x23
  lineBreak : found.type = .lineBreak →
    (encodeChars text)[found.start]? = some 0x0A ∧ found.stop = found.start + 1

/-- An attempt at a position that does not panic and finds good matches only. -/
def Answers (text : List Char) (position : Nat) (outcome : Option (Option Match)) : Prop :=
  ∃ result, outcome = some result ∧
    ∀ found, result = some found → GoodMatch text found ∧ found.start = position

theorem Answers.none {text : List Char} {position : Nat} : Answers text position (some none) :=
  ⟨Option.none, rfl, fun _ impossible => nomatch impossible⟩

theorem Answers.some {text : List Char} {found : Match} (good : GoodMatch text found) :
    Answers text found.start (some (some found)) := by
  refine ⟨_, rfl, ?_⟩
  intro other same
  cases same
  exact ⟨good, rfl⟩

namespace FindMatches

section Attempts

variable {finder : FindMatches} (boundary : Boundary finder.text finder.pos)
  (inside : finder.pos < finder.bytes.length)

theorem exists_byte (inside : finder.pos < finder.bytes.length) :
    ∃ byte, finder.bytes[finder.pos]? = some byte :=
  ⟨_, List.getElem?_eq_getElem inside⟩

theorem from?_of_boundary {text : List Char} {position : Nat} (boundary : Boundary text position) :
    ∃ before after, text = before ++ after ∧ byteLength before = position ∧
      (wholeText text).from? position = some ⟨position, after⟩ := by
  obtain ⟨before, after, shape, length⟩ := boundary
  refine ⟨before, after, shape, length, ?_⟩
  rw [shape, ← length, wholeText, TextSlice.from?_append, Nat.zero_add]

include boundary inside in
theorem tryParseLineBreak_answers : Answers finder.text finder.pos finder.tryParseLineBreak := by
  obtain ⟨byte, found⟩ := exists_byte inside
  rw [tryParseLineBreak, found]
  change Answers _ _ (if byte ≠ 0x0A then _ else _)
  split
  next => exact .none
  next same =>
    have newline : byte = 0x0A := not_not.mp same
    subst newline
    apply @Answers.some _ ⟨.lineBreak, finder.pos, finder.pos + 1⟩
    exact {
      start := boundary
      stop := boundary.succ found (by decide)
      nonempty := Nat.lt_succ_self _
      hashtag := fun impossible => nomatch impossible
      lineBreak := fun _ => ⟨found, rfl⟩ }

include boundary inside in
theorem tryParseHashtag_answers : Answers finder.text finder.pos finder.tryParseHashtag := by
  obtain ⟨byte, found⟩ := exists_byte inside
  rw [tryParseHashtag, found]
  change Answers _ _ (if byte ≠ 0x23 then _ else _)
  split
  next => exact .none
  next same =>
    have sign : byte = 0x23 := not_not.mp same
    subst sign
    have preceded : ∃ answer, finder.isPreceded = some answer := by
      unfold isPreceded
      split
      next => exact ⟨true, rfl⟩
      next =>
        rw [List.getElem?_eq_getElem (lt_of_le_of_lt (Nat.sub_le _ 1) inside)]
        exact ⟨_, rfl⟩
    obtain ⟨answer, decided⟩ := preceded
    rw [decided]
    change Answers _ _ (if !answer then _ else _)
    split
    next => exact .none
    next =>
      obtain ⟨before, char, after, shape, length, same⟩ := boundary.exists_ascii found (by decide)
      have rest : (wholeText finder.text).from? finder.pos = some ⟨finder.pos, char :: after⟩ := by
        rw [shape, ← length, wholeText, TextSlice.from?_append, Nat.zero_add]
      rw [rest]
      let name := after.takeWhile fun ch => !isForbiddenHashtagChar ch
      change Answers _ _ (if finder.pos + 1 + byteLength name ≤ finder.pos + 1 then _ else _)
      split
      next => exact .none
      next nonempty =>
        apply @Answers.some _ ⟨.hashtag, finder.pos, finder.pos + 1 + byteLength name⟩
        have parts : name ++ after.dropWhile (fun ch => !isForbiddenHashtagChar ch) = after :=
          List.takeWhile_append_dropWhile
        exact {
          start := boundary
          stop := by
            refine ⟨before ++ char :: name,
              after.dropWhile (fun ch => !isForbiddenHashtagChar ch), ?_, ?_⟩
            · rw [List.append_assoc, List.cons_append, parts, shape]
            · have one : char.utf8Size = 1 := utf8Size_of_ascii (by rw [same]; decide)
              rw [byteLength_append, byteLength_cons, one, length, Nat.add_assoc]
          nonempty := by
            change finder.pos < finder.pos + 1 + byteLength name
            omega
          hashtag := fun _ => found
          lineBreak := fun impossible => nomatch impossible }

theorem take_of_isAt {bytes pattern : Bytes} {position : Nat} (at_ : isAt bytes position pattern = true) :
    (bytes.drop position).take pattern.length = pattern := eq_of_beq at_

theorem toNat_lt_of_isAsciiAlphanumeric {byte : UInt8} (kept : isAsciiAlphanumeric byte = true) :
    byte.toNat < 128 := by
  simp only [isAsciiAlphanumeric, isAsciiAlphabetic, Bool.or_eq_true, decide_eq_true_eq,
    UInt8.le_iff_toNat_le, UInt8.reduceToNat] at kept
  omega

theorem toNat_lt_of_isSchemeByte {byte : UInt8} (kept : isSchemeByte byte = true) :
    byte.toNat < 128 := by
  rw [isSchemeByte, Bool.or_eq_true] at kept
  cases kept with
  | inl alphanumeric => exact toNat_lt_of_isAsciiAlphanumeric alphanumeric
  | inr symbol =>
      have symbols : ∀ byte ∈ ([0x2B, 0x2D, 0x2E] : Bytes), byte.toNat < 128 := by
        decide +kernel
      exact symbols byte (List.contains_iff_mem.mp symbol)

theorem toNat_lt_of_isAllowedUrlByte {byte : UInt8} (kept : isAllowedUrlByte byte = true) :
    byte.toNat < 128 := by
  rw [isAllowedUrlByte, Bool.or_eq_true] at kept
  cases kept with
  | inl alphanumeric => exact toNat_lt_of_isAsciiAlphanumeric alphanumeric
  | inr symbol =>
      have symbols : ∀ byte ∈ ([0x2D, 0x2E, 0x5F, 0x7E, 0x3A, 0x2F, 0x3F, 0x23, 0x5B, 0x5D, 0x40, 0x21, 0x24,
        0x26, 0x27, 0x28, 0x29, 0x2A, 0x2B, 0x2C, 0x3B, 0x3D, 0x25] : Bytes), byte.toNat < 128 := by
        decide +kernel
      exact symbols byte (List.contains_iff_mem.mp symbol)

theorem nip19Prefixes_ascii : ∀ entity ∈ nip19Prefixes, ∀ char ∈ entity.toList, char.toNat < 128 := by
  simp [nip19Prefixes]

include boundary in
theorem tryParseNostrUri_good {Uri Url : Type} {readers : Readers Uri Url}
    (asciiOnly : ∀ char, readers.isFe32 char = true → char.toNat < 128) {found : Match}
    (parsed : finder.tryParseNostrUri readers = some found) :
    GoodMatch finder.text found ∧ found.start = finder.pos := by
  unfold tryParseNostrUri at parsed
  split at parsed
  next => cases parsed
  next scheme =>
    have scheme : isAt finder.bytes finder.pos (utf8 "nostr:") = true := by simpa using scheme
    have six : (utf8 "nostr:").length = 6 := by decide +kernel
    have schemeRun := AsciiRun.of_take (take_of_isAt scheme) (by decide +kernel)
    rw [six] at schemeRun
    have behindScheme := boundary.of_asciiRun (Nat.le_add_right _ 6) schemeRun
    obtain ⟨before, after, shape, length, data⟩ := from?_of_boundary behindScheme
    rw [data] at parsed
    simp only [Option.bind_eq_bind, Option.bind_some] at parsed
    obtain ⟨entity, prefixed, parsed⟩ := Option.bind_eq_some_iff.mp parsed
    have listed := List.mem_of_find?_eq_some prefixed
    have entityAscii := nip19Prefixes_ascii entity listed
    have begins : entity.toList.isPrefixOf after = true :=
      @List.find?_some String (fun entity => entity.toList.isPrefixOf after) _ _ prefixed
    obtain ⟨rest, written⟩ := List.isPrefixOf_iff_prefix.mp begins
    have behindEntity : Boundary finder.text (finder.pos + 6 + entity.length) := by
      refine ⟨before ++ entity.toList, rest, ?_, ?_⟩
      · rw [List.append_assoc, written, shape]
      · rw [byteLength_append, length, byteLength_of_ascii entityAscii, String.length_toList]
    split at parsed
    next => cases parsed
    next one =>
      have separator : finder.bytes[finder.pos + 6 + entity.length]? = some 0x31 := not_not.mp one
      have behindSeparator := behindEntity.succ separator (by decide)
      obtain ⟨before', after', shape', length', bech32⟩ := from?_of_boundary behindSeparator
      rw [bech32] at parsed
      change (if (after'.takeWhile readers.isFe32).length = 0 then _ else _) = _ at parsed
      split at parsed
      next => cases parsed
      next =>
        cases parsed
        refine ⟨?_, rfl⟩
        have parts : after'.takeWhile readers.isFe32 ++ after'.dropWhile readers.isFe32 = after' :=
          List.takeWhile_append_dropWhile
        have charsAscii : ∀ char ∈ after'.takeWhile readers.isFe32, char.toNat < 128 :=
          fun char member => asciiOnly char (List.mem_takeWhile_imp member)
        exact {
          start := boundary
          stop := by
            refine ⟨before' ++ after'.takeWhile readers.isFe32, after'.dropWhile readers.isFe32, ?_, ?_⟩
            · rw [List.append_assoc, parts, shape']
            · rw [byteLength_append, length', byteLength_of_ascii charsAscii]
          nonempty := by
            change finder.pos < finder.pos + 6 + entity.length + 1 + _
            omega
          hashtag := fun impossible => nomatch impossible
          lineBreak := fun impossible => nomatch impossible }

include inside in
/-- The scheme and its separator are ASCII. -/
theorem findPostUrlSchemePosition_spec : ∃ result, finder.findPostUrlSchemePosition = some result ∧
    ∀ after, result = some after → finder.pos < after ∧ AsciiRun finder.bytes finder.pos after := by
  obtain ⟨byte, found⟩ := exists_byte inside
  rw [findPostUrlSchemePosition, found]
  change ∃ result, (if !isAsciiAlphabetic byte then _ else _) = some result ∧ _
  split
  next =>
    refine ⟨none, rfl, fun after impossible => ?_⟩
    cases impossible
  next alphabetic =>
    have first : AsciiRun finder.bytes finder.pos (finder.pos + 1) := by
      intro index after before
      have same : index = finder.pos := by omega
      subst same
      refine ⟨byte, found, toNat_lt_of_isAsciiAlphanumeric ?_⟩
      rw [isAsciiAlphanumeric, Bool.or_eq_true]
      exact .inl (by simpa using alphabetic)
    have scheme := @AsciiRun.takeWhile finder.bytes (finder.pos + 1) isSchemeByte
      fun _ kept => toNat_lt_of_isSchemeByte kept
    split
    next separator =>
      refine ⟨_, rfl, ?_⟩
      intro after same
      cases same
      have colon := AsciiRun.of_take (take_of_isAt separator) (by decide +kernel)
      have three : (utf8 "://").length = 3 := by decide +kernel
      rw [three] at colon
      exact ⟨by omega, (first.append scheme).append colon⟩
    next =>
      refine ⟨none, rfl, fun after impossible => ?_⟩
      cases impossible

theorem findUrlEnd_spec {after stop : Nat} (found : finder.findUrlEnd after = some stop) :
    after < stop ∧ AsciiRun finder.bytes after stop := by
  unfold findUrlEnd at found
  dsimp only at found
  split at found
  next => cases found
  next nonempty =>
    cases found
    refine ⟨not_le.mp nonempty, AsciiRun.takeWhile ?_⟩
    intro byte kept
    apply toNat_lt_of_isAllowedUrlByte
    simp only [Bool.not_or, Bool.not_not, Bool.and_eq_true] at kept
    exact kept.2

theorem trimPunctuation_spec {after stop : Nat} (order : after ≤ stop)
    (within : stop ≤ finder.bytes.length) :
    ∃ last, finder.trimPunctuation after stop = some last ∧ after ≤ last ∧ last ≤ stop := by
  induction stop with
  | zero => exact ⟨0, rfl, order, le_refl 0⟩
  | succ stop ih =>
      rw [trimPunctuation]
      split
      next longer =>
        rw [List.getElem?_eq_getElem (Nat.lt_of_succ_le within)]
        change ∃ last, (if isUrlTrailingPunctuation _ then _ else _) = some last ∧ _
        split
        next =>
          obtain ⟨last, trimmed, from_, to_⟩ := ih (Nat.le_of_lt_succ longer) (Nat.le_of_succ_le within)
          exact ⟨last, trimmed, from_, Nat.le_succ_of_le to_⟩
        next => exact ⟨stop + 1, rfl, order, le_refl _⟩
      next => exact ⟨stop + 1, rfl, order, le_refl _⟩

theorem trimUrlEnd_spec {start after stop : Nat} (first : start ≤ after) (order : after ≤ stop)
    (within : stop ≤ finder.bytes.length) :
    ∃ last, finder.trimUrlEnd start after stop = some last ∧ last ≤ stop := by
  obtain ⟨trimmed, found, from_, to_⟩ := trimPunctuation_spec order within
  rw [trimUrlEnd, found]
  change ∃ last, (if after < trimmed then _ else _) = some last ∧ _
  split
  next longer =>
    rw [List.getElem?_eq_getElem (show trimmed - 1 < finder.bytes.length by omega)]
    change ∃ last, (if finder.bytes[trimmed - 1] = 0x29 then _ else _) = some last ∧ _
    split
    next =>
      unfold handleParenthesesMatching
      rw [if_pos ⟨by omega, by omega⟩]
      dsimp only
      split
      next => exact ⟨trimmed - 1, rfl, by omega⟩
      next => exact ⟨trimmed, rfl, to_⟩
    next => exact ⟨trimmed, rfl, to_⟩
  next => exact ⟨trimmed, rfl, to_⟩

include boundary inside in
theorem tryParseUrl_answers : Answers finder.text finder.pos finder.tryParseUrl := by
  obtain ⟨scheme, answered, schemeRun⟩ := findPostUrlSchemePosition_spec inside
  rw [tryParseUrl, answered]
  cases scheme with
  | none => exact .none
  | some after =>
      obtain ⟨later, run⟩ := schemeRun after rfl
      simp only [Option.bind_eq_bind, Option.bind_some]
      cases found : finder.findUrlEnd after with
      | none => exact .none
      | some stop =>
          obtain ⟨longer, urlRun⟩ := findUrlEnd_spec found
          obtain ⟨last, trimmed, shorter⟩ := trimUrlEnd_spec (Nat.le_of_lt later) (Nat.le_of_lt longer)
            (urlRun.le_length longer)
          simp only [trimmed, Option.bind_some]
          split
          next => exact .none
          next nonempty =>
            apply @Answers.some _ ⟨.url, finder.pos, last⟩
            exact {
              start := boundary
              stop := boundary.of_asciiRun (show finder.pos ≤ last by omega)
                ((run.append urlRun).mono shorter)
              nonempty := by
                change finder.pos < last
                omega
              hashtag := fun impossible => nomatch impossible
              lineBreak := fun impossible => nomatch impossible }

theorem orElse_answers {text : List Char} {position : Nat} {enabled : Bool}
    {pattern rest : Option (Option Match)} (first : Answers text position pattern)
    (second : Answers text position rest) : Answers text position (orElse enabled pattern rest) := by
  unfold FindMatches.orElse
  split
  next =>
    obtain ⟨result, answered, good⟩ := first
    subst answered
    cases result with
    | none => exact second
    | some found => exact ⟨some found, rfl, good⟩
  next => exact second

section Reading

variable {Uri Url : Type} {readers : Readers Uri Url}
  (asciiOnly : ∀ char, readers.isFe32 char = true → char.toNat < 128)

include boundary inside asciiOnly in
theorem tryParse_answers : Answers finder.text finder.pos (finder.tryParse readers) := by
  have nostrUri : Answers finder.text finder.pos (some (finder.tryParseNostrUri readers)) :=
    ⟨_, rfl, fun _ parsed => tryParseNostrUri_good boundary asciiOnly parsed⟩
  exact orElse_answers (tryParseLineBreak_answers boundary inside)
    (orElse_answers (tryParseHashtag_answers boundary inside)
      (orElse_answers nostrUri (orElse_answers (tryParseUrl_answers boundary inside) .none)))

include boundary inside in
theorem advance_spec : ∃ position, finder.advance = some position ∧ finder.pos < position ∧
    Boundary finder.text position := by
  obtain ⟨byte, found⟩ := exists_byte inside
  have advanced : ∃ position, finder.advance = some position ∧ Boundary finder.text position := by
    rw [advance, found]
    change ∃ position, (if byte < 128 then _ else _) = some position ∧ _
    split
    next ascii => exact ⟨_, rfl, boundary.succ found (UInt8.lt_iff_toNat_lt.mp ascii)⟩
    next =>
      obtain ⟨before, after, shape, length, rest⟩ := from?_of_boundary boundary
      rw [rest]
      refine ⟨_, rfl, ?_⟩
      cases after with
      | nil =>
          rw [List.append_nil] at shape
          rw [bytes, shape] at inside
          exact absurd length (Nat.ne_of_gt inside)
      | cons char after =>
          refine ⟨before ++ [char], after, ?_, ?_⟩
          · rw [List.append_assoc, List.singleton_append, shape]
          · rw [byteLength_append, byteLength_cons, length]
            rfl
  obtain ⟨position, answered, next⟩ := advanced
  exact ⟨position, answered, advance_gt answered, next⟩

include asciiOnly in
/-- The finder goes on to a boundary, and what it has found lies between. -/
theorem next_spec (finder : FindMatches) (boundary : Boundary finder.text finder.pos) :
    ∃ found later, next readers finder = some (found, later) ∧ later.text = finder.text ∧
      later.opts = finder.opts ∧ Boundary finder.text later.pos ∧ finder.pos ≤ later.pos ∧
      (found = none → finder.bytes.length ≤ later.pos) ∧
      ∀ match_, found = some match_ →
        GoodMatch finder.text match_ ∧ finder.pos ≤ match_.start ∧ match_.stop = later.pos := by
  induction finder using FindMatches.next.induct readers with
  | case1 finder inside panicked =>
      obtain ⟨_, answered, _⟩ := tryParse_answers boundary inside asciiOnly
      rw [panicked] at answered
      cases answered
  | case2 finder inside match_ found =>
      obtain ⟨_, answered, good⟩ := tryParse_answers boundary inside asciiOnly
      rw [found] at answered
      cases answered
      obtain ⟨goodMatch, start⟩ := good match_ rfl
      refine ⟨some match_, { finder with pos := match_.stop }, ?_, rfl, rfl, goodMatch.stop, ?_, ?_, ?_⟩
      · rw [next, if_pos inside, found]
      · exact start ▸ Nat.le_of_lt goodMatch.nonempty
      · intro impossible
        cases impossible
      · intro other same
        cases same
        exact ⟨goodMatch, Nat.le_of_eq start.symm, rfl⟩
  | case3 finder inside none_ panicked =>
      obtain ⟨_, advanced, _⟩ := advance_spec boundary inside
      rw [panicked] at advanced
      cases advanced
  | case4 finder inside none_ position advanced ih =>
      obtain ⟨_, answered, later, boundary'⟩ := advance_spec boundary inside
      rw [advanced] at answered
      cases answered
      obtain ⟨found, last, ran, text, opts, at_, order, exhausted, good⟩ := ih boundary'
      refine ⟨found, last, ?_, text, opts, at_, le_trans (Nat.le_of_lt later) order, exhausted, ?_⟩
      · rw [next, if_pos inside, none_]
        dsimp only
        split
        next refused =>
          rw [advanced] at refused
          cases refused
        next position' advanced' =>
          rw [advanced] at advanced'
          cases advanced'
          exact ran
      · intro match_ same
        obtain ⟨goodMatch, start, stop⟩ := good match_ same
        exact ⟨goodMatch, le_trans (Nat.le_of_lt later) start, stop⟩
  | case5 finder outside =>
      refine ⟨none, finder, ?_, rfl, rfl, boundary, le_refl _, fun _ => not_lt.mp outside, ?_⟩
      · rw [next, if_neg outside]
      · intro match_ impossible
        cases impossible

end Reading

end Attempts

end FindMatches

/-! ## Tokens -/

variable {Uri Url : Type}

/-- The part of the text that a token stands for reads as the token says. -/
def StandsFor (readers : Readers Uri Url) : Spanned Uri Url → Prop
  | (.nostr uri, span) => readers.parseUri (String.ofList span.chars) = some uri
  | (.url url, span) => readers.parseUrl (String.ofList span.chars) = some url
  | (.hashtag name, span) => span.chars = '#' :: name.chars ∧ name.start = span.start + 1
  | (.text text, span) => text = span
  | (.lineBreak, span) => span.chars = ['\n']
  | (.whitespace, span) => span.chars = [' ']

/-- A part of the text that is not empty. -/
structure Part (text : List Char) (span : TextSlice) : Prop where
  within : span.Within text
  nonempty : span.chars ≠ []

/-- A part cut in two. -/
theorem Part.split {text front back : List Char} {str : TextSlice} (part : Part text str)
    (shape : str.chars = front ++ back) (frontNonempty : front ≠ []) (backNonempty : back ≠ []) :
    str.to? (byteLength front) = some ⟨str.start, front⟩ ∧
      str.from? (byteLength front) = some ⟨str.start + byteLength front, back⟩ ∧
      Part text ⟨str.start, front⟩ ∧ Part text ⟨str.start + byteLength front, back⟩ := by
  obtain ⟨start, chars⟩ := str
  subst shape
  exact ⟨TextSlice.to?_append start front back, TextSlice.from?_append start front back,
    ⟨part.within.front, frontNonempty⟩, ⟨part.within.back, backNonempty⟩⟩

/-- A part at the front of what is left of the text. -/
theorem Part.exists_rest {text before rest : List Char} {span : TextSlice} (part : Part text span)
    (shape : text = before ++ rest) (start : span.start = byteLength before) :
    ∃ rest', rest = span.chars ++ rest' := by
  obtain ⟨before', after, shape', length⟩ := part.within
  obtain ⟨middle, first, second⟩ :=
    exists_between (shape.symm.trans shape') (Nat.le_of_eq (start.symm.trans length.symm))
  have none : middle = [] := by
    rw [← byteLength_eq_zero]
    rw [first, byteLength_append] at length
    omega
  rw [none, List.nil_append] at second
  exact ⟨after, second⟩

/-- Behind a first character of one byte comes more, if there are more bytes. -/
theorem exists_rest {chars : List Char} {char : Char} (one : char.utf8Size = 1)
    (begins : chars.head? = some char) (more : 1 < byteLength chars) :
    ∃ rest, chars = [char] ++ rest ∧ rest ≠ [] := by
  cases chars with
  | nil => cases begins
  | cons first rest =>
      cases begins
      refine ⟨rest, rfl, ?_⟩
      intro none
      rw [none, byteLength_cons, one, byteLength_nil] at more
      exact absurd more (Nat.lt_irrefl 1)

namespace NostrParserIter

/-- Where the text goes on behind what is pending as text. -/
def resume (iter : NostrParserIter Uri Url) : Nat :=
  (iter.pendingMatch.map Match.start).getD iter.lastMatchEnd

/-- The cursors of the iterator and of its finder. -/
structure Cursors (text : List Char) (iter : NostrParserIter Uri Url) : Prop where
  sameText : iter.text = text
  finderText : iter.finder.text = text
  opts : iter.finder.opts.text = true
  finderPos : Boundary text iter.finder.pos
  lastMatchEnd : Boundary text iter.lastMatchEnd
  order : iter.lastMatchEnd ≤ iter.finder.pos
  pendingMatch : ∀ found, iter.pendingMatch = some found →
    GoodMatch text found ∧ found.stop = iter.finder.pos

/-- Where the next token begins. -/
inductive Pending (readers : Readers Uri Url) (text : List Char) (iter : NostrParserIter Uri Url) :
    Nat → Prop where
  | token {token : Spanned Uri Url} (pending : iter.pendingToken = some token)
      (noStr : iter.pendingStrMatch = none) (stands : StandsFor readers token)
      (part : Part text token.2) (resumes : token.2.stop = iter.resume) : Pending readers text iter token.2.start
  | str {str : TextSlice} (noToken : iter.pendingToken = none) (pending : iter.pendingStrMatch = some str)
      (part : Part text str) (resumes : str.stop = iter.resume) : Pending readers text iter str.start
  | clear (noToken : iter.pendingToken = none) (noStr : iter.pendingStrMatch = none) :
      Pending readers text iter iter.resume

/-- A step that yields a token for the text from the position on. -/
def Yields (readers : Readers Uri Url) (text : List Char) (position : Nat)
    (outcome : Option (Step Uri Url)) : Prop :=
  ∃ token later, outcome = some (.token token later) ∧ StandsFor readers token ∧
    Part text token.2 ∧ token.2.start = position ∧ Cursors text later ∧
    Pending readers text later token.2.stop

section Steps

variable {readers : Readers Uri Url} {text : List Char} {iter : NostrParserIter Uri Url}

/-- The first character is a token, and the others are pending. -/
theorem leading_yields (cursors : Cursors text iter) (noToken : iter.pendingToken = none)
    {str : TextSlice} (part : Part text str) (resumes : str.stop = iter.resume) {char : Char}
    (one : char.utf8Size = 1) (begins : str.chars.head? = some char)
    (more : 1 < byteLength str.chars) {token : Token Uri Url}
    (stands : ∀ start, StandsFor readers (token, ⟨start, [char]⟩)) :
    Yields readers text str.start (do
      let first ← str.to? 1
      let rest ← str.from? 1
      some (.token (token, first) { iter with pendingStrMatch := some rest })) := by
  obtain ⟨rest, shape, nonempty⟩ := exists_rest one begins more
  have single : byteLength [char] = 1 := by rw [byteLength_cons, one, byteLength_nil]
  obtain ⟨first, second, firstPart, restPart⟩ :=
    part.split shape (List.cons_ne_nil char []) nonempty
  rw [single] at first second restPart
  rw [first, second]
  refine ⟨_, _, rfl, stands _, firstPart, rfl, { cursors with }, ?_⟩
  have stop : (TextSlice.mk str.start [char]).stop = str.start + 1 := by rw [TextSlice.stop, single]
  rw [stop]
  have parts : str.stop = (TextSlice.mk str.start ([char] ++ rest)).stop := by rw [← shape]
  have resumes' : (TextSlice.mk (str.start + 1) rest).stop = iter.resume := by
    rw [← single, TextSlice.stop_append, ← parts, resumes]
  exact @Pending.str _ _ readers text { iter with pendingStrMatch := some ⟨str.start + 1, rest⟩ } _
    noToken rfl restPart resumes'

theorem handleStrAsText_yields (cursors : Cursors text iter) (noToken : iter.pendingToken = none)
    (noStr : iter.pendingStrMatch = none) {str : TextSlice} (part : Part text str)
    (resumes : str.stop = iter.resume) :
    Yields readers text str.start (iter.handleStrAsText str) := by
  have whole : ∀ token : Token Uri Url, StandsFor readers (token, str) →
      Yields readers text str.start (some (.token (token, str) iter)) := by
    intro token stands
    exact ⟨_, _, rfl, stands, part, rfl, cursors, resumes ▸ .clear noToken noStr⟩
  unfold handleStrAsText
  split
  next newline => exact whole .lineBreak newline
  next =>
    split
    next newline =>
      exact leading_yields cursors noToken part resumes (by decide) newline.1 newline.2 fun _ => rfl
    next =>
      split
      next space => exact whole .whitespace space
      next =>
        split
        next space =>
          exact leading_yields cursors noToken part resumes (by decide) space.1 space.2 fun _ => rfl
        next =>
          split
          next space =>
            obtain ⟨front, shape⟩ := List.getLast?_eq_some_iff.mp space.1
            have single : byteLength [' '] = 1 := by decide
            have length : byteLength str.chars - 1 = byteLength front := by
              rw [shape, byteLength_append, single, Nat.add_sub_cancel]
            have nonempty : front ≠ [] := by
              intro none
              rw [shape, none, List.nil_append, single] at space
              exact absurd space.2 (Nat.lt_irrefl 1)
            obtain ⟨first, second, frontPart, backPart⟩ :=
              part.split shape nonempty (List.cons_ne_nil ' ' [])
            rw [length, first, second]
            refine ⟨_, _, rfl, rfl, frontPart, rfl, { cursors with }, ?_⟩
            have parts : str.stop = (TextSlice.mk str.start (front ++ [' '])).stop := by rw [← shape]
            have resumes' : (TextSlice.mk (str.start + byteLength front) [' ']).stop = iter.resume := by
              rw [TextSlice.stop_append, ← parts, resumes]
            let pending : Spanned Uri Url := (.whitespace, ⟨str.start + byteLength front, [' ']⟩)
            exact @Pending.token _ _ readers text { iter with pendingToken := some pending } _
              rfl noStr rfl backPart resumes'
          next => exact whole (.text str) rfl

theorem handleUnread_yields (cursors : Cursors text iter) (noToken : iter.pendingToken = none)
    (noStr : iter.pendingStrMatch = none) {data : TextSlice} (part : Part text data)
    (resumes : data.stop = iter.resume) :
    Yields readers text data.start (iter.handleUnread data) := by
  rw [handleUnread, if_pos cursors.opts]
  exact handleStrAsText_yields cursors noToken noStr part resumes

theorem handleMatch_yields (cursors : Cursors text iter) (noToken : iter.pendingToken = none)
    (noStr : iter.pendingStrMatch = none) (noMatch : iter.pendingMatch = none) {found : Match}
    (good : GoodMatch text found) (stop : found.stop = iter.finder.pos) :
    Yields readers text found.start (iter.handleMatch readers found) := by
  obtain ⟨data, cut, dataStart, dataStop, within⟩ :=
    TextSlice.range?_eq_some good.start good.stop (Nat.le_of_lt good.nonempty)
  have nonempty : data.chars ≠ [] := by
    intro none
    have longer := good.nonempty
    rw [← dataStart, ← dataStop, TextSlice.stop, none, byteLength_nil] at longer
    exact absurd longer (Nat.lt_irrefl _)
  have part : Part text data := ⟨within, nonempty⟩
  have cursors' : Cursors text { iter with lastMatchEnd := found.stop } :=
    { cursors with lastMatchEnd := good.stop, order := Nat.le_of_eq stop }
  have resumes : data.stop = { iter with lastMatchEnd := found.stop }.resume := by
    rw [dataStop, resume, noMatch]
    rfl
  have whole : ∀ token : Token Uri Url, StandsFor readers (token, data) →
      Yields readers text data.start
        (some (.token (token, data) { iter with lastMatchEnd := found.stop })) := by
    intro token stands
    exact ⟨_, _, rfl, stands, part, rfl, cursors', resumes ▸ .clear noToken noStr⟩
  have unread : Yields readers text data.start
      ({ iter with lastMatchEnd := found.stop }.handleUnread data) :=
    handleUnread_yields cursors' noToken noStr part resumes
  have cut : (wholeText iter.text).range? found.start found.stop = some data := by
    rw [cursors.sameText]
    exact cut
  unfold handleMatch
  dsimp only
  rw [cut, ← dataStart]
  simp only [Option.bind_eq_bind, Option.bind_some]
  cases type : found.type with
  | url =>
      cases read : readers.parseUrl (String.ofList data.chars) with
      | none => exact unread
      | some url => exact whole (.url url) read
  | nostrUri =>
      cases read : readers.parseUri (String.ofList data.chars) with
      | none => exact unread
      | some uri => exact whole (.nostr uri) read
  | hashtag =>
      dsimp only
      split
      next more =>
        obtain ⟨rest, shape⟩ := @TextSlice.Within.eq_cons _ _ '#' within nonempty (by decide)
          (dataStart ▸ good.hashtag type)
        have name : data.from? 1 = some ⟨data.start + 1, rest⟩ := by
          have behind := TextSlice.from?_append data.start ['#'] rest
          have same : (⟨data.start, ['#'] ++ rest⟩ : TextSlice) = data := by
            rw [List.singleton_append, ← shape]
          rw [same] at behind
          exact behind
        rw [name]
        exact whole (.hashtag ⟨data.start + 1, rest⟩) ⟨shape, rfl⟩
      next => exact unread
  | lineBreak =>
      apply whole .lineBreak
      obtain ⟨byte, one⟩ := good.lineBreak type
      obtain ⟨rest, shape⟩ :=
        @TextSlice.Within.eq_cons _ _ '\n' within nonempty (by decide) (dataStart ▸ byte)
      have length : byteLength data.chars = 1 := by
        rw [← dataStop, ← dataStart, TextSlice.stop] at one
        omega
      rw [shape, byteLength_cons, utf8Size_of_ascii (by decide)] at length
      have none : rest = [] := byteLength_eq_zero.mp (by omega)
      rw [StandsFor, shape, none]

theorem next_eq_handleStrAsText {str : TextSlice} (noToken : iter.pendingToken = none)
    (pending : iter.pendingStrMatch = some str) :
    iter.next readers = { iter with pendingStrMatch := none }.handleStrAsText str := by
  cases iter
  dsimp only at noToken pending
  subst noToken pending
  rfl

theorem next_eq_handleMatch {found : Match} (noToken : iter.pendingToken = none)
    (noStr : iter.pendingStrMatch = none) (pending : iter.pendingMatch = some found) :
    iter.next readers = { iter with pendingMatch := none }.handleMatch readers found := by
  cases iter
  dsimp only at noToken noStr pending
  subst noToken noStr pending
  rfl

theorem next_eq_handleFound {found : Option Match} {finder : FindMatches}
    (noToken : iter.pendingToken = none) (noStr : iter.pendingStrMatch = none)
    (noMatch : iter.pendingMatch = none) (ran : iter.finder.next readers = some (found, finder)) :
    iter.next readers = { iter with finder := finder }.handleFound readers found := by
  cases iter
  dsimp only at noToken noStr noMatch ran
  subst noToken noStr noMatch
  simp only [next, ran, Option.bind_eq_bind, Option.bind_some]

/-- What the finder has found, as a token for the text that comes next. -/
theorem handleFound_yields (cursors : Cursors text iter) (noToken : iter.pendingToken = none)
    (noStr : iter.pendingStrMatch = none) (noMatch : iter.pendingMatch = none) {found : Match}
    (good : GoodMatch text found) (stop : found.stop = iter.finder.pos)
    (behind : iter.lastMatchEnd ≤ found.start) :
    Yields readers text iter.lastMatchEnd (iter.handleFound readers (some found)) := by
  rw [handleFound]
  split
  next gap =>
    obtain ⟨data, cut, dataStart, dataStop, within⟩ :=
      TextSlice.range?_eq_some cursors.lastMatchEnd good.start behind
    have cut : (wholeText iter.text).range? iter.lastMatchEnd found.start = some data := by
      rw [cursors.sameText]
      exact cut
    have cursors' : Cursors text { iter with pendingMatch := some found } := {
      cursors with
      pendingMatch := fun other same => by
        cases same
        exact ⟨good, stop⟩ }
    have nonempty : data.chars ≠ [] := by
      intro none
      rw [TextSlice.stop, none, byteLength_nil] at dataStop
      omega
    have yields : Yields readers text data.start
        ({ iter with pendingMatch := some found }.handleStrAsText data) :=
      handleStrAsText_yields cursors' noToken noStr ⟨within, nonempty⟩ dataStop
    rw [dataStart] at yields
    rw [cut]
    exact yields
  next noGap =>
    have same : iter.lastMatchEnd = found.start :=
      Nat.le_antisymm behind (not_lt.mp fun gap => noGap ⟨cursors.opts, gap⟩)
    rw [same]
    exact handleMatch_yields cursors noToken noStr noMatch good stop

/-- Without a match left, what is left of the text is text. -/
theorem handleFound_none (cursors : Cursors text iter) (noToken : iter.pendingToken = none)
    (noStr : iter.pendingStrMatch = none) (noMatch : iter.pendingMatch = none)
    (exhausted : byteLength text ≤ iter.finder.pos) :
    iter.handleFound readers none = some .done ∧ iter.lastMatchEnd = byteLength text ∨
      Yields readers text iter.lastMatchEnd (iter.handleFound readers none) := by
  have notOff : ¬ (!iter.finder.opts.text) = true := by simp [cursors.opts]
  rw [handleFound, if_neg notOff]
  split
  next usedUp =>
    rw [cursors.sameText] at usedUp
    exact .inl ⟨rfl, Nat.le_antisymm cursors.lastMatchEnd.le usedUp⟩
  next more =>
    right
    rw [cursors.sameText] at more
    obtain ⟨before, after, shape, length, cut⟩ := FindMatches.from?_of_boundary cursors.lastMatchEnd
    have cut : (wholeText iter.text).from? iter.lastMatchEnd = some ⟨iter.lastMatchEnd, after⟩ := by
      rw [cursors.sameText]
      exact cut
    have last : iter.lastMatchEnd + byteLength after = byteLength iter.text := by
      rw [cursors.sameText, shape, byteLength_append, length]
    have nonempty : after ≠ [] := by
      intro none
      rw [none, byteLength_nil, cursors.sameText] at last
      omega
    have within : TextSlice.Within text ⟨iter.lastMatchEnd, after⟩ :=
      ⟨before, [], by rw [List.append_nil, shape], length⟩
    have cursors' : Cursors text { iter with lastMatchEnd := byteLength iter.text } := {
      cursors with
      lastMatchEnd := cursors.sameText.symm ▸ Boundary.last text
      order := cursors.sameText.symm ▸ exhausted }
    have resumes : (TextSlice.mk iter.lastMatchEnd after).stop =
        { iter with lastMatchEnd := byteLength iter.text }.resume := by
      rw [resume, noMatch, TextSlice.stop, last]
      rfl
    rw [cut]
    exact handleStrAsText_yields cursors' noToken noStr ⟨within, nonempty⟩ resumes

variable (asciiOnly : ∀ char, readers.isFe32 char = true → char.toNat < 128)

include asciiOnly in
/-- Either the text is used up, or the next token is for what comes next in it. -/
theorem next_yields (cursors : Cursors text iter) {position : Nat}
    (pending : Pending readers text iter position) :
    iter.next readers = some .done ∧ position = byteLength text ∨
      Yields readers text position (iter.next readers) := by
  cases pending with
  | @token token pending noStr stands part resumes =>
      refine .inr ⟨token, { iter with pendingToken := none }, ?_, stands, part, rfl,
        { cursors with }, ?_⟩
      · rw [next, pending]
      · rw [resumes]
        exact @Pending.clear _ _ readers text { iter with pendingToken := none } rfl noStr
  | @str str noToken pending part resumes =>
      right
      have cursors' : Cursors text { iter with pendingStrMatch := none } := { cursors with }
      rw [next_eq_handleStrAsText noToken pending]
      exact handleStrAsText_yields cursors' noToken rfl part resumes
  | clear noToken noStr =>
      cases pendingMatch : iter.pendingMatch with
      | some found =>
          right
          obtain ⟨good, stop⟩ := cursors.pendingMatch found pendingMatch
          have start : iter.resume = found.start := by
            rw [resume, pendingMatch]
            rfl
          have cursors' : Cursors text { iter with pendingMatch := none } :=
            { cursors with pendingMatch := fun _ impossible => nomatch impossible }
          rw [next_eq_handleMatch noToken noStr pendingMatch, start]
          exact handleMatch_yields cursors' noToken noStr rfl good stop
      | none =>
          have start : iter.resume = iter.lastMatchEnd := by
            rw [resume, pendingMatch]
            rfl
          obtain ⟨found, finder, ran, finderText, opts, at_, order, exhausted, good⟩ :=
            FindMatches.next_spec asciiOnly iter.finder (cursors.finderText.symm ▸ cursors.finderPos)
          rw [FindMatches.bytes, cursors.finderText] at exhausted
          rw [cursors.finderText] at at_ good finderText
          have cursors' : Cursors text { iter with finder := finder } := {
            cursors with
            finderText := finderText
            opts := opts ▸ cursors.opts
            finderPos := at_
            order := le_trans cursors.order order
            pendingMatch := fun other same => by
              rw [pendingMatch] at same
              cases same }
          rw [next_eq_handleFound noToken noStr pendingMatch ran, start]
          cases found with
          | some found =>
              obtain ⟨goodMatch, behind, stop⟩ := good found rfl
              exact .inr (handleFound_yields cursors' noToken noStr pendingMatch goodMatch stop
                (le_trans cursors.order behind))
          | none => exact handleFound_none cursors' noToken noStr pendingMatch (exhausted rfl)

include asciiOnly in
/-- Every step takes a part of the text that is left, so it ends. -/
theorem collect_covers (cursors : Cursors text iter) {before rest : List Char}
    (shape : text = before ++ rest) (pending : Pending readers text iter (byteLength before)) :
    ∃ tokens, (∀ steps, byteLength rest < steps → collect readers steps iter = .ok tokens) ∧
      Covers (byteLength before) (tokens.map Prod.snd) rest ∧ ∀ token ∈ tokens, StandsFor readers token := by
  induction length : byteLength rest using Nat.strong_induction_on generalizing iter before rest with
  | _ remaining ih =>
      cases next_yields asciiOnly cursors pending with
      | inl finished =>
          obtain ⟨done, last⟩ := finished
          have none : rest = [] := by
            rw [shape, byteLength_append] at last
            exact byteLength_eq_zero.mp (by omega)
          subst none
          refine ⟨[], ?_, .nil, fun _ member => nomatch member⟩
          intro steps enough
          cases steps with
          | zero => exact absurd enough (Nat.not_lt_zero _)
          | succ steps => rw [collect, done]
      | inr yielded =>
          obtain ⟨token, later, step, stands, part, start, cursors', pending'⟩ := yielded
          obtain ⟨rest', rfl⟩ := part.exists_rest shape start
          have stop : token.2.stop = byteLength (before ++ token.2.chars) := by
            rw [TextSlice.stop, start, byteLength_append]
          have positive : byteLength token.2.chars ≠ 0 := fun zero =>
            part.nonempty (byteLength_eq_zero.mp zero)
          rw [byteLength_append] at length
          rw [stop] at pending'
          rw [← List.append_assoc] at shape
          obtain ⟨tokens, ran, covers, all⟩ :=
            ih (byteLength rest') (by omega) cursors' shape pending' rfl
          refine ⟨token :: tokens, ?_, ?_, List.forall_mem_cons.mpr ⟨stands, all⟩⟩
          · intro steps enough
            cases steps with
            | zero => exact absurd enough (Nat.not_lt_zero _)
            | succ steps =>
                rw [collect, step]
                dsimp only
                rw [ran steps (by omega)]
                rfl
          · rw [← stop] at covers
            exact .cons start part.nonempty covers

end Steps

/-- With everything enabled, the parser takes only slices between two characters and
ends, and its tokens stand, one behind the other, for the parts of the text. -/
theorem collect_new_covers (readers : Readers Uri Url)
    (asciiOnly : ∀ char, readers.isFe32 char = true → char.toNat < 128) (text : List Char) :
    ∃ tokens, (∀ steps, byteLength text < steps → collect readers steps (new text {}) = .ok tokens) ∧
      Covers 0 (tokens.map Prod.snd) text ∧ ∀ token ∈ tokens, StandsFor readers token := by
  have cursors : Cursors text (new text {} : NostrParserIter Uri Url) := {
    sameText := rfl
    finderText := rfl
    opts := rfl
    finderPos := Boundary.zero text
    lastMatchEnd := Boundary.zero text
    order := le_refl 0
    pendingMatch := fun _ impossible => nomatch impossible }
  exact collect_covers asciiOnly cursors (List.nil_append text).symm (.clear rfl rfl)

/-- The characters of bech32, in both cases. -/
def bech32Chars : List Nat :=
  [0x71, 0x70, 0x7A, 0x72, 0x79, 0x39, 0x78, 0x38, 0x67, 0x66, 0x32, 0x74, 0x76, 0x64, 0x77, 0x30,
   0x73, 0x33, 0x6A, 0x6E, 0x35, 0x34, 0x6B, 0x68, 0x63, 0x65, 0x36, 0x6D, 0x75, 0x61, 0x37, 0x6C,
   0x51, 0x50, 0x5A, 0x52, 0x59, 0x58, 0x47, 0x46, 0x54, 0x56, 0x44, 0x57, 0x53, 0x4A, 0x4E, 0x4B,
   0x48, 0x43, 0x45, 0x4D, 0x55, 0x41, 0x4C]

/-- Neither a URI nor a URL can be read. -/
def sampleReaders : Readers Unit Unit where
  parseUri _ := none
  parseUrl _ := none
  isFe32 char := bech32Chars.contains char.toNat

theorem sampleReaders_ascii (char : Char) (member : sampleReaders.isFe32 char = true) :
    char.toNat < 128 := by
  have ascii : ∀ code ∈ bech32Chars, code < 128 := by decide
  exact ascii char.toNat (List.contains_iff_mem.mp member)

theorem collect_new_covers_hashtag : ∃ tokens,
    (∀ steps, byteLength ['#', 'a', '\n', 'é', ' '] < steps →
      collect sampleReaders steps (new ['#', 'a', '\n', 'é', ' '] {}) = .ok tokens) ∧
      Covers 0 (tokens.map Prod.snd) ['#', 'a', '\n', 'é', ' '] ∧
      ∀ token ∈ tokens, StandsFor sampleReaders token :=
  collect_new_covers sampleReaders sampleReaders_ascii _

end NostrParserIter

end RustNostr.Parser
