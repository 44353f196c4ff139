import Mathlib
import RustNostr.Nostr.ParserTokens

/-!
# Text, wanted and unwanted

Without text the parser yields the URIs, URLs and hashtags that it yields with text,
in their order. With text, a text token never begins with a space, and ends with one
just where two spaces stand at the end of a stretch.
-/

set_option autoImplicit false

namespace RustNostr.Parser

open Library

variable {Uri Url : Type}

/-! ## Text unwanted -/

def Token.isPattern : Token Uri Url → Bool
  | .nostr _ => true
  | .url _ => true
  | .hashtag _ => true
  | _ => false

def NostrParserOptions.wantText (opts : NostrParserOptions) (text : Bool) : NostrParserOptions :=
  { opts with text }

namespace FindMatches

variable {readers : Readers Uri Url} {finder : FindMatches}

theorem orElse_none {enabled : Bool} {rest : Option (Option Match)} :
    orElse enabled (some none) rest = rest := by
  cases enabled <;> rfl

theorem tryParse_of_newline (found : finder.bytes[finder.pos]? = some 0x0A)
    (unwanted : finder.opts.text = false) : finder.tryParse readers = some none := by
  have inside : finder.pos < finder.bytes.length := (List.getElem?_eq_some_iff.mp found).1
  have hashtag : finder.tryParseHashtag = some none := by
    rw [tryParseHashtag, found]
    rfl
  have notAt : isAt finder.bytes finder.pos (utf8 "nostr:") = false := by
    have letters : utf8 "nostr:" = [0x6E, 0x6F, 0x73, 0x74, 0x72, 0x3A] := by decide +kernel
    have byte : finder.bytes[finder.pos] = 0x0A := (List.getElem?_eq_some_iff.mp found).2
    rw [isAt, letters, List.drop_eq_getElem_cons inside, byte]
    rfl
  have nostrUri : finder.tryParseNostrUri readers = none := by
    rw [tryParseNostrUri, notAt]
    rfl
  have url : finder.tryParseUrl = some none := by
    rw [tryParseUrl, findPostUrlSchemePosition, found]
    rfl
  rw [tryParse, unwanted, hashtag, nostrUri, url, orElse_none, orElse_none, orElse_none]
  rfl

theorem advance_of_newline (found : finder.bytes[finder.pos]? = some 0x0A) :
    finder.advance = some (finder.pos + 1) := by
  rw [advance, found]
  rfl

theorem trimPunctuation_opts (finder : FindMatches) (opts : NostrParserOptions) (after stop : Nat) :
    { finder with opts }.trimPunctuation after stop = finder.trimPunctuation after stop := by
  induction stop with
  | zero => rfl
  | succ stop ih =>
      rw [trimPunctuation, trimPunctuation, ih]
      rfl

theorem tryParseUrl_opts (finder : FindMatches) (opts : NostrParserOptions) :
    { finder with opts }.tryParseUrl = finder.tryParseUrl := by
  have trim : { finder with opts }.trimUrlEnd = finder.trimUrlEnd := by
    funext start after stop
    rw [trimUrlEnd, trimUrlEnd, trimPunctuation_opts]
    rfl
  rw [tryParseUrl, tryParseUrl, trim]
  rfl

theorem next_of_tryParse_none (inside : finder.pos < finder.bytes.length) {position : Nat}
    (noMatch : finder.tryParse readers = some none) (advanced : finder.advance = some position) :
    next readers finder = next readers { finder with pos := position } := by
  conv_lhs => rw [next, if_pos inside, noMatch]
  dsimp only
  split
  next refused =>
    rw [advanced] at refused
    cases refused
  next position' advanced' =>
    rw [advanced] at advanced'
    cases advanced'
    rfl

theorem next_of_tryParse_some (inside : finder.pos < finder.bytes.length) {found : Match}
    (parsed : finder.tryParse readers = some (some found)) :
    next readers finder = some (some found, { finder with pos := found.stop }) := by
  rw [next, if_pos inside, parsed]

theorem allMatches_of_tryParse_none (inside : finder.pos < finder.bytes.length) {position : Nat}
    (noMatch : finder.tryParse readers = some none) (advanced : finder.advance = some position) :
    allMatches readers finder = allMatches readers { finder with pos := position } := by
  rw [allMatches, matchesFrom, next_of_tryParse_none inside noMatch advanced]
  rfl

section Reading

variable (asciiOnly : ∀ char, readers.isFe32 char = true → char.toNat < 128)

include asciiOnly in
/-- The line breaks are the only matches that come with the text. -/
theorem allMatches_unwanted {text : List Char} {opts : NostrParserOptions} {position : Nat}
    (boundary : Boundary text position) :
    allMatches readers ⟨text, position, opts.wantText false⟩ =
      (allMatches readers ⟨text, position, opts.wantText true⟩).filter fun found =>
        found.type ≠ .lineBreak := by
  induction length : byteLength text - position using Nat.strong_induction_on generalizing position with
  | _ remaining ih =>
      let off : FindMatches := ⟨text, position, opts.wantText false⟩
      let on : FindMatches := ⟨text, position, opts.wantText true⟩
      by_cases inside : position < byteLength text
      · have insideOff : off.pos < off.bytes.length := inside
        have insideOn : on.pos < on.bytes.length := inside
        obtain ⟨byte, found⟩ := exists_byte insideOff
        have foundOn : on.bytes[on.pos]? = some byte := found
        by_cases newline : byte = 0x0A
        · subst newline
          have parsed : on.tryParse readers =
              some (some ⟨.lineBreak, position, position + 1⟩) := by
            rw [tryParse, tryParseLineBreak, foundOn]
            rfl
          rw [allMatches_some asciiOnly boundary (next_of_tryParse_some insideOn parsed),
            allMatches_of_tryParse_none insideOff (tryParse_of_newline found rfl) (advance_of_newline found)]
          have later : Boundary text (position + 1) := boundary.succ found (by decide)
          have fewer : byteLength text - (position + 1) < remaining := by omega
          exact ih _ fewer later rfl
        · have noLineBreak : on.tryParseLineBreak = some none := by
            rw [tryParseLineBreak, foundOn]
            exact if_pos newline
          have same : on.tryParse readers = off.tryParse readers := by
            have hashtag : on.tryParseHashtag = off.tryParseHashtag := rfl
            have nostrUri : on.tryParseNostrUri readers = off.tryParseNostrUri readers := rfl
            have url : on.tryParseUrl = off.tryParseUrl := tryParseUrl_opts off (opts.wantText true)
            rw [tryParse, tryParse, noLineBreak, hashtag, nostrUri, url, orElse_none]
            rfl
          obtain ⟨result, answered, good⟩ := @tryParse_answers off boundary insideOff _ _ readers asciiOnly
          cases result with
          | none =>
              obtain ⟨position', advanced, order, boundary'⟩ := @advance_spec off boundary insideOff
              rw [allMatches_of_tryParse_none insideOff answered advanced,
                @allMatches_of_tryParse_none _ _ readers on insideOn _ (same.trans answered) advanced]
              have order : position < position' := order
              exact ih _ (by omega) boundary' rfl
          | some match_ =>
              obtain ⟨goodMatch, start⟩ := good match_ rfl
              rw [allMatches_some asciiOnly boundary (next_of_tryParse_some insideOff answered),
                allMatches_some asciiOnly boundary (next_of_tryParse_some insideOn (same.trans answered))]
              have kept : match_.type ≠ .lineBreak := by
                intro lineBreak
                have read := (goodMatch.lineBreak lineBreak).1
                rw [start] at read
                exact newline (Option.some.inj (found.symm.trans read))
              have start : match_.start = position := start
              have order := goodMatch.nonempty
              rw [List.filter_cons_of_pos (by simpa using kept)]
              exact congrArg (List.cons match_) (ih _ (by omega) goodMatch.stop rfl)
      · have usedUp : byteLength text ≤ position := not_lt.mp inside
        rw [@allMatches_exhausted _ _ readers off usedUp, @allMatches_exhausted _ _ readers on usedUp]
        rfl

end Reading

end FindMatches

/-- No token of a stretch is a pattern. -/
theorem filter_textTokens (start : Nat) (chars : List Char) :
    (textTokens start chars : List (Spanned Uri Url)).filter (fun token => token.1.isPattern) = [] := by
  induction chars generalizing start with
  | nil => rfl
  | cons char rest ih =>
      rw [textTokens]
      split
      next => exact ih _
      next =>
        split
        next => exact ih _
        next =>
          split
          next => rfl
          next => rfl

theorem filter_stretchTokens (wantsText : Bool) (data : TextSlice) :
    (stretchTokens wantsText data : List (Spanned Uri Url)).filter (fun token => token.1.isPattern) = [] := by
  rw [stretchTokens]
  split
  next => exact filter_textTokens _ _
  next => rfl

variable {readers : Readers Uri Url}

theorem isPattern_of_readToken {data : TextSlice} {type : MatchType} {token : Token Uri Url}
    (read : readToken readers data type = some token) : token.isPattern = decide (type ≠ .lineBreak) := by
  cases type with
  | nostrUri =>
      obtain ⟨uri, _, same⟩ := Option.map_eq_some_iff.mp read
      rw [← same]
      rfl
  | url =>
      obtain ⟨url, _, same⟩ := Option.map_eq_some_iff.mp read
      rw [← same]
      rfl
  | hashtag =>
      rw [readToken] at read
      split at read
      next =>
        obtain ⟨name, _, same⟩ := Option.map_eq_some_iff.mp read
        rw [← same]
        rfl
      next => cases read
  | lineBreak =>
      cases read
      rfl

/-- With the line breaks and the text left out, the same tokens are left. -/
theorem filter_tokensBehind (text : List Char) (last last' : Nat) (found : List Match) :
    (tokensBehind readers true text last found).filter (fun token => token.1.isPattern) =
      tokensBehind readers false text last' (found.filter fun found => found.type ≠ .lineBreak) := by
  induction found generalizing last last' with
  | nil => exact filter_stretchTokens _ _
  | cons found rest ih =>
      rw [tokensBehind, List.filter_append, List.filter_append, filter_stretchTokens, List.nil_append, matchTokens]
      cases read : readToken readers (between text found.start found.stop) found.type with
      | none =>
          have kept : found.type ≠ .lineBreak := by
            intro lineBreak
            rw [lineBreak] at read
            cases read
          have matches_ : (found :: rest).filter (fun found => found.type ≠ .lineBreak) =
              found :: rest.filter fun found => found.type ≠ .lineBreak :=
            List.filter_cons_of_pos (by simpa using kept)
          rw [matches_, tokensBehind, matchTokens, read]
          dsimp only
          rw [filter_stretchTokens, ih found.stop found.stop]
          rfl
      | some token =>
          have pattern := isPattern_of_readToken read
          by_cases lineBreak : found.type = .lineBreak
          · have matches_ : (found :: rest).filter (fun found => found.type ≠ .lineBreak) =
                rest.filter fun found => found.type ≠ .lineBreak :=
              List.filter_cons_of_neg (by simpa using lineBreak)
            rw [matches_, ← ih found.stop last']
            rw [lineBreak] at pattern
            exact congrArg (· ++ _) (List.filter_cons_of_neg (by simp [pattern]))
          · have matches_ : (found :: rest).filter (fun found => found.type ≠ .lineBreak) =
                found :: rest.filter fun found => found.type ≠ .lineBreak :=
              List.filter_cons_of_pos (by simpa using lineBreak)
            rw [matches_, tokensBehind, matchTokens, read, ih found.stop found.stop]
            rw [decide_eq_true lineBreak] at pattern
            exact congrArg (· ++ _) (List.filter_cons_of_pos (by simp [pattern]))

namespace NostrParserIter

section Collecting

variable (asciiOnly : ∀ char, readers.isFe32 char = true → char.toNat < 128)

include asciiOnly in
theorem tokensOf_unwanted (text : List Char) (opts : NostrParserOptions) :
    tokensOf readers text (opts.wantText false) =
      (tokensOf readers text (opts.wantText true)).filter fun token => token.1.isPattern := by
  rw [tokensOf, tokensOf, FindMatches.allMatches_unwanted asciiOnly (Boundary.zero text)]
  exact (filter_tokensBehind text 0 0 _).symm

end Collecting

/-- Without text, of the tokens with text just the patterns, in their order. -/
theorem collect_new_wantText (readers : Readers Uri Url)
    (asciiOnly : ∀ char, readers.isFe32 char = true → char.toNat < 128) (text : List Char)
    (opts : NostrParserOptions) :
    ∃ tokens, ∀ steps, byteLength text < steps →
      collect readers steps (new text (opts.wantText true)) = .ok tokens ∧
        collect readers steps (new text (opts.wantText false)) =
          .ok (tokens.filter fun token => token.1.isPattern) := by
  refine ⟨tokensOf readers text (opts.wantText true), ?_⟩
  intro steps enough
  rw [← tokensOf_unwanted asciiOnly]
  exact ⟨collect_new asciiOnly text _ enough, collect_new asciiOnly text _ enough⟩

theorem collect_new_wantText_lineBreak : ∃ tokens, ∀ steps, byteLength ['#', 'a', '\n', 'b'] < steps →
    collect sampleReaders steps (new ['#', 'a', '\n', 'b'] (NostrParserOptions.wantText {} true)) = .ok tokens ∧
      collect sampleReaders steps (new ['#', 'a', '\n', 'b'] (NostrParserOptions.wantText {} false)) =
        .ok (tokens.filter fun token => token.1.isPattern) :=
  collect_new_wantText sampleReaders sampleReaders_ascii _ {}

end NostrParserIter

/-- All but text and whitespace. -/
def Token.isNotText : Token Uri Url → Bool
  | .text _ => false
  | .whitespace => false
  | _ => true

namespace NostrParserIter

/-- Line breaks, too, come only with the text. -/
theorem collect_new_drops_lineBreak : ¬ ∀ (readers : Readers Unit Unit),
    (∀ char, readers.isFe32 char = true → char.toNat < 128) →
      ∀ (text : List Char) (opts : NostrParserOptions) (steps : Nat)
        (withText without : List (Spanned Unit Unit)),
        collect readers steps (new text (opts.wantText true)) = .ok withText →
          collect readers steps (new text (opts.wantText false)) = .ok without →
            without = withText.filter fun token => token.1.isNotText := by
  intro holds
  have boundary := Boundary.zero ['\n']
  let on : FindMatches := ⟨['\n'], 0, NostrParserOptions.wantText {} true⟩
  have inside : on.pos < on.bytes.length := by decide
  have parsed : on.tryParse sampleReaders = some (some ⟨.lineBreak, 0, 1⟩) := rfl
  have found : FindMatches.allMatches sampleReaders on = [⟨.lineBreak, 0, 1⟩] := by
    rw [FindMatches.allMatches_some sampleReaders_ascii boundary
      (FindMatches.next_of_tryParse_some inside parsed), FindMatches.allMatches_exhausted (by decide)]
  have tokens : tokensOf sampleReaders ['\n'] (NostrParserOptions.wantText {} true) =
      [(.lineBreak, ⟨0, ['\n']⟩)] := by
    rw [tokensOf, found]
    rfl
  have enough : byteLength ['\n'] < 2 := by decide
  have same := holds sampleReaders sampleReaders_ascii ['\n'] {} 2 _ _
    (collect_new sampleReaders_ascii _ _ enough) (collect_new sampleReaders_ascii _ _ enough)
  rw [tokensOf_unwanted sampleReaders_ascii, tokens] at same
  cases same

end NostrParserIter

/-! ## Spaces around a text -/

/-- A text that begins or ends with a space. -/
def Token.hasOuterSpace : Token Uri Url → Bool
  | .text slice => slice.chars.head? == some ' ' || slice.chars.getLast? == some ' '
  | _ => false

/-- Behind the spaces and line breaks at the beginning, a stretch that ends with two
spaces. -/
def EndsDoublySpaced (chars : List Char) : Prop :=
  [' ', ' '] <:+ chars.dropWhile fun char => char == '\n' || char == ' '

/-- The parts of a text that are taken for text: what lies behind a position between
the matches, and the matches that cannot be read. -/
def stretchesBehind (readers : Readers Uri Url) (text : List Char) : Nat → List Match → List TextSlice
  | last, [] => [between text last (byteLength text)]
  | last, found :: rest =>
      let data := between text found.start found.stop
      between text last found.start :: ((if (readToken readers data found.type).isNone then [data] else []) ++
        stretchesBehind readers text found.stop rest)

def stretches (readers : Readers Uri Url) (text : List Char) (opts : NostrParserOptions) :
    List TextSlice :=
  stretchesBehind readers text 0 (FindMatches.allMatches readers { text, opts })

theorem doublySpaced_concat_iff {chars : List Char} :
    [' ', ' '] <:+ chars ++ [' '] ↔ chars.getLast? = some ' ' := by
  rw [List.getLast?_eq_some_iff]
  constructor
  · intro suffix
    obtain ⟨front, shape⟩ := suffix
    have parts : front ++ [' ', ' '] = front ++ [' '] ++ [' '] := by
      rw [List.append_assoc, List.singleton_append]
    rw [parts] at shape
    exact ⟨front, (List.append_cancel_right shape).symm⟩
  · intro ends
    obtain ⟨front, shape⟩ := ends
    exact ⟨front, by rw [shape, List.append_assoc, List.singleton_append]⟩

/-- The space at the end is taken off only once. -/
theorem textTokens_hasOuterSpace (start : Nat) (chars : List Char) :
    (∀ token ∈ (textTokens start chars : List (Spanned Uri Url)), token.1.hasOuterSpace = false) ↔
      ¬ EndsDoublySpaced chars := by
  induction chars generalizing start with
  | nil =>
      refine ⟨fun _ suffix => ?_, fun _ token impossible => ?_⟩
      · cases List.suffix_nil.mp suffix
      · cases impossible
  | cons char rest ih =>
      rw [textTokens]
      by_cases newline : char = '\n'
      · subst newline
        rw [if_pos rfl, List.forall_mem_cons, ih]
        exact and_iff_right rfl
      rw [if_neg newline]
      by_cases space : char = ' '
      · subst space
        rw [if_pos rfl, List.forall_mem_cons, ih]
        exact and_iff_right rfl
      have kept : (char :: rest).dropWhile (fun char => char == '\n' || char == ' ') = char :: rest := by
        rw [List.dropWhile_cons_of_neg]
        simp [newline, space]
      rw [if_neg space, EndsDoublySpaced, kept]
      by_cases trailing : rest.getLast? = some ' '
      · obtain ⟨front, rfl⟩ := List.getLast?_eq_some_iff.mp trailing
        rw [if_pos trailing, List.dropLast_concat, ← List.cons_append, doublySpaced_concat_iff,
          List.forall_mem_cons, List.forall_mem_singleton]
        simp [Token.hasOuterSpace, space]
      · have last : (char :: rest).getLast? ≠ some ' ' := by
          cases rest with
          | nil => exact fun same => space (Option.some.inj same)
          | cons second rest =>
              rw [List.getLast?_cons_cons]
              exact trailing
        have apart : ¬ [' ', ' '] <:+ char :: rest := by
          intro suffix
          obtain ⟨front, shape⟩ := suffix
          rw [← shape, List.getLast?_append] at last
          exact last rfl
        rw [if_neg trailing, List.forall_mem_singleton, iff_true_right apart]
        simp [Token.hasOuterSpace, space, last]

theorem stretchTokens_hasOuterSpace (data : TextSlice) :
    (∀ token ∈ (stretchTokens true data : List (Spanned Uri Url)), token.1.hasOuterSpace = false) ↔
      ¬ EndsDoublySpaced data.chars := by
  rw [stretchTokens, if_pos rfl]
  exact textTokens_hasOuterSpace _ _

theorem hasOuterSpace_of_readToken {data : TextSlice} {type : MatchType} {token : Token Uri Url}
    (read : readToken readers data type = some token) : token.hasOuterSpace = false := by
  cases token with
  | text slice =>
      have lineBreak : type = .lineBreak := by
        by_contra other
        have pattern := isPattern_of_readToken read
        rw [decide_eq_true other] at pattern
        cases pattern
      subst lineBreak
      cases read
  | _ => rfl

theorem matchTokens_hasOuterSpace (text : List Char) (found : Match) :
    (∀ token ∈ matchTokens readers true text found, token.1.hasOuterSpace = false) ↔
      let data := between text found.start found.stop
      ∀ stretch ∈ if (readToken readers data found.type).isNone then [data] else [],
        ¬ EndsDoublySpaced stretch.chars := by
  rw [matchTokens]
  cases read : readToken readers (between text found.start found.stop) found.type with
  | none =>
      dsimp only
      rw [stretchTokens_hasOuterSpace, read, Option.isNone_none, if_pos rfl, List.forall_mem_singleton]
  | some token =>
      dsimp only
      rw [List.forall_mem_singleton, hasOuterSpace_of_readToken read, read, if_neg (by simp)]
      exact iff_of_true rfl (List.forall_mem_nil _)

theorem tokensBehind_hasOuterSpace (text : List Char) (last : Nat) (found : List Match) :
    (∀ token ∈ tokensBehind readers true text last found, token.1.hasOuterSpace = false) ↔
      ∀ stretch ∈ stretchesBehind readers text last found, ¬ EndsDoublySpaced stretch.chars := by
  induction found generalizing last with
  | nil =>
      rw [tokensBehind, stretchesBehind, List.forall_mem_singleton]
      exact stretchTokens_hasOuterSpace _
  | cons found rest ih =>
      rw [tokensBehind, stretchesBehind, List.forall_mem_append, List.forall_mem_append,
        stretchTokens_hasOuterSpace, matchTokens_hasOuterSpace, ih]
      dsimp only
      rw [List.forall_mem_cons, List.forall_mem_append]

/-- Without text there is no text token. -/
theorem tokensBehind_unwanted (text : List Char) (last : Nat) (found : List Match) :
    ∀ token ∈ tokensBehind readers false text last found, token.1.hasOuterSpace = false := by
  induction found generalizing last with
  | nil => exact List.forall_mem_nil _
  | cons found rest ih =>
      rw [tokensBehind, stretchTokens, if_neg Bool.false_ne_true, List.nil_append]
      rw [List.forall_mem_append, matchTokens]
      refine ⟨?_, ih found.stop⟩
      cases read : readToken readers (between text found.start found.stop) found.type with
      | none => exact List.forall_mem_nil _
      | some token => exact List.forall_mem_singleton.mpr (hasOuterSpace_of_readToken read)

namespace NostrParserIter

/-- The tokens stand for the parts of the text, and no text token begins or ends with
a space just when no stretch ends with two. -/
theorem collect_new_hasOuterSpace_iff (readers : Readers Uri Url)
    (asciiOnly : ∀ char, readers.isFe32 char = true → char.toNat < 128) (text : List Char)
    (opts : NostrParserOptions) :
    ∃ tokens, (∀ steps, byteLength text < steps → collect readers steps (new text opts) = .ok tokens) ∧
      (opts.text = true →
        Covers 0 (tokens.map Prod.snd) text ∧ ∀ token ∈ tokens, StandsFor readers token) ∧
      ((∀ token ∈ tokens, token.1.hasOuterSpace = false) ↔
        (opts.text = true →
          ∀ stretch ∈ stretches readers text opts, ¬ EndsDoublySpaced stretch.chars)) := by
  refine ⟨tokensOf readers text opts, fun steps => collect_new asciiOnly text opts, ?_, ?_⟩
  · intro wanted
    obtain ⟨tokens, ran, covers, stands⟩ := @collect_covers _ _ readers text (new text opts) asciiOnly
      (cursors_new wanted) [] text (List.nil_append text).symm (.clear rfl rfl)
    have same := ran (byteLength text + 1) (Nat.lt_succ_self _)
    rw [collect_new asciiOnly text opts (Nat.lt_succ_self _)] at same
    cases same
    exact ⟨covers, stands⟩
  · cases wanted : opts.text with
    | false =>
        rw [tokensOf, wanted]
        exact iff_of_true (tokensBehind_unwanted text 0 _) fun impossible => absurd impossible Bool.false_ne_true
    | true =>
        rw [tokensOf, wanted, tokensBehind_hasOuterSpace]
        exact ⟨fun apart _ => apart, fun apart => apart rfl⟩

theorem collect_new_hasOuterSpace_iff_hashtag : ∃ tokens,
    (∀ steps, byteLength ['#', 'a', ' ', ' ', 'b', ' '] < steps →
      collect sampleReaders steps (new ['#', 'a', ' ', ' ', 'b', ' '] {}) = .ok tokens) ∧
      (true = true → Covers 0 (tokens.map Prod.snd) ['#', 'a', ' ', ' ', 'b', ' '] ∧
        ∀ token ∈ tokens, StandsFor sampleReaders token) ∧
      ((∀ token ∈ tokens, token.1.hasOuterSpace = false) ↔
        (true = true → ∀ stretch ∈ stretches sampleReaders ['#', 'a', ' ', ' ', 'b', ' '] {},
          ¬ EndsDoublySpaced stretch.chars)) :=
  collect_new_hasOuterSpace_iff sampleReaders sampleReaders_ascii _ {}

/-- Of the two spaces at the end, the first is left to the text. -/
theorem collect_new_twoSpaces : ∃ tokens,
    collect sampleReaders 4 (new ['a', ' ', ' '] {}) = .ok tokens ∧
      ∃ token ∈ tokens, token.1.hasOuterSpace = true := by
  let at_ (pos : Nat) : FindMatches := ⟨['a', ' ', ' '], pos, {}⟩
  have first : (at_ 0).allMatches sampleReaders = (at_ 1).allMatches sampleReaders :=
    @FindMatches.allMatches_of_tryParse_none _ _ sampleReaders (at_ 0) (by decide) _ rfl rfl
  have second : (at_ 1).allMatches sampleReaders = (at_ 2).allMatches sampleReaders :=
    @FindMatches.allMatches_of_tryParse_none _ _ sampleReaders (at_ 1) (by decide) _ rfl rfl
  have third : (at_ 2).allMatches sampleReaders = (at_ 3).allMatches sampleReaders :=
    @FindMatches.allMatches_of_tryParse_none _ _ sampleReaders (at_ 2) (by decide) _ rfl rfl
  have fourth : (at_ 3).allMatches sampleReaders = [] := FindMatches.allMatches_exhausted (by decide)
  have none : FindMatches.allMatches sampleReaders (at_ 0) = [] := by rw [first, second, third, fourth]
  have tokens : tokensOf sampleReaders ['a', ' ', ' '] {} =
      [(.text ⟨0, ['a', ' ']⟩, ⟨0, ['a', ' ']⟩), (.whitespace, ⟨2, [' ']⟩)] := by
    rw [tokensOf, none]
    rfl
  refine ⟨_, collect_new sampleReaders_ascii _ _ (by decide), ?_⟩
  rw [tokens]
  exact ⟨_, List.mem_cons_self, rfl⟩

end NostrParserIter

end RustNostr.Parser
