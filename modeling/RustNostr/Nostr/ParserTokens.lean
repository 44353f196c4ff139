import Mathlib
import RustNostr.Nostr.ParserLossless

/-!
# What the tokens are

The tokens of a text, from the matches alone: each match gives its own token, and each
stretch between two matches its spaces, line breaks and text. The iterator, with all
that it keeps pending, yields these.
-/

set_option autoImplicit false

namespace RustNostr.Parser

open Library

/-! ## All matches -/

namespace FindMatches

variable {Uri Url : Type} {readers : Readers Uri Url}

def matchesFrom (readers : Readers Uri Url) : Nat → FindMatches → List Match
  | 0, _ => []
  | steps + 1, finder =>
      match next readers finder with
      | some (some found, later) => found :: matchesFrom readers steps later
      | _ => []

/-- The matches that are left. -/
def allMatches (readers : Readers Uri Url) (finder : FindMatches) : List Match :=
  matchesFrom readers (finder.bytes.length + 1) finder

section Reading

variable (asciiOnly : ∀ char, readers.isFe32 char = true → char.toNat < 128)

include asciiOnly in
/-- A found match leaves the finder behind it. -/
theorem next_some_spec {finder later : FindMatches} (boundary : Boundary finder.text finder.pos)
    {found : Match} (ran : next readers finder = some (some found, later)) :
    later.text = finder.text ∧ later.opts = finder.opts ∧ Boundary finder.text later.pos ∧
      GoodMatch finder.text found ∧ finder.pos ≤ found.start ∧ found.stop = later.pos := by
  obtain ⟨_, _, answered, text, opts, boundary', _, _, good⟩ := next_spec asciiOnly finder boundary
  rw [ran] at answered
  cases answered
  exact ⟨text, opts, boundary', good found rfl⟩

include asciiOnly in
theorem matchesFrom_eq {finder : FindMatches} (boundary : Boundary finder.text finder.pos)
    {steps steps' : Nat} (enough : finder.bytes.length - finder.pos < steps)
    (enough' : finder.bytes.length - finder.pos < steps') :
    matchesFrom readers steps finder = matchesFrom readers steps' finder := by
  induction steps generalizing finder steps' with
  | zero => exact absurd enough (Nat.not_lt_zero _)
  | succ steps ih =>
      cases steps' with
      | zero => exact absurd enough' (Nat.not_lt_zero _)
      | succ steps' =>
          rw [matchesFrom, matchesFrom]
          cases ran : next readers finder with
          | none => rfl
          | some outcome =>
              obtain ⟨found, later⟩ := outcome
              cases found with
              | none => rfl
              | some found =>
                  obtain ⟨text, _, boundary', good, behind, stop⟩ := next_some_spec asciiOnly boundary ran
                  have longer := good.nonempty
                  have within : later.pos ≤ finder.bytes.length := boundary'.le
                  have length : later.bytes.length = finder.bytes.length := by rw [bytes, text, bytes]
                  rw [← text] at boundary'
                  dsimp only
                  exact congrArg (List.cons found) (@ih later boundary' steps' (by omega) (by omega))

include asciiOnly in
theorem allMatches_some {finder later : FindMatches} (boundary : Boundary finder.text finder.pos)
    {found : Match} (ran : next readers finder = some (some found, later)) :
    allMatches readers finder = found :: allMatches readers later := by
  obtain ⟨text, _, boundary', good, behind, stop⟩ := next_some_spec asciiOnly boundary ran
  have longer := good.nonempty
  have within : later.pos ≤ finder.bytes.length := boundary'.le
  have length : later.bytes.length = finder.bytes.length := by rw [bytes, text, bytes]
  rw [← text] at boundary'
  rw [allMatches, matchesFrom, ran]
  exact congrArg (List.cons found) (matchesFrom_eq asciiOnly boundary' (by omega) (by omega))

theorem allMatches_none {finder later : FindMatches} (ran : next readers finder = some (none, later)) :
    allMatches readers finder = [] := by
  rw [allMatches, matchesFrom, ran]

end Reading

theorem next_exhausted {finder : FindMatches} (usedUp : finder.bytes.length ≤ finder.pos) :
    next readers finder = some (none, finder) := by
  rw [next, if_neg (not_lt.mpr usedUp)]

theorem allMatches_exhausted {finder : FindMatches} (usedUp : finder.bytes.length ≤ finder.pos) :
    allMatches readers finder = [] := allMatches_none (next_exhausted usedUp)

end FindMatches

/-! ## Tokens of a text -/

variable {Uri Url : Type}

/-- The part of the text between two positions. -/
def between (text : List Char) (start stop : Nat) : TextSlice :=
  ((wholeText text).range? start stop).getD ⟨start, []⟩

/-- A stretch that is no match: spaces and line breaks at its beginning are tokens of
their own, and so is one space at its end. -/
def textTokens : Nat → List Char → List (Spanned Uri Url)
  | _, [] => []
  | start, char :: rest =>
      if char = '\n' then (.lineBreak, ⟨start, ['\n']⟩) :: textTokens (start + 1) rest
      else if char = ' ' then (.whitespace, ⟨start, [' ']⟩) :: textTokens (start + 1) rest
      else if rest.getLast? = some ' ' then
        let text : TextSlice := ⟨start, char :: rest.dropLast⟩
        [(.text text, text), (.whitespace, ⟨text.stop, [' ']⟩)]
      else [(.text ⟨start, char :: rest⟩, ⟨start, char :: rest⟩)]

/-- The token of a match, if it can be read. -/
def readToken (readers : Readers Uri Url) (data : TextSlice) : MatchType → Option (Token Uri Url)
  | .url => (readers.parseUrl (String.ofList data.chars)).map .url
  | .nostrUri => (readers.parseUri (String.ofList data.chars)).map .nostr
  | .hashtag => if 1 < byteLength data.chars then (data.from? 1).map .hashtag else none
  | .lineBreak => some .lineBreak

def stretchTokens (wantsText : Bool) (data : TextSlice) : List (Spanned Uri Url) :=
  if wantsText then textTokens data.start data.chars else []

def matchTokens (readers : Readers Uri Url) (wantsText : Bool) (text : List Char) (found : Match) :
    List (Spanned Uri Url) :=
  let data := between text found.start found.stop
  match readToken readers data found.type with
  | some token => [(token, data)]
  | none => stretchTokens wantsText data

/-- The tokens behind a position, with the matches that are left. -/
def tokensBehind (readers : Readers Uri Url) (wantsText : Bool) (text : List Char) :
    Nat → List Match → List (Spanned Uri Url)
  | last, [] => stretchTokens wantsText (between text last (byteLength text))
  | last, found :: rest =>
      stretchTokens wantsText (between text last found.start) ++
        (matchTokens readers wantsText text found ++ tokensBehind readers wantsText text found.stop rest)

theorem between_of_range? {text : List Char} {start stop : Nat} {data : TextSlice}
    (cut : (wholeText text).range? start stop = some data) : between text start stop = data := by
  rw [between, cut]
  rfl

theorem between_nonempty {text : List Char} {start stop : Nat} (first : Boundary text start)
    (last : Boundary text stop) (longer : start < stop) : (between text start stop).chars ≠ [] := by
  obtain ⟨data, cut, dataStart, dataStop, _⟩ :=
    TextSlice.range?_eq_some first last (Nat.le_of_lt longer)
  rw [between_of_range? cut]
  intro none
  rw [← dataStart, ← dataStop, TextSlice.stop, none, byteLength_nil] at longer
  exact absurd longer (Nat.lt_irrefl _)

theorem from?_eq_between {text : List Char} {position : Nat} (boundary : Boundary text position) :
    (wholeText text).from? position = some (between text position (byteLength text)) := by
  obtain ⟨before, after, shape, length, cut⟩ := FindMatches.from?_of_boundary boundary
  have rest : byteLength text - position = byteLength after := by
    rw [shape, byteLength_append, length, Nat.add_sub_cancel_left]
  have whole := TextSlice.to?_append position after []
  rw [List.append_nil] at whole
  have range : (wholeText text).range? position (byteLength text) = some ⟨position, after⟩ := by
    rw [TextSlice.range?, if_pos boundary.le, cut, Option.bind_some, rest, whole]
  rw [between_of_range? range, cut]

theorem stretchTokens_empty {wantsText : Bool} {text : List Char} {position : Nat}
    (boundary : Boundary text position) :
    stretchTokens wantsText (between text position position) = ([] : List (Spanned Uri Url)) := by
  obtain ⟨data, cut, start, stop, _⟩ := TextSlice.range?_eq_some boundary boundary (le_refl position)
  have empty : data.chars = [] := by
    rw [← byteLength_eq_zero]
    rw [TextSlice.stop] at stop
    omega
  rw [between_of_range? cut, stretchTokens, empty]
  cases wantsText <;> rfl

namespace NostrParserIter

variable {readers : Readers Uri Url} {text : List Char} {iter : NostrParserIter Uri Url}

/-- The tokens that are still to come from the matches. -/
def ahead (readers : Readers Uri Url) (iter : NostrParserIter Uri Url) : List (Spanned Uri Url) :=
  let behind := tokensBehind readers iter.finder.opts.text iter.text
  match iter.pendingMatch with
  | some found =>
      matchTokens readers iter.finder.opts.text iter.text found ++
        behind found.stop (iter.finder.allMatches readers)
  | none => behind iter.lastMatchEnd (iter.finder.allMatches readers)

/-- All the tokens that are still to come. -/
def remaining (readers : Readers Uri Url) (iter : NostrParserIter Uri Url) : List (Spanned Uri Url) :=
  iter.pendingToken.toList ++
    ((iter.pendingStrMatch.elim [] fun str => textTokens str.start str.chars) ++ iter.ahead readers)

/-- A step takes the first of the tokens. -/
def Follows (readers : Readers Uri Url) (tokens : List (Spanned Uri Url)) : Step Uri Url → Prop
  | .token token later => tokens = token :: later.remaining readers
  | .recursion later => tokens = later.remaining readers
  | .done => tokens = []

theorem remaining_clear (noToken : iter.pendingToken = none) (noStr : iter.pendingStrMatch = none) :
    iter.remaining readers = iter.ahead readers := by
  rw [remaining, noToken, noStr]
  rfl

/-- A leading space or line break is a token of its own. -/
theorem leading_follows (noToken : iter.pendingToken = none) (noStr : iter.pendingStrMatch = none)
    {start : Nat} {char : Char} {rest : List Char} (one : char.utf8Size = 1) {token : Token Uri Url}
    {step : Step Uri Url}
    (ran : (if char :: rest = [char] then some (Step.token (token, ⟨start, char :: rest⟩) iter)
      else do
        let first ← (TextSlice.mk start (char :: rest)).to? 1
        let rest ← (TextSlice.mk start (char :: rest)).from? 1
        some (.token (token, first) { iter with pendingStrMatch := some rest })) = some step) :
    Follows readers ((token, ⟨start, [char]⟩) :: textTokens (start + 1) rest ++ iter.ahead readers) step := by
  have single : byteLength [char] = 1 := by rw [byteLength_cons, one, byteLength_nil]
  split at ran
  next alone =>
    cases ran
    cases alone
    rw [Follows, remaining_clear noToken noStr]
    rfl
  next =>
    have first := TextSlice.to?_append start [char] rest
    have second := TextSlice.from?_append start [char] rest
    rw [single, List.singleton_append] at first second
    rw [first, second] at ran
    cases ran
    rw [Follows, remaining, noToken]
    rfl

/-- The text is taken apart as the stretch says. -/
theorem handleStrAsText_follows (noToken : iter.pendingToken = none) (noStr : iter.pendingStrMatch = none)
    {str : TextSlice} (nonempty : str.chars ≠ []) {step : Step Uri Url}
    (ran : iter.handleStrAsText str = some step) :
    Follows readers (textTokens str.start str.chars ++ iter.ahead readers) step := by
  obtain ⟨start, chars⟩ := str
  cases chars with
  | nil => exact absurd rfl nonempty
  | cons char rest =>
      have more : ∀ first : Char, first.utf8Size = 1 → first :: rest ≠ [first] →
          1 < byteLength (first :: rest) := by
        intro first one longer
        have some : byteLength rest ≠ 0 := fun zero => longer (by rw [byteLength_eq_zero.mp zero])
        rw [byteLength_cons, one]
        omega
      rw [textTokens]
      unfold handleStrAsText at ran
      dsimp only at ran
      by_cases newline : char = '\n'
      · subst newline
        rw [if_pos rfl]
        apply leading_follows noToken noStr (by decide)
        rw [← ran]
        split
        next => rfl
        next longer => rw [if_pos ⟨rfl, more '\n' (by decide) longer⟩]
      · have notLine : char :: rest ≠ ['\n'] := fun same => newline (List.cons.inj same).1
        have notHead : ¬ ((char :: rest).head? = some '\n' ∧ 1 < byteLength (char :: rest)) :=
          fun both => newline (Option.some.inj both.1)
        rw [if_neg notLine, if_neg notHead] at ran
        rw [if_neg newline]
        by_cases space : char = ' '
        · subst space
          rw [if_pos rfl]
          apply leading_follows noToken noStr (by decide)
          rw [← ran]
          split
          next => rfl
          next longer => rw [if_pos ⟨rfl, more ' ' (by decide) longer⟩]
        · have notSpace : char :: rest ≠ [' '] := fun same => space (List.cons.inj same).1
          have notFirst : ¬ ((char :: rest).head? = some ' ' ∧ 1 < byteLength (char :: rest)) :=
            fun both => space (Option.some.inj both.1)
          rw [if_neg notSpace, if_neg notFirst] at ran
          rw [if_neg space]
          by_cases trailing : rest.getLast? = some ' '
          · obtain ⟨front, rfl⟩ := List.getLast?_eq_some_iff.mp trailing
            have parts : char :: (front ++ [' ']) = (char :: front) ++ [' '] := rfl
            have positive := char.utf8Size_pos
            have single : byteLength [' '] = 1 := by decide
            have length : byteLength (char :: (front ++ [' '])) = byteLength (char :: front) + 1 := by
              rw [parts, byteLength_append, single]
            have last : (char :: (front ++ [' '])).getLast? = some ' ' := by
              rw [parts, List.getLast?_append]
              rfl
            have longer : 1 < byteLength (char :: (front ++ [' '])) := by
              rw [length, byteLength_cons]
              omega
            have first := TextSlice.to?_append start (char :: front) [' ']
            have second := TextSlice.from?_append start (char :: front) [' ']
            rw [if_pos ⟨last, longer⟩, length, Nat.add_sub_cancel, parts, first, second] at ran
            cases ran
            rw [if_pos trailing, List.dropLast_concat, Follows, remaining, noStr]
            rfl
          · have notLast : ¬ ((char :: rest).getLast? = some ' ' ∧ 1 < byteLength (char :: rest)) := by
              intro both
              cases rest with
              | nil => exact space (Option.some.inj both.1)
              | cons second rest =>
                  rw [List.getLast?_cons_cons] at both
                  exact trailing both.1
            rw [if_neg notLast] at ran
            cases ran
            rw [if_neg trailing, Follows, remaining_clear noToken noStr]
            rfl

/-- A match is its token, or text if it cannot be read. -/
theorem handleMatch_eq {found : Match} (good : GoodMatch text found) (sameText : iter.text = text) :
    iter.handleMatch readers found =
      match readToken readers (between text found.start found.stop) found.type with
      | some token => some (.token (token, between text found.start found.stop)
          { iter with lastMatchEnd := found.stop })
      | none => { iter with lastMatchEnd := found.stop }.handleUnread
          (between text found.start found.stop) := by
  obtain ⟨data, cut, dataStart, dataStop, within⟩ :=
    TextSlice.range?_eq_some good.start good.stop (Nat.le_of_lt good.nonempty)
  have same : between text found.start found.stop = data := between_of_range? cut
  have cut : (wholeText iter.text).range? found.start found.stop = some data := by
    rw [sameText]
    exact cut
  unfold handleMatch
  dsimp only
  rw [same, cut]
  simp only [Option.bind_eq_bind, Option.bind_some]
  cases type : found.type with
  | url =>
      cases read : readers.parseUrl (String.ofList data.chars) <;>
        simp only [readToken, read, Option.map_none, Option.map_some]
  | nostrUri =>
      cases read : readers.parseUri (String.ofList data.chars) <;>
        simp only [readToken, read, Option.map_none, Option.map_some]
  | hashtag =>
      have nonempty : data.chars ≠ [] := same ▸ between_nonempty good.start good.stop good.nonempty
      obtain ⟨rest, shape⟩ := @TextSlice.Within.eq_cons _ _ '#' within nonempty (by decide)
        (dataStart ▸ good.hashtag type)
      have name : data.from? 1 = some ⟨data.start + 1, rest⟩ := by
        have behind := TextSlice.from?_append data.start ['#'] rest
        have whole : (⟨data.start, ['#'] ++ rest⟩ : TextSlice) = data := by
          rw [List.singleton_append, ← shape]
        rw [whole] at behind
        exact behind
      dsimp only [readToken]
      split
      next more =>
        rw [name]
        rfl
      next => rfl
  | lineBreak => rfl

theorem next_pendingToken {token : Spanned Uri Url} (pending : iter.pendingToken = some token) :
    iter.next readers = some (.token token { iter with pendingToken := none }) := by
  rw [next, pending]

/-- A match, with text wanted. -/
theorem handleMatch_follows (noToken : iter.pendingToken = none) (noStr : iter.pendingStrMatch = none)
    (noMatch : iter.pendingMatch = none) (wanted : iter.finder.opts.text = true)
    (sameText : iter.text = text) {found : Match} (good : GoodMatch text found) {step : Step Uri Url}
    (ran : iter.handleMatch readers found = some step) :
    Follows readers (matchTokens readers true text found ++
      tokensBehind readers true text found.stop (iter.finder.allMatches readers)) step := by
  have behind : { iter with lastMatchEnd := found.stop }.ahead readers =
      tokensBehind readers true text found.stop (iter.finder.allMatches readers) := by
    rw [ahead, noMatch, wanted, sameText]
  rw [handleMatch_eq good sameText] at ran
  rw [matchTokens, ← behind]
  cases read : readToken readers (between text found.start found.stop) found.type with
  | some token =>
      rw [read] at ran
      cases ran
      exact congrArg (List.cons _)
        (@remaining_clear _ _ readers { iter with lastMatchEnd := found.stop } noToken noStr).symm
  | none =>
      rw [read] at ran
      dsimp only [handleUnread] at ran
      rw [if_pos wanted] at ran
      dsimp only
      rw [stretchTokens, if_pos rfl]
      exact @handleStrAsText_follows _ _ readers { iter with lastMatchEnd := found.stop } noToken noStr _
        (between_nonempty good.start good.stop good.nonempty) step ran

/-- What the finder has found, with text wanted. -/
theorem handleFound_follows (noToken : iter.pendingToken = none) (noStr : iter.pendingStrMatch = none)
    (noMatch : iter.pendingMatch = none) (cursors : Cursors text iter) {found : Match}
    (good : GoodMatch text found) (behind : iter.lastMatchEnd ≤ found.start) {step : Step Uri Url}
    (ran : iter.handleFound readers (some found) = some step) :
    Follows readers (tokensBehind readers true text iter.lastMatchEnd
      (found :: iter.finder.allMatches readers)) step := by
  rw [tokensBehind]
  rw [handleFound] at ran
  split at ran
  next gap =>
    obtain ⟨data, cut, _⟩ := TextSlice.range?_eq_some cursors.lastMatchEnd good.start behind
    have same : between text iter.lastMatchEnd found.start = data := between_of_range? cut
    have cut : (wholeText iter.text).range? iter.lastMatchEnd found.start = some data := by
      rw [cursors.sameText]
      exact cut
    rw [cut] at ran
    rw [same, stretchTokens, if_pos rfl]
    have nonempty : data.chars ≠ [] := same ▸ between_nonempty cursors.lastMatchEnd good.start gap.2
    have follows := @handleStrAsText_follows _ _ readers { iter with pendingMatch := some found }
      noToken noStr data nonempty step ran
    dsimp only [ahead] at follows
    rw [cursors.opts, cursors.sameText] at follows
    exact follows
  next noGap =>
    have same : iter.lastMatchEnd = found.start :=
      Nat.le_antisymm behind (not_lt.mp fun gap => noGap ⟨cursors.opts, gap⟩)
    rw [same, stretchTokens_empty good.start, List.nil_append]
    exact handleMatch_follows noToken noStr noMatch cursors.opts cursors.sameText good ran

/-- Without a match left. -/
theorem handleFound_none_follows (noToken : iter.pendingToken = none)
    (noStr : iter.pendingStrMatch = none) (noMatch : iter.pendingMatch = none)
    (cursors : Cursors text iter) (noneLeft : iter.finder.allMatches readers = [])
    {step : Step Uri Url} (ran : iter.handleFound readers none = some step) :
    Follows readers (tokensBehind readers true text iter.lastMatchEnd []) step := by
  have notOff : ¬ (!iter.finder.opts.text) = true := by simp [cursors.opts]
  have sameText := cursors.sameText
  subst sameText
  rw [tokensBehind]
  rw [handleFound, if_neg notOff] at ran
  split at ran
  next usedUp =>
    cases ran
    rw [Nat.le_antisymm cursors.lastMatchEnd.le usedUp, stretchTokens_empty (Boundary.last iter.text)]
    rfl
  next more =>
    have nothingAhead : { iter with lastMatchEnd := byteLength iter.text }.ahead readers = [] := by
      rw [ahead, noMatch]
      dsimp only
      rw [noneLeft, tokensBehind, stretchTokens_empty (Boundary.last iter.text)]
    rw [from?_eq_between cursors.lastMatchEnd, Option.bind_eq_bind, Option.bind_some] at ran
    have follows := @handleStrAsText_follows _ _ readers
      { iter with lastMatchEnd := byteLength iter.text } noToken noStr _
      (between_nonempty cursors.lastMatchEnd (Boundary.last iter.text) (not_le.mp more)) step ran
    rw [nothingAhead, List.append_nil] at follows
    exact follows

variable (asciiOnly : ∀ char, readers.isFe32 char = true → char.toNat < 128)

include asciiOnly in
/-- Each step takes the first of the tokens that are left. -/
theorem next_follows (cursors : Cursors text iter) {position : Nat}
    (pending : Pending readers text iter position) {step : Step Uri Url}
    (ran : iter.next readers = some step) : Follows readers (iter.remaining readers) step := by
  cases pending with
  | @token token pending noStr =>
      rw [next_pendingToken pending] at ran
      cases ran
      rw [Follows, remaining, pending]
      rfl
  | @str str noToken pending part =>
      rw [next_eq_handleStrAsText noToken pending] at ran
      have follows := @handleStrAsText_follows _ _ readers { iter with pendingStrMatch := none } noToken rfl
        str part.nonempty step ran
      rw [remaining, noToken, pending]
      exact follows
  | clear noToken noStr =>
      rw [remaining_clear noToken noStr, ahead]
      cases pendingMatch : iter.pendingMatch with
      | some found =>
          obtain ⟨good, _⟩ := cursors.pendingMatch found pendingMatch
          rw [next_eq_handleMatch noToken noStr pendingMatch] at ran
          dsimp only
          rw [cursors.opts, cursors.sameText]
          exact @handleMatch_follows _ _ readers text { iter with pendingMatch := none } noToken noStr rfl
            cursors.opts cursors.sameText found good step ran
      | none =>
          have boundary : Boundary iter.finder.text iter.finder.pos :=
            cursors.finderText.symm ▸ cursors.finderPos
          obtain ⟨found, finder, answered, finderText, opts, at_, order, exhausted, good⟩ :=
            FindMatches.next_spec asciiOnly iter.finder boundary
          rw [next_eq_handleFound noToken noStr pendingMatch answered] at ran
          have exhausted : found = none → finder.bytes.length ≤ finder.pos := by
            rw [FindMatches.bytes, finderText]
            exact exhausted
          rw [cursors.finderText] at at_ good finderText
          have cursors' : Cursors text { iter with finder := finder } := {
            cursors with
            finderText := finderText
            opts := opts ▸ cursors.opts
            finderPos := at_
            order := le_trans cursors.order order
            pendingMatch := fun other same => by
              rw [pendingMatch] at same
              cases same }
          dsimp only
          rw [cursors.opts, cursors.sameText]
          cases found with
          | some found =>
              obtain ⟨goodMatch, behind, _⟩ := good found rfl
              rw [FindMatches.allMatches_some asciiOnly boundary answered]
              exact @handleFound_follows _ _ readers text { iter with finder := finder } noToken noStr
                pendingMatch cursors' found goodMatch (le_trans cursors.order behind) step ran
          | none =>
              rw [FindMatches.allMatches_none answered]
              exact @handleFound_none_follows _ _ readers text { iter with finder := finder } noToken
                noStr pendingMatch cursors' (FindMatches.allMatches_exhausted (exhausted rfl)) step ran

include asciiOnly in
theorem collect_eq_remaining (cursors : Cursors text iter) {position : Nat}
    (pending : Pending readers text iter position) {steps : Nat} {tokens : List (Spanned Uri Url)}
    (ran : collect readers steps iter = .ok tokens) : tokens = iter.remaining readers := by
  induction steps generalizing iter position tokens with
  | zero => cases ran
  | succ steps ih =>
      rw [collect] at ran
      cases next_yields asciiOnly cursors pending with
      | inl finished =>
          have follows := next_follows asciiOnly cursors pending finished.1
          rw [finished.1] at ran
          cases ran
          exact follows.symm
      | inr yielded =>
          obtain ⟨token, later, step, _, _, _, cursors', pending'⟩ := yielded
          have follows := next_follows asciiOnly cursors pending step
          rw [step] at ran
          dsimp only at ran
          cases rest : collect readers steps later with
          | error halt =>
              rw [rest] at ran
              cases ran
          | ok others =>
              rw [rest] at ran
              cases ran
              rw [ih cursors' pending' rest]
              exact follows.symm

/-- Text is not wanted, so nothing is ever pending. -/
structure Plain (text : List Char) (iter : NostrParserIter Uri Url) : Prop where
  sameText : iter.text = text
  finderText : iter.finder.text = text
  finderPos : Boundary text iter.finder.pos
  unwanted : iter.finder.opts.text = false
  noToken : iter.pendingToken = none
  noStr : iter.pendingStrMatch = none
  noMatch : iter.pendingMatch = none

include asciiOnly in
/-- Every step goes on to the next match that can be read. -/
theorem collect_plain (plain : Plain text iter) {steps : Nat}
    (enough : byteLength text - iter.finder.pos < steps) :
    collect readers steps iter =
      .ok (tokensBehind readers false text iter.lastMatchEnd (iter.finder.allMatches readers)) := by
  induction steps generalizing iter with
  | zero => exact absurd enough (Nat.not_lt_zero _)
  | succ steps ih =>
      have boundary : Boundary iter.finder.text iter.finder.pos :=
        plain.finderText.symm ▸ plain.finderPos
      obtain ⟨found, finder, answered, finderText, opts, at_, _, _, good⟩ :=
        FindMatches.next_spec asciiOnly iter.finder boundary
      have unwanted : finder.opts.text = false := opts ▸ plain.unwanted
      rw [collect, next_eq_handleFound plain.noToken plain.noStr plain.noMatch answered]
      cases found with
      | none =>
          rw [FindMatches.allMatches_none answered, handleFound]
          dsimp only
          rw [unwanted]
          rfl
      | some found =>
          obtain ⟨goodMatch, behind, stop⟩ := good found rfl
          rw [plain.finderText] at at_ goodMatch finderText
          rw [FindMatches.allMatches_some asciiOnly boundary answered]
          have noGap : ¬ (finder.opts.text = true ∧ iter.lastMatchEnd < found.start) := by
            rw [unwanted]
            exact fun both => Bool.false_ne_true both.1
          rw [handleFound]
          dsimp only
          rw [if_neg noGap, @handleMatch_eq _ _ readers text { iter with finder := finder } found goodMatch
            plain.sameText, tokensBehind, stretchTokens, matchTokens]
          have longer := goodMatch.nonempty
          have within := at_.le
          have plain' : Plain text { iter with finder := finder, lastMatchEnd := found.stop } := {
            plain with
            finderText := finderText
            finderPos := at_
            unwanted := unwanted }
          have rest := ih plain' (show byteLength text - finder.pos < steps by omega)
          cases readToken readers (between text found.start found.stop) found.type with
          | some token =>
              dsimp only
              rw [rest]
              rfl
          | none =>
              have silent : { iter with finder := finder, lastMatchEnd := found.stop }.handleUnread
                  (between text found.start found.stop) =
                    some (.recursion { iter with finder := finder, lastMatchEnd := found.stop }) := by
                rw [handleUnread, unwanted]
                rfl
              dsimp only
              rw [silent]
              exact rest

theorem cursors_new {opts : NostrParserOptions} (wanted : opts.text = true) :
    Cursors text (new text opts : NostrParserIter Uri Url) where
  sameText := rfl
  finderText := rfl
  opts := wanted
  finderPos := Boundary.zero text
  lastMatchEnd := Boundary.zero text
  order := le_refl 0
  pendingMatch := by
    intro found impossible
    cases impossible

/-- The tokens of a text, from its matches. -/
def tokensOf (readers : Readers Uri Url) (text : List Char) (opts : NostrParserOptions) :
    List (Spanned Uri Url) :=
  tokensBehind readers opts.text text 0 (FindMatches.allMatches readers { text, opts })

include asciiOnly in
/-- The iterator ends, and yields the tokens of the text. -/
theorem collect_new (text : List Char) (opts : NostrParserOptions) {steps : Nat}
    (enough : byteLength text < steps) :
    collect readers steps (new text opts) = .ok (tokensOf readers text opts) := by
  cases wanted : opts.text with
  | false =>
      have plain : Plain text (new text opts : NostrParserIter Uri Url) := {
        sameText := rfl
        finderText := rfl
        finderPos := Boundary.zero text
        unwanted := wanted
        noToken := rfl
        noStr := rfl
        noMatch := rfl }
      rw [tokensOf, wanted]
      exact collect_plain asciiOnly plain (lt_of_le_of_lt (Nat.sub_le _ _) enough)
  | true =>
      have cursors : Cursors text (new text opts : NostrParserIter Uri Url) := cursors_new wanted
      obtain ⟨tokens, ran, _⟩ := @collect_covers _ _ readers text (new text opts) asciiOnly cursors [] text
        (List.nil_append text).symm (.clear rfl rfl)
      have same := collect_eq_remaining asciiOnly cursors (.clear rfl rfl) (ran steps enough)
      rw [ran steps enough, same]
      rfl

end NostrParserIter

end RustNostr.Parser
