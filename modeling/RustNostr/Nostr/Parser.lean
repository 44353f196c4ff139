import Mathlib
import RustNostr.Nostr.Filter
import RustNostr.Library.TextSlice

/-!
# The text parser

Splitting a text into URIs, URLs, hashtags and the text between them
(`nostr/src/parser.rs`). `none` is a panic: an index outside the bytes, or a slice
that does not begin and end between two characters.
-/

set_option autoImplicit false

namespace RustNostr.Parser

open Library

/-- Readers of other crates: NIP-21 URIs, URLs, and whether a character is one of
bech32. -/
structure Readers (Uri Url : Type) where
  parseUri : String → Option Uri
  parseUrl : String → Option Url
  isFe32 : Char → Bool

inductive Token (Uri Url : Type) where
  | nostr (uri : Uri)
  | url (url : Url)
  | hashtag (name : TextSlice)
  | text (text : TextSlice)
  | lineBreak
  | whitespace

inductive MatchType where
  | nostrUri
  | url
  | hashtag
  | lineBreak
  deriving DecidableEq

structure Match where
  type : MatchType
  start : Nat
  stop : Nat

structure NostrParserOptions where
  nostrUris : Bool := true
  urls : Bool := true
  hashtags : Bool := true
  text : Bool := true

/-! ## Characters -/

/-- `char::is_whitespace` -/
def isWhitespace (ch : Char) : Bool :=
  (9 ≤ ch.toNat ∧ ch.toNat ≤ 13 : Bool) || ch.toNat == 0x20 || ch.toNat == 0x85 || ch.toNat == 0xA0 ||
    ch.toNat == 0x1680 || (0x2000 ≤ ch.toNat ∧ ch.toNat ≤ 0x200A : Bool) || ch.toNat == 0x2028 ||
    ch.toNat == 0x2029 || ch.toNat == 0x202F || ch.toNat == 0x205F || ch.toNat == 0x3000

/-- `char::is_control` -/
def isControl (ch : Char) : Bool := ch.toNat < 0x20 ∨ 0x7F ≤ ch.toNat ∧ ch.toNat ≤ 0x9F

def isForbiddenHashtagChar (ch : Char) : Bool :=
  isWhitespace ch || isControl ch ||
    [0x2E, 0x2C, 0x21, 0x3F, 0x28, 0x29, 0x5B, 0x5D, 0x7B, 0x7D, 0x22, 0x27, 0x40, 0x23, 0x3B, 0x3A, 0x26,
      0x2A, 0x2B, 0x3D, 0x3C, 0x3E, 0x2F, 0x5C, 0x7C, 0x5E, 0x7E, 0x25, 0x24, 0x60].contains ch.toNat

def isAsciiWhitespace (byte : UInt8) : Bool := [0x20, 0x09, 0x0A, 0x0C, 0x0D].contains byte

def isAsciiAlphanumeric (byte : UInt8) : Bool :=
  isAsciiAlphabetic byte || (48 ≤ byte ∧ byte ≤ 57 : Bool)

def isSchemeByte (byte : UInt8) : Bool := isAsciiAlphanumeric byte || [0x2B, 0x2D, 0x2E].contains byte

def isAllowedUrlByte (byte : UInt8) : Bool :=
  isAsciiAlphanumeric byte ||
    [0x2D, 0x2E, 0x5F, 0x7E, 0x3A, 0x2F, 0x3F, 0x23, 0x5B, 0x5D, 0x40, 0x21, 0x24, 0x26, 0x27, 0x28, 0x29,
      0x2A, 0x2B, 0x2C, 0x3B, 0x3D, 0x25].contains byte

def isUrlTrailingPunctuation (byte : UInt8) : Bool :=
  [0x2E, 0x2C, 0x3B, 0x3A, 0x21, 0x3F, 0x29, 0x5D, 0x7D].contains byte

/-! ## Finding matches -/

structure FindMatches where
  text : List Char
  pos : Nat := 0
  opts : NostrParserOptions := {}

/-- `bytes.get(position..position + pattern.len()) == Some(pattern)` -/
def isAt (bytes : Bytes) (position : Nat) (pattern : Bytes) : Bool :=
  (bytes.drop position).take pattern.length == pattern

def wholeText (text : List Char) : TextSlice := ⟨0, text⟩

namespace FindMatches

variable (finder : FindMatches)

def bytes : Bytes := encodeChars finder.text

def tryParseLineBreak : Option (Option Match) := do
  let byte ← finder.bytes[finder.pos]?
  if byte ≠ 0x0A then some none else some (some ⟨.lineBreak, finder.pos, finder.pos + 1⟩)

/-- Whether the text begins here or a whitespace stands before. -/
def isPreceded : Option Bool :=
  if finder.pos = 0 then some true else (finder.bytes[finder.pos - 1]?).map isAsciiWhitespace

def tryParseHashtag : Option (Option Match) := do
  let byte ← finder.bytes[finder.pos]?
  if byte ≠ 0x23 then some none
  else do
    let preceded ← finder.isPreceded
    if !preceded then some none
    else do
      let rest ← (wholeText finder.text).from? finder.pos
      let name := (rest.chars.drop 1).takeWhile fun ch => !isForbiddenHashtagChar ch
      let stop := finder.pos + 1 + byteLength name
      if stop ≤ finder.pos + 1 then some none else some (some ⟨.hashtag, finder.pos, stop⟩)

def nip19Prefixes : List String :=
  ["nsec", "ncryptsec", "npub", "note", "nprofile", "nevent", "naddr"]

/-- `Nip19Prefix::from_str` -/
def nip19Prefix (data : List Char) : Option String :=
  nip19Prefixes.find? fun entity => entity.toList.isPrefixOf data

def tryParseNostrUri {Uri Url : Type} (readers : Readers Uri Url) : Option Match :=
  if !isAt finder.bytes finder.pos (utf8 "nostr:") then none
  else do
    let data ← (wholeText finder.text).from? (finder.pos + 6)
    let entity ← nip19Prefix data.chars
    let separator := finder.pos + 6 + entity.length
    if finder.bytes[separator]? ≠ some 0x31 then none
    else do
      let bech32 ← (wholeText finder.text).from? (separator + 1)
      let count := (bech32.chars.takeWhile readers.isFe32).length
      if count = 0 then none else some ⟨.nostrUri, finder.pos, separator + 1 + count⟩

def findPostUrlSchemePosition : Option (Option Nat) := do
  let byte ← finder.bytes[finder.pos]?
  if !isAsciiAlphabetic byte then some none
  else
    let stop := finder.pos + 1 + ((finder.bytes.drop (finder.pos + 1)).takeWhile isSchemeByte).length
    if isAt finder.bytes stop (utf8 "://") then some (some (stop + 3)) else some none

def findUrlEnd (afterSchemePos : Nat) : Option Nat :=
  let stop := afterSchemePos + ((finder.bytes.drop afterSchemePos).takeWhile fun byte =>
    !(isAsciiWhitespace byte || !isAllowedUrlByte byte)).length
  if stop ≤ afterSchemePos then none else some stop

/-- The loop that takes trailing punctuation off. -/
def trimPunctuation (afterSchemePos : Nat) : Nat → Option Nat
  | 0 => some 0
  | last + 1 =>
      if afterSchemePos < last + 1 then do
        let byte ← finder.bytes[last]?
        if isUrlTrailingPunctuation byte then trimPunctuation afterSchemePos last else some (last + 1)
      else some (last + 1)

def handleParenthesesMatching (start actualEnd : Nat) : Option Nat :=
  if start ≤ actualEnd ∧ actualEnd ≤ finder.bytes.length then
    let urlBytes := (finder.bytes.drop start).take (actualEnd - start)
    if urlBytes.count 0x28 < urlBytes.count 0x29 then some (actualEnd - 1) else some actualEnd
  else none

def trimUrlEnd (start afterSchemePos stop : Nat) : Option Nat := do
  let actualEnd ← finder.trimPunctuation afterSchemePos stop
  if afterSchemePos < actualEnd then do
    let byte ← finder.bytes[actualEnd - 1]?
    if byte = 0x29 then finder.handleParenthesesMatching start actualEnd else some actualEnd
  else some actualEnd

def tryParseUrl : Option (Option Match) := do
  match ← finder.findPostUrlSchemePosition with
  | none => some none
  | some afterSchemePos =>
      match finder.findUrlEnd afterSchemePos with
      | none => some none
      | some stop => do
          let actualEnd ← finder.trimUrlEnd finder.pos afterSchemePos stop
          if actualEnd ≤ afterSchemePos then some none
          else some (some ⟨.url, finder.pos, actualEnd⟩)

/-- The one pattern, if it is enabled, and else the next. -/
def orElse (enabled : Bool) (pattern rest : Option (Option Match)) : Option (Option Match) :=
  if enabled then
    match pattern with
    | none => none
    | some (some found) => some (some found)
    | some none => rest
  else rest

def tryParse {Uri Url : Type} (readers : Readers Uri Url) : Option (Option Match) :=
  orElse finder.opts.text finder.tryParseLineBreak
    (orElse finder.opts.hashtags finder.tryParseHashtag
      (orElse finder.opts.nostrUris (some (finder.tryParseNostrUri readers))
        (orElse finder.opts.urls finder.tryParseUrl (some none))))

/-- The position of the next character. -/
def advance : Option Nat := do
  let byte ← finder.bytes[finder.pos]?
  if byte < 128 then some (finder.pos + 1)
  else do
    let rest ← (wholeText finder.text).from? finder.pos
    some (finder.pos + (rest.chars.head?.map Char.utf8Size).getD 1)

theorem advance_gt {finder : FindMatches} {position : Nat}
    (advanced : finder.advance = some position) : finder.pos < position := by
  obtain ⟨byte, _, advanced⟩ := Option.bind_eq_some_iff.mp advanced
  split at advanced
  next =>
    cases advanced
    exact Nat.lt_succ_self _
  next =>
    obtain ⟨rest, _, advanced⟩ := Option.bind_eq_some_iff.mp advanced
    cases advanced
    cases rest.chars.head? with
    | none => exact Nat.lt_succ_self _
    | some char =>
        have positive := char.utf8Size_pos
        change _ < _ + char.utf8Size
        omega

/-- The loop of `Iterator::next`. -/
def next {Uri Url : Type} (readers : Readers Uri Url) (finder : FindMatches) :
    Option (Option Match × FindMatches) :=
  if finder.pos < finder.bytes.length then
    match finder.tryParse readers with
    | none => none
    | some (some found) => some (some found, { finder with pos := found.stop })
    | some none =>
        match _advanced : finder.advance with
        | none => none
        | some pos => next readers { finder with pos := pos }
  else some (none, finder)
termination_by finder.bytes.length - finder.pos
decreasing_by
  have later := advance_gt _advanced
  change finder.bytes.length - _ < _
  omega

end FindMatches

/-! ## Tokens -/

/-- A token with the part of the text that it stands for; the source keeps that part
for texts and hashtags alone. -/
abbrev Spanned (Uri Url : Type) := Token Uri Url × TextSlice

structure NostrParserIter (Uri Url : Type) where
  text : List Char
  finder : FindMatches
  pendingMatch : Option Match := none
  pendingStrMatch : Option TextSlice := none
  pendingToken : Option (Spanned Uri Url) := none
  lastMatchEnd : Nat := 0

/-- A token, the call of `next` again, or the end. -/
inductive Step (Uri Url : Type) where
  | token (token : Spanned Uri Url) (iter : NostrParserIter Uri Url)
  | recursion (iter : NostrParserIter Uri Url)
  | done

namespace NostrParserIter

variable {Uri Url : Type}

def new (text : List Char) (opts : NostrParserOptions) : NostrParserIter Uri Url where
  text := text
  finder := { text, opts }

def handleStrAsText (iter : NostrParserIter Uri Url) (str : TextSlice) : Option (Step Uri Url) :=
  if str.chars = ['\n'] then some (.token (.lineBreak, str) iter)
  else if str.chars.head? = some '\n' ∧ 1 < byteLength str.chars then do
    let first ← str.to? 1
    let rest ← str.from? 1
    some (.token (.lineBreak, first) { iter with pendingStrMatch := some rest })
  else if str.chars = [' '] then some (.token (.whitespace, str) iter)
  else if str.chars.head? = some ' ' ∧ 1 < byteLength str.chars then do
    let first ← str.to? 1
    let rest ← str.from? 1
    some (.token (.whitespace, first) { iter with pendingStrMatch := some rest })
  else if str.chars.getLast? = some ' ' ∧ 1 < byteLength str.chars then do
    let text ← str.to? (byteLength str.chars - 1)
    let last ← str.from? (byteLength str.chars - 1)
    some (.token (.text text, text) { iter with pendingToken := some (.whitespace, last) })
  else some (.token (.text str, str) iter)

/-- A match that cannot be read is text, if text is wanted. -/
def handleUnread (iter : NostrParserIter Uri Url) (data : TextSlice) : Option (Step Uri Url) :=
  if iter.finder.opts.text then iter.handleStrAsText data else some (.recursion iter)

def handleMatch (readers : Readers Uri Url) (iter : NostrParserIter Uri Url) (found : Match) :
    Option (Step Uri Url) := do
  let iter := { iter with lastMatchEnd := found.stop }
  let data ← (wholeText iter.text).range? found.start found.stop
  match found.type with
  | .url =>
      match readers.parseUrl (String.ofList data.chars) with
      | some url => some (.token (.url url, data) iter)
      | none => iter.handleUnread data
  | .nostrUri =>
      match readers.parseUri (String.ofList data.chars) with
      | some uri => some (.token (.nostr uri, data) iter)
      | none => iter.handleUnread data
  | .hashtag =>
      if 1 < byteLength data.chars then do
        let name ← data.from? 1
        some (.token (.hashtag name, data) iter)
      else iter.handleUnread data
  | .lineBreak => some (.token (.lineBreak, data) iter)

/-- With nothing pending: the text before the match comes first, and without a match
all the text that is left. -/
def handleFound (readers : Readers Uri Url) (iter : NostrParserIter Uri Url) :
    Option Match → Option (Step Uri Url)
  | some found =>
      if iter.finder.opts.text ∧ iter.lastMatchEnd < found.start then do
        let data ← (wholeText iter.text).range? iter.lastMatchEnd found.start
        { iter with pendingMatch := some found }.handleStrAsText data
      else iter.handleMatch readers found
  | none =>
      if !iter.finder.opts.text then some .done
      else if byteLength iter.text ≤ iter.lastMatchEnd then some .done
      else do
        let data ← (wholeText iter.text).from? iter.lastMatchEnd
        { iter with lastMatchEnd := byteLength iter.text }.handleStrAsText data

def next (readers : Readers Uri Url) (iter : NostrParserIter Uri Url) : Option (Step Uri Url) :=
  match iter.pendingToken with
  | some token => some (.token token { iter with pendingToken := none })
  | none =>
      match iter.pendingStrMatch with
      | some str => { iter with pendingStrMatch := none }.handleStrAsText str
      | none =>
          match iter.pendingMatch with
          | some found => { iter with pendingMatch := none }.handleMatch readers found
          | none => do
              let (found, finder) ← iter.finder.next readers
              { iter with finder := finder }.handleFound readers found

/-- Why the tokens are not all there. -/
inductive Halt where
  | panicked
  | unfinished

/-- The tokens that come in a number of steps. -/
def collect (readers : Readers Uri Url) :
    Nat → NostrParserIter Uri Url → Except Halt (List (Spanned Uri Url))
  | 0, _ => .error .unfinished
  | steps + 1, iter =>
      match iter.next readers with
      | none => .error .panicked
      | some .done => .ok []
      | some (.recursion iter) => collect readers steps iter
      | some (.token token iter) => (collect readers steps iter).map fun tokens => token :: tokens

end NostrParserIter

end RustNostr.Parser
