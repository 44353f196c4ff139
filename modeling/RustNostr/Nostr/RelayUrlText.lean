import Mathlib
import RustNostr.Nostr.RelayUrl

/-!
# The texts of relay URLs

Relay URLs are compared by what the `url` crate made of their text, and print a text with
or without a trailing slash, as the text was that they were read from. When does that
text stand for the relay URL?
-/

set_option autoImplicit false

namespace RustNostr

open Library

namespace FullRelayUrl

/-! ## Trailing slashes -/

theorem endsWithSlash_trimSlashes (text : String) : endsWithSlash (trimSlashes text) = false := by
  rw [endsWithSlash, trimSlashes, String.toList_ofList, List.getLast?_reverse, decide_eq_false_iff_not]
  intro slash
  have kept := List.head?_dropWhile_not (fun char => decide (char = '/')) text.toList.reverse
  rw [slash] at kept
  simp at kept

theorem trimSlashes_eq_self {text : String} (bare : endsWithSlash text = false) : trimSlashes text = text := by
  rw [endsWithSlash, decide_eq_false_iff_not, ← List.head?_reverse] at bare
  have kept : text.toList.reverse.dropWhile (fun char => decide (char = '/')) = text.toList.reverse := by
    cases reversed : text.toList.reverse with
    | nil => rfl
    | cons last rest =>
        rw [reversed] at bare
        have other : ¬ last = '/' := fun same => bare (congrArg some same)
        rw [List.dropWhile_cons, if_neg (by simpa using other)]
  rw [trimSlashes, kept, List.reverse_reverse, String.ofList_toList]

theorem trimSlashes_slash {text : String} (bare : endsWithSlash text = false) :
    trimSlashes (text ++ "/") = text := by
  have slash : ("/" : String).toList.reverse = ['/'] := rfl
  have trimmed := trimSlashes_eq_self bare
  rw [trimSlashes] at trimmed ⊢
  rw [String.toList_append, List.reverse_append, slash, List.singleton_append, List.dropWhile_cons,
    if_pos (by simp)]
  exact trimmed

/-- The scheme and the authority of a relay URL, without a path. -/
def Origin (text : String) : Prop :=
  ∃ scheme ∈ ["ws://", "wss://"], ∃ host : List Char, host ≠ [] ∧ '/' ∉ host ∧
    text.toList = scheme.toList ++ host

theorem Origin.endsWithSlash_eq {text : String} (origin : Origin text) : endsWithSlash text = false := by
  obtain ⟨scheme, _, host, nonempty, slashless, same⟩ := origin
  rw [endsWithSlash, decide_eq_false_iff_not, same, List.getLast?_append_of_ne_nil _ nonempty]
  intro slash
  exact slashless (List.mem_of_getLast? slash)

end FullRelayUrl

/-- The empty path of a relay URL is written as a slash, which its text may leave out. -/
def UrlCrate.WritesRoot (crate : UrlCrate) : Prop :=
  ∀ text origin, FullRelayUrl.Origin origin → crate.parse text = .ok (origin ++ "/") →
    crate.parse origin = .ok (origin ++ "/")

namespace FullRelayUrl

variable {crate : UrlCrate}

/-- The text is no longer than a relay URL may be and has one scheme separator, and it
leaves out no slash but that of an empty path. -/
structure Settled (relay : FullRelayUrl crate) : Prop where
  short : (utf8 relay.asStr).length ≤ maxRelayUrlLen
  single : separators relay.asStr.toList ≤ 1
  slash : relay.hasTrailingSlash = true ∨ endsWithSlash relay.url = false ∨
    ∃ origin, Origin origin ∧ relay.url = origin ++ "/"

/-- The texts are the same, or one is the other and the slash of an empty path. -/
def SameText (left right : String) : Prop :=
  left = right ∨ (Origin left ∧ right = left ++ "/") ∨ (Origin right ∧ left = right ++ "/")

theorem asStr_of_slash {relay : FullRelayUrl crate} (slash : relay.hasTrailingSlash = true) :
    relay.asStr = relay.url := by
  rw [asStr, slash]
  rfl

theorem asStr_of_bare {relay : FullRelayUrl crate} (bare : relay.hasTrailingSlash = false) :
    relay.asStr = trimSlashes relay.url := by
  rw [asStr, bare]
  rfl

section Laws

variable (law : crate.RoundTrips) (root : crate.WritesRoot)

include law

theorem parse_url (relay : FullRelayUrl crate) : crate.parse relay.url = .ok relay.url := by
  obtain ⟨text, parsed⟩ := relay.parsed
  exact law text _ parsed

include root

theorem Settled.parse_asStr {relay : FullRelayUrl crate} (settled : relay.Settled) :
    crate.parse relay.asStr = .ok relay.url := by
  have itself := parse_url law relay
  cases trailing : relay.hasTrailingSlash with
  | true => rw [asStr_of_slash trailing, itself]
  | false =>
      rw [asStr_of_bare trailing]
      cases settled.slash with
      | inl slash =>
          rw [trailing] at slash
          cases slash
      | inr kept =>
          cases kept with
          | inl bare => rw [trimSlashes_eq_self bare, itself]
          | inr emptyPath =>
              obtain ⟨origin, isOrigin, same⟩ := emptyPath
              rw [same, trimSlashes_slash isOrigin.endsWithSlash_eq]
              exact root _ origin isOrigin (same ▸ itself)

theorem Settled.readFrom {relay : FullRelayUrl crate} (settled : relay.Settled) :
    relay.ReadFrom relay.asStr :=
  ⟨settled.short, settled.single, settled.parse_asStr law root⟩

end Laws

theorem hasTrailingSlash_of_parse {text : String} {relay : FullRelayUrl crate}
    (read : parse crate text = .ok relay) : relay.hasTrailingSlash = endsWithSlash text := by
  unfold parse at read
  split at read
  next => cases read
  next =>
    split at read
    next => cases read
    next =>
      split at read
      next => cases read
      next =>
        split at read
        next => cases read
        next =>
          cases read
          rfl

/-- What is read from the text of a relay URL has the same text. -/
theorem asStr_of_parse_asStr {relay back : FullRelayUrl crate} (read : parse crate relay.asStr = .ok back)
    (same : back.url = relay.url) : back.asStr = relay.asStr := by
  have slash := hasTrailingSlash_of_parse read
  cases trailing : relay.hasTrailingSlash with
  | true =>
      rw [asStr_of_slash trailing] at slash ⊢
      cases ends : endsWithSlash relay.url with
      | true => rw [asStr_of_slash (slash.trans ends), same]
      | false => rw [asStr_of_bare (slash.trans ends), same, trimSlashes_eq_self ends]
  | false =>
      rw [asStr_of_bare trailing] at slash ⊢
      rw [asStr_of_bare (slash.trans (endsWithSlash_trimSlashes _)), same]

theorem sameText_symm {left right : String} (same : SameText left right) : SameText right left := by
  cases same with
  | inl same => exact .inl same.symm
  | inr slash =>
      cases slash with
      | inl longer => exact .inr (.inr longer)
      | inr shorter => exact .inr (.inl shorter)

theorem sameText_of_slash {left right : FullRelayUrl crate} (settled : right.Settled)
    (same : left.url = right.url) (slash : left.hasTrailingSlash = true)
    (bare : right.hasTrailingSlash = false) : SameText left.asStr right.asStr := by
  rw [asStr_of_slash slash, asStr_of_bare bare, same]
  cases settled.slash with
  | inl trailing =>
      rw [bare] at trailing
      cases trailing
  | inr kept =>
      cases kept with
      | inl unslashed =>
          rw [trimSlashes_eq_self unslashed]
          exact .inl rfl
      | inr emptyPath =>
          obtain ⟨origin, isOrigin, text⟩ := emptyPath
          rw [text, trimSlashes_slash isOrigin.endsWithSlash_eq]
          exact .inr (.inr ⟨isOrigin, rfl⟩)

theorem sameText_of_beq {left right : FullRelayUrl crate} (settled : left.Settled)
    (settled' : right.Settled) (same : left.url = right.url) : SameText left.asStr right.asStr := by
  cases slash : left.hasTrailingSlash with
  | true =>
      cases slash' : right.hasTrailingSlash with
      | true =>
          rw [asStr_of_slash slash, asStr_of_slash slash', same]
          exact .inl rfl
      | false => exact sameText_of_slash settled' same slash slash'
  | false =>
      cases slash' : right.hasTrailingSlash with
      | true => exact sameText_symm (sameText_of_slash settled same.symm slash' slash)
      | false =>
          rw [asStr_of_bare slash, asStr_of_bare slash', same]
          exact .inl rfl

/-- A text that is an origin and one that adds the slash are of one URL. -/
theorem url_eq_of_origin (law : crate.RoundTrips) (root : crate.WritesRoot) {left right : FullRelayUrl crate}
    (settled : left.Settled) (origin : Origin left.asStr) (longer : right.asStr = left.asStr ++ "/") :
    left.url = right.url := by
  have url : right.url = left.asStr ++ "/" := by
    cases slash : right.hasTrailingSlash with
    | true => rw [← asStr_of_slash slash, longer]
    | false =>
        have unslashed := endsWithSlash_trimSlashes right.url
        rw [← asStr_of_bare slash, longer, endsWithSlash, String.toList_append] at unslashed
        simp at unslashed
  have rooted := root _ _ origin (url ▸ parse_url law right)
  rw [settled.parse_asStr law root] at rooted
  exact (Except.ok.inj rooted).trans url.symm

/-- The text of a settled relay URL is one of it, and two of them are equal if and only if
their texts are, up to the slash of an empty path. -/
theorem relayUrl_normalForm (law : crate.RoundTrips) (root : crate.WritesRoot) {text : String}
    {relay : FullRelayUrl crate} (_read : parse crate text = .ok relay) (settled : relay.Settled) :
    (∃ back, parse crate relay.asStr = .ok back ∧ (back == relay) = true ∧ back.asStr = relay.asStr) ∧
      ∀ (text' : String) (relay' : FullRelayUrl crate), parse crate text' = .ok relay' → relay'.Settled →
        ((relay == relay') = true ↔ SameText relay.asStr relay'.asStr) := by
  constructor
  · obtain ⟨back, read, same⟩ := (parse_iff relay relay.asStr).mpr (settled.readFrom law root)
    exact ⟨back, read, same, asStr_of_parse_asStr read (beq_iff.mp same)⟩
  · intro _ relay' _ settled'
    rw [beq_iff]
    constructor
    · exact sameText_of_beq settled settled'
    · intro same
      cases same with
      | inl same =>
          have parsed := settled.parse_asStr law root
          rw [same, settled'.parse_asStr law root] at parsed
          exact (Except.ok.inj parsed).symm
      | inr slash =>
          cases slash with
          | inl longer => exact url_eq_of_origin law root settled longer.1 longer.2
          | inr shorter => exact (url_eq_of_origin law root settled' shorter.1 shorter.2).symm

/-! ## Two texts of one relay URL -/

/-- A crate that knows one host. -/
def rootCrate : UrlCrate where
  parse text :=
    if text = "wss://x" ∨ text = "wss://x/" then .ok "wss://x/"
    else .error "relative URL without a base"
  scheme _ := "wss"

theorem rootCrate_parse_ok {text url : String} (parsed : rootCrate.parse text = .ok url) : url = "wss://x/" := by
  change (if text = "wss://x" ∨ text = "wss://x/" then Except.ok "wss://x/" else _) = _ at parsed
  split at parsed
  next => exact (Except.ok.inj parsed).symm
  next => cases parsed

theorem rootCrate_roundTrips : rootCrate.RoundTrips := by
  intro text url parsed
  rw [rootCrate_parse_ok parsed]
  rfl

theorem rootCrate_writesRoot : rootCrate.WritesRoot := by
  intro text origin _ parsed
  have same : origin ++ "/" = "wss://x" ++ "/" := rootCrate_parse_ok parsed
  rw [String.append_left_inj] at same
  subst same
  rfl

def bareRoot : FullRelayUrl rootCrate where
  url := "wss://x/"
  scheme := .wss
  hasTrailingSlash := false
  parsed := ⟨"wss://x", rfl⟩
  schemeOfUrl := rfl

def slashedRoot : FullRelayUrl rootCrate := { bareRoot with hasTrailingSlash := true }

theorem parse_bareRoot : parse rootCrate "wss://x" = .ok bareRoot := by
  rfl

theorem parse_slashedRoot : parse rootCrate "wss://x/" = .ok slashedRoot := by
  rfl

theorem settled_bareRoot : bareRoot.Settled where
  short := by decide
  single := by decide
  slash := .inr (.inr ⟨"wss://x", ⟨"wss://", by decide, ['x'], by decide, by decide, by decide⟩, by decide⟩)

/-- The relay URL of the text without the slash. -/
theorem relayUrl_normalForm_bareRoot :
    ∃ back, parse rootCrate bareRoot.asStr = .ok back ∧ (back == bareRoot) = true ∧
      back.asStr = bareRoot.asStr :=
  (relayUrl_normalForm rootCrate_roundTrips rootCrate_writesRoot parse_bareRoot settled_bareRoot).1

/-- Equal relay URLs with different texts. -/
theorem relayUrl_slash_kept :
    ¬ ∀ (text text' : String) (relay relay' : FullRelayUrl rootCrate),
      parse rootCrate text = .ok relay → parse rootCrate text' = .ok relay' →
        ((relay == relay') = true ↔ relay.asStr = relay'.asStr) := by
  intro sameTexts
  have same := (sameTexts _ _ _ _ parse_bareRoot parse_slashedRoot).mp rfl
  exact absurd same (by decide)

end FullRelayUrl

end RustNostr
