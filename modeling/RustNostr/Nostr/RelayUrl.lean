import Mathlib
import RustNostr.Nostr.Filter
import RustNostr.Library.Utf8

/-!
# Relay URLs

Reading and printing relay URLs (`nostr/src/types/url.rs`), over the `url` crate,
and the errors of the crate (`nostr/src/error.rs`).
-/

set_option autoImplicit false

namespace RustNostr

open Library

inductive ErrorKind where
  | malformed
  | invalid
  | missing
  | unsupported
  | crypto
  | other
  deriving DecidableEq

structure Error where
  kind : ErrorKind
  message : String
  deriving DecidableEq

inductive RelayUrlScheme where
  | ws
  | wss
  deriving DecidableEq

def RelayUrlScheme.parse (scheme : String) : Except Error RelayUrlScheme :=
  if scheme = "ws" then .ok .ws
  else if scheme = "wss" then .ok .wss
  else .error ⟨.unsupported, "unsupported URL scheme"⟩

/-- The `url` crate: a URL is its serialisation. -/
structure UrlCrate where
  parse : String → Except String String
  scheme : String → String

/-- A serialisation is parsed to the URL it is of. -/
def UrlCrate.RoundTrips (crate : UrlCrate) : Prop :=
  ∀ text url, crate.parse text = .ok url → crate.parse url = .ok url

/-- A relay URL with the rest of its fields. -/
structure FullRelayUrl (crate : UrlCrate) extends RelayUrl where
  scheme : RelayUrlScheme
  hasTrailingSlash : Bool
  parsed : ∃ text, crate.parse text = .ok url
  schemeOfUrl : RelayUrlScheme.parse (crate.scheme url) = .ok scheme

namespace FullRelayUrl

def maxRelayUrlLen : Nat := 1024

/-- `url.matches("://")` -/
def separators : List Char → Nat
  | ':' :: '/' :: '/' :: rest => separators rest + 1
  | _ :: rest => separators rest
  | [] => 0

def endsWithSlash (text : String) : Bool := text.toList.getLast? = some '/'

/-- `trim_end_matches('/')` -/
def trimSlashes (text : String) : String :=
  String.ofList (text.toList.reverse.dropWhile (· = '/')).reverse

variable {crate : UrlCrate}

def parse (crate : UrlCrate) (url : String) : Except Error (FullRelayUrl crate) :=
  if maxRelayUrlLen < (utf8 url).length then .error ⟨.invalid, "relay URL too long"⟩
  else if 1 < separators url.toList then .error ⟨.invalid, "multiple scheme separators"⟩
  else
    match parsed : crate.parse url with
    | .error error => .error ⟨.malformed, error⟩
    | .ok parsedUrl =>
        match known : RelayUrlScheme.parse (crate.scheme parsedUrl) with
        | .error error => .error error
        | .ok scheme => .ok {
            url := parsedUrl
            scheme := scheme
            hasTrailingSlash := endsWithSlash url
            parsed := ⟨url, parsed⟩
            schemeOfUrl := known }

def asStrWithoutTrailingSlash (relay : FullRelayUrl crate) : String := trimSlashes relay.url

def asStr (relay : FullRelayUrl crate) : String :=
  if !relay.hasTrailingSlash then relay.asStrWithoutTrailingSlash else relay.url

/-- `PartialEq for RelayUrl` -/
instance : BEq (FullRelayUrl crate) := ⟨fun left right => left.url == right.url⟩

theorem beq_iff {left right : FullRelayUrl crate} :
    (left == right) = true ↔ left.url = right.url := beq_iff_eq (a := left.url)

instance : EquivBEq (FullRelayUrl crate) where
  rfl := beq_iff.mpr rfl
  symm same := beq_iff.mpr (beq_iff.mp same).symm
  trans same other := beq_iff.mpr ((beq_iff.mp same).trans (beq_iff.mp other))

/-- The text of the URL has no second scheme separator, and if trailing slashes are
taken off, they do not matter. -/
def ReadBack (relay : FullRelayUrl crate) : Prop :=
  separators relay.asStr.toList ≤ 1 ∧
    (relay.hasTrailingSlash = true ∨ crate.parse (trimSlashes relay.url) = .ok relay.url)

/-- The text is one of the URL: short, with one scheme separator, and parsed to it. -/
def ReadFrom (relay : FullRelayUrl crate) (text : String) : Prop :=
  (utf8 text).length ≤ maxRelayUrlLen ∧ separators text.toList ≤ 1 ∧ crate.parse text = .ok relay.url

theorem parse_iff (relay : FullRelayUrl crate) (text : String) :
    (∃ back, parse crate text = .ok back ∧ (back == relay) = true) ↔ relay.ReadFrom text := by
  simp only [beq_iff]
  constructor
  · intro found
    obtain ⟨back, read, same⟩ := found
    unfold parse at read
    split at read
    next => cases read
    next short =>
      split at read
      next => cases read
      next single =>
        split at read
        next => cases read
        next parsedUrl parsed =>
          split at read
          next => cases read
          next =>
            cases read
            exact ⟨not_lt.mp short, not_lt.mp single, same ▸ parsed⟩
  · intro reads
    obtain ⟨short, single, parsed⟩ := reads
    unfold parse
    rw [if_neg (not_lt.mpr short), if_neg (not_lt.mpr single)]
    split
    next other => rw [parsed] at other; cases other
    next parsedUrl found =>
      have same : relay.url = parsedUrl := Except.ok.inj (parsed.symm.trans found)
      subst same
      split
      next other => rw [relay.schemeOfUrl] at other; cases other
      next => exact ⟨_, rfl, rfl⟩

/-- A short enough URL is read back from its text exactly if nothing gets in the
way of that. -/
theorem parse_asStr (law : crate.RoundTrips) (relay : FullRelayUrl crate)
    (short : (utf8 relay.asStr).length ≤ maxRelayUrlLen) :
    (∃ back, parse crate relay.asStr = .ok back ∧ (back == relay) = true) ↔ relay.ReadBack := by
  have crateReads : crate.parse relay.asStr = .ok relay.url ↔
      relay.hasTrailingSlash = true ∨ crate.parse (trimSlashes relay.url) = .ok relay.url := by
    obtain ⟨text, parsed⟩ := relay.parsed
    unfold asStr asStrWithoutTrailingSlash
    cases relay.hasTrailingSlash with
    | true => simp [law text _ parsed]
    | false => simp
  rw [parse_iff, ReadFrom, ReadBack, ← crateReads]
  exact and_iff_right short

section Lists

variable (text : FullRelayUrl crate → String) {relays : List (FullRelayUrl crate)}

/-- Reading that fails on the first bad relay. -/
theorem mapM_parse_iff :
    (∃ back, relays.mapM (fun relay => parse crate (text relay)) = .ok back ∧
      (back == relays) = true) ↔ ∀ relay ∈ relays, relay.ReadFrom (text relay) := by
  induction relays with
  | nil => simp [List.mapM_nil, pure, Except.pure]
  | cons relay relays ih =>
      rw [List.forall_mem_cons, ← parse_iff, ← ih, List.mapM_cons]
      cases parse crate (text relay) with
      | error error => simp [Bind.bind, Except.bind]
      | ok back =>
          cases relays.mapM fun relay => parse crate (text relay) with
          | error error => simp [Bind.bind, Except.bind]
          | ok backs => simp [Bind.bind, Except.bind, pure, Except.pure, List.cons_beq_cons]

/-- Reading that leaves bad relays out. -/
theorem filterMap_parse_iff :
    ((relays.filterMap fun relay => (parse crate (text relay)).toOption) == relays) = true ↔
      ∀ relay ∈ relays, relay.ReadFrom (text relay) := by
  induction relays with
  | nil => simp
  | cons relay relays ih =>
      rw [List.forall_mem_cons, ← parse_iff, ← ih, List.filterMap_cons]
      cases parse crate (text relay) with
      | error error =>
          have fewer := List.length_filterMap_le
            (fun relay => (parse crate (text relay)).toOption) relays
          constructor
          · intro same
            have lengths := List.length_eq_of_beq same
            rw [List.length_cons] at lengths
            exact absurd (lengths.symm.trans_le fewer) (Nat.not_succ_le_self _)
          · intro read
            obtain ⟨⟨_, failed, _⟩, _⟩ := read
            cases failed
      | ok back => simp [Except.toOption, List.cons_beq_cons]

end Lists

end FullRelayUrl

end RustNostr
