import Mathlib
import RustNostr.Library.Fallible
import RustNostr.Nostr.CoordinateText
import RustNostr.Nostr.ExternalContent
import RustNostr.Nostr.GiftWrap
import RustNostr.Nostr.RelayUrl

/-!
# The values of tags

How the values of a tag are taken one after another and parsed (`nostr/src/nips/util.rs`),
and when an optional relay is read back.
-/

set_option autoImplicit false

namespace RustNostr

open Library

namespace Error

def missingTagKind : Error := ⟨.missing, "missing tag kind"⟩

def unknownTag : Error := ⟨.malformed, "unknown tag"⟩

def invalidCoordinate : Error := ⟨.invalid, "invalid coordinate"⟩

end Error

/-- The text of the `ParseIntError` for a text that is no number, or too large a one. -/
def parseIntError (text : List Char) : String :=
  if text.isEmpty then "cannot parse integer from empty string"
  else if (parseUnsigned (10 ^ text.length) text).isSome then "number too large to fit in target type"
  else "invalid digit found in string"

def parseU64 (text : String) : Except Error UInt64 :=
  match parseUnsigned (2 ^ 64) text.toList with
  | some number => .ok (.ofNat number)
  | none => .error ⟨.malformed, parseIntError text.toList⟩

def EventId.fromHex (externals : Externals) (hex : String) : Except Error EventId :=
  match externals.hexDecode hex with
  | some id => .ok id
  | none => .error .invalidHex

theorem Url.exists_parsed {crate : UrlCrate} {text serialization : String}
    (parsed : crate.parse text = .ok serialization) : ∃ text, crate.parse text = .ok serialization :=
  ⟨text, parsed⟩

def Url.parse (crate : UrlCrate) (text : String) : Except Error (Url crate) :=
  match parsed : crate.parse text with
  | .ok serialization => .ok ⟨serialization, Url.exists_parsed parsed⟩
  | .error error => .error ⟨.malformed, error⟩

/-- `from_kpi_format`, with its errors. -/
def Coordinate.parseKpi (externals : Externals) (coordinate : String) : Except Error Coordinate :=
  match splitColon coordinate.toList with
  | kind :: publicKey :: identifier :: _ =>
      match Kind.fromStr kind with
      | none => .error ⟨.malformed, parseIntError kind⟩
      | some kind => do
          let publicKey ← PublicKey.fromHex externals (String.ofList publicKey)
          .ok { kind, publicKey, identifier := String.ofList identifier }
  | _ => .error .invalidCoordinate

/-! ## Taking values -/

variable {α : Type}

def takeString (missing : String) : List String → Except Error (String × List String)
  | [] => .error ⟨.missing, missing⟩
  | value :: rest => .ok (value, rest)

def takeAndParse (parse : String → Except Error α) (missing : String) :
    List String → Except Error (α × List String)
  | [] => .error ⟨.missing, missing⟩
  | value :: rest => do
      let value ← parse value
      .ok (value, rest)

/-- A value that is missing or empty is none. -/
def takeAndParseOptional (parse : String → Except Error α) : List String → Except Error (Option α × List String)
  | [] => .ok (none, [])
  | value :: rest =>
      if value = "" then .ok (none, rest)
      else do
        let value ← parse value
        .ok (some value, rest)

def takeOptionalString : List String → Option String × List String
  | [] => (none, [])
  | value :: rest => (if value = "" then none else some value, rest)

def takePublicKey (externals : Externals) : List String → Except Error (PublicKey × List String) :=
  takeAndParse (PublicKey.fromHex externals) "public key"

def takeCoordinate (externals : Externals) : List String → Except Error (Coordinate × List String) :=
  takeAndParse (Coordinate.parseKpi externals) "coordinate"

def takeEventId (externals : Externals) : List String → Except Error (EventId × List String) :=
  takeAndParse (EventId.fromHex externals) "event ID"

def takeTimestamp : List String → Except Error (Timestamp × List String) :=
  takeAndParse parseU64 "timestamp"

def takeAndParseOptionalRelayUrl (crate : UrlCrate) :
    List String → Except Error (Option (FullRelayUrl crate) × List String) :=
  takeAndParseOptional (FullRelayUrl.parse crate)

def takeAndParseOptionalPublicKey (externals : Externals) :
    List String → Except Error (Option PublicKey × List String) :=
  takeAndParseOptional (PublicKey.fromHex externals)

/-! ## Written values -/

@[simp] theorem parseU64_toString (number : UInt64) : parseU64 (toString number.toNat) = .ok number := by
  rw [parseU64, parseUnsigned_toString number.toNat_lt]
  simp

theorem EventId.fromHex_hexEncode {externals : Externals} (codec : HexCodec externals) (id : EventId) :
    EventId.fromHex externals (externals.hexEncode id.val) = .ok id := by
  rw [EventId.fromHex, codec.encode, codec.decode]

theorem Url.parse_serialization {crate : UrlCrate} (law : crate.RoundTrips) (url : Url crate) :
    Url.parse crate url.serialization = .ok url := by
  obtain ⟨text, parsed⟩ := url.parsed
  have again := law text _ parsed
  unfold Url.parse
  split
  next serialization found =>
    rw [again] at found
    cases found
    rfl
  next error failed =>
    rw [again] at failed
    cases failed

theorem Coordinate.parseKpi_eq_ok {externals : Externals} {text : String} {coordinate : Coordinate} :
    parseKpi externals text = .ok coordinate ↔ fromKpiFormat externals text = some coordinate := by
  unfold parseKpi
  split
  next kind publicKey identifier rest pieces =>
    rw [fromKpiFormat, pieces]
    cases named : Kind.fromStr kind with
    | none => simp [named]
    | some kind =>
        dsimp only
        rw [bind_ok, PublicKey.fromHex, named]
        cases externals.hexDecode (String.ofList publicKey) with
        | none => simp
        | some key => simp
  next others =>
    unfold fromKpiFormat
    split
    next kind publicKey identifier rest pieces => exact absurd pieces (others kind publicKey identifier rest)
    next => simp

/-- A coordinate comes back up to the first colon in its identifier. -/
theorem Coordinate.parseKpi_display {externals : Externals} (codec : HexCodec externals) (coordinate : Coordinate) :
    parseKpi externals (coordinate.display externals) = .ok {
      kind := .fromU16 coordinate.kind.asU16
      publicKey := coordinate.publicKey
      identifier := String.ofList (coordinate.identifier.toList.takeWhile (· ≠ ':')) } :=
  parseKpi_eq_ok.mpr (fromKpiFormat_display codec coordinate)

/-! ## Values that come back -/

theorem takeAndParse_of_ok {α : Type} {parse : String → Except Error α} {missing text : String} {value : α}
    (read : parse text = .ok value) : takeAndParse parse missing [text] = .ok (value, []) := by
  rw [takeAndParse, read]
  rfl

theorem takeAndParseOptional_of_ok {α : Type} {parse : String → Except Error α} {write : α → String}
    (read : ∀ value, parse (write value) = .ok value) (full : ∀ value, write value ≠ "") (value : Option α) :
    takeAndParseOptional parse (value.map write).toList = .ok (value, []) := by
  cases value with
  | none => rfl
  | some value =>
      simp only [Option.map_some, Option.toList_some, takeAndParseOptional, full, if_false, read]
      rfl

/-- The identifier up to its first colon. -/
def cutCoordinate (coordinate : Coordinate) : Coordinate where
  kind := .fromU16 coordinate.kind.asU16
  publicKey := coordinate.publicKey
  identifier := String.ofList (coordinate.identifier.toList.takeWhile (· ≠ ':'))

theorem cutCoordinate_beq_iff (coordinate : Coordinate) :
    (cutCoordinate coordinate == coordinate) = true ↔ ':' ∉ coordinate.identifier.toList := by
  simp only [Coordinate.beq_iff, cutCoordinate, Kind.asU16_fromU16, true_and]
  rw [← Coordinate.takeWhile_eq_self, ← String.toList_inj, String.toList_ofList]

section Relays

variable {crate : UrlCrate}

/-- A relay as an optional value is read: an empty text is no relay. -/
def rereadRelay (relay : Option (FullRelayUrl crate)) : Except Error (Option (FullRelayUrl crate)) :=
  match relay with
  | none => .ok none
  | some relay =>
      if relay.asStr = "" then .ok none
      else (FullRelayUrl.parse crate relay.asStr).map some

theorem takeAndParseOptional_relay (relay : Option (FullRelayUrl crate)) (values : List String) :
    takeAndParseOptionalRelayUrl crate ((relay.map FullRelayUrl.asStr).getD "" :: values) =
      (rereadRelay relay).map fun relay => (relay, values) := by
  cases relay with
  | none => rfl
  | some relay =>
      simp only [takeAndParseOptionalRelayUrl, takeAndParseOptional, rereadRelay, Option.map_some, Option.getD_some]
      split
      next => rfl
      next =>
        cases FullRelayUrl.parse crate relay.asStr with
        | error error => rfl
        | ok read => rfl

/-- An optional relay comes back: its text is one of it, and not empty. -/
def RelayComesBack (relay : Option (FullRelayUrl crate)) : Prop :=
  ∀ relayUrl, relay = some relayUrl → relayUrl.asStr ≠ "" ∧ relayUrl.ReadFrom relayUrl.asStr

theorem rereadRelay_iff (relay : Option (FullRelayUrl crate)) :
    (∃ back, rereadRelay relay = .ok back ∧ (back == relay) = true) ↔ RelayComesBack relay := by
  cases relay with
  | none => simp [rereadRelay, RelayComesBack]
  | some relay =>
      simp only [RelayComesBack, Option.some.injEq, forall_eq', rereadRelay]
      split
      next empty => simp [empty]
      next some_ =>
        rw [← FullRelayUrl.parse_iff]
        cases FullRelayUrl.parse crate relay.asStr with
        | error error => simp [Except.map]
        | ok back => simp [Except.map, some_]

theorem rereadRelay_toOption_iff {α : Type} {relay : Option (FullRelayUrl crate)}
    {make : Option (FullRelayUrl crate) → α} {same : α → Prop} {others : Prop}
    (splits : ∀ back, same (make back) ↔ (back == relay) = true ∧ others) :
    (∃ back, (rereadRelay relay).toOption.map make = some back ∧ same back) ↔ RelayComesBack relay ∧ others := by
  rw [← rereadRelay_iff]
  cases rereadRelay relay with
  | error error => simp [Except.toOption]
  | ok back => simp [Except.toOption, splits]

end Relays

end RustNostr
