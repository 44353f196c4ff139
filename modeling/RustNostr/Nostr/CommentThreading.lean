import Mathlib
import RustNostr.Nostr.Comment

/-!
# The threading of comments

What is read of the tags that are written for the root and the parent of a comment, and
when it is the same two targets.
-/

set_option autoImplicit false

namespace RustNostr

open Library

variable {crate : UrlCrate} {externals : Externals}

/-! ## Hints -/

theorem takeAndParseOptional_relayHint (relayHint : Option (FullRelayUrl crate)) :
    takeAndParseOptionalRelayUrl crate (relayHint.map FullRelayUrl.asStr).toList =
      (rereadRelay relayHint).map fun relayHint => (relayHint, []) := by
  cases relayHint with
  | none => rfl
  | some relay => exact takeAndParseOptional_relay (some relay) []

theorem takeAndParseOptional_hintValues (relayHint : Option (FullRelayUrl crate)) (publicKey : Option PublicKey) :
    takeAndParseOptionalRelayUrl crate (Nip01Tag.hintValues externals relayHint publicKey) =
      (rereadRelay relayHint).map fun relayHint =>
        (relayHint, (publicKey.map (PublicKey.toHex externals)).toList) := by
  cases relayHint with
  | none => cases publicKey <;> rfl
  | some relay => exact takeAndParseOptional_relay (some relay) _

theorem takeAndParseOptional_publicKey (codec : HexCodec externals) (publicKey : Option PublicKey) :
    takeAndParseOptionalPublicKey externals (publicKey.map (PublicKey.toHex externals)).toList =
      .ok (publicKey, []) := by
  cases publicKey with
  | none => rfl
  | some key =>
      have written : key.toHex externals ≠ "" := by
        intro empty
        have length := PublicKey.length_toHex codec key
        rw [empty] at length
        cases length
      rw [Option.map_some, Option.toList_some, takeAndParseOptionalPublicKey, takeAndParseOptional, if_neg written,
        PublicKey.fromHex_toHex codec]
      rfl

/-- A URL as an optional value is read: an empty text is none. -/
def rereadHint (hint : Option (Url crate)) : Option (Url crate) := hint.filter (·.serialization ≠ "")

theorem takeAndParseOptional_hint (law : crate.RoundTrips) (hint : Option (Url crate)) :
    takeAndParseOptional (Url.parse crate) (hint.map Url.serialization).toList = .ok (rereadHint hint, []) := by
  cases hint with
  | none => rfl
  | some url =>
      rw [Option.map_some, Option.toList_some, takeAndParseOptional, rereadHint, Option.filter_some,
        Url.parse_serialization law]
      by_cases empty : url.serialization = ""
      · simp [empty]
      · simp [empty, bind, Except.bind]

/-! ## Single tags -/

namespace Nip22Tag

def uppercase : Nip22Tag crate → Bool
  | coordinate _ _ uppercase | event _ _ _ uppercase | externalContent _ _ uppercase | kind _ uppercase
  | nip73Kind _ uppercase | publicKey _ _ uppercase => uppercase

/-- What is read of the tag that is written, if anything. -/
def rereadTag (externals : Externals) (tag : Nip22Tag crate) : Option (Nip22Tag crate) :=
  (parse externals (tag.toTag externals).buf).toOption

/-- A tag is read by its letter, in either case. -/
theorem parse_maybeUppercase {lower upper : String} {values : List String}
    {reader : Bool → Except Error (Nip22Tag crate)} (letter : toAsciiUppercase lower = upper)
    (small : parse externals (lower :: values) = reader false)
    (large : parse externals (upper :: values) = reader true) (uppercase : Bool) :
    parse externals (Tag.maybeUppercase ⟨lower :: values, List.cons_ne_nil _ _⟩ uppercase).buf =
      reader uppercase := by
  cases uppercase with
  | false => exact small
  | true =>
      change parse externals (toAsciiUppercase lower :: values) = reader true
      rw [letter, large]

theorem rereadTag_coordinate (codec : HexCodec externals) (address : Coordinate)
    (relayHint : Option (FullRelayUrl crate)) (uppercase : Bool) :
    rereadTag externals (.coordinate address relayHint uppercase) =
      (rereadRelay relayHint).toOption.map fun relayHint => .coordinate (cutCoordinate address) relayHint uppercase := by
  have read : rereadTag externals (.coordinate address relayHint uppercase) = (parseATag externals
      (address.display externals :: (relayHint.map FullRelayUrl.asStr).toList) uppercase).toOption :=
    congrArg _ (parse_maybeUppercase rfl rfl rfl uppercase)
  rw [read, parseATag, Nip01Tag.parseATag, takeCoordinate, takeAndParse, Coordinate.parseKpi_display codec]
  simp only [bind, Except.bind, takeAndParseOptional_relayHint]
  cases rereadRelay relayHint <;> rfl

theorem rereadTag_event (codec : HexCodec externals) (id : EventId) (relayHint : Option (FullRelayUrl crate))
    (key : Option PublicKey) (uppercase : Bool) :
    rereadTag externals (.event id relayHint key uppercase) =
      (rereadRelay relayHint).toOption.map fun relayHint => .event id relayHint key uppercase := by
  have read : rereadTag externals (.event id relayHint key uppercase) = (parseETag externals
      (externals.hexEncode id.val :: Nip01Tag.hintValues externals relayHint key) uppercase).toOption :=
    congrArg _ (parse_maybeUppercase rfl rfl rfl uppercase)
  rw [read, parseETag, Nip01Tag.parseETag, takeEventId, takeAndParse, EventId.fromHex_hexEncode codec]
  simp only [bind, Except.bind, takeAndParseOptional_hintValues]
  cases rereadRelay relayHint with
  | error error => rfl
  | ok relay =>
      simp only [Except.map, takeAndParseOptional_publicKey codec]
      rfl

theorem rereadTag_publicKey (codec : HexCodec externals) (key : PublicKey) (relayHint : Option (FullRelayUrl crate))
    (uppercase : Bool) :
    rereadTag externals (.publicKey key relayHint uppercase) =
      (rereadRelay relayHint).toOption.map fun relayHint => .publicKey key relayHint uppercase := by
  have read : rereadTag externals (.publicKey key relayHint uppercase) = (parsePTag externals
      (key.toHex externals :: (relayHint.map FullRelayUrl.asStr).toList) uppercase).toOption :=
    congrArg _ (parse_maybeUppercase rfl rfl rfl uppercase)
  rw [read, parsePTag, Nip01Tag.parsePTag, takePublicKey, takeAndParse, PublicKey.fromHex_toHex codec]
  simp only [bind, Except.bind, takeAndParseOptional_relayHint]
  cases rereadRelay relayHint <;> rfl

theorem rereadTag_externalContent (law : crate.RoundTrips) (content : ExternalContentId crate)
    (hint : Option (Url crate)) (uppercase : Bool) :
    rereadTag externals (.externalContent content hint uppercase) =
      (ExternalContentId.fromStr crate content.toString).toOption.map fun content =>
        .externalContent content (rereadHint hint) uppercase := by
  have read : rereadTag externals (.externalContent content hint uppercase) = (parseITag
      (content.toString :: (hint.map Url.serialization).toList) uppercase).toOption :=
    congrArg _ (parse_maybeUppercase rfl rfl rfl uppercase)
  rw [read, parseITag, Nip73.parseITag, takeAndParse]
  cases ExternalContentId.fromStr crate content.toString with
  | error error => rfl
  | ok back =>
      simp only [Except.mapError, bind, Except.bind, takeAndParseOptional_hint law]
      rfl

/-- A number is read first. -/
theorem rereadTag_kind (number : Kind) (uppercase : Bool) :
    (rereadTag externals (.kind number uppercase) : Option (Nip22Tag crate)) =
      some (.kind (.fromU16 number.asU16) uppercase) := by
  have read : (rereadTag externals (.kind number uppercase) : Option (Nip22Tag crate)) =
      (parseKTag [toString number.asU16.toNat] uppercase).toOption := by
    cases uppercase <;> rfl
  rw [read, parseKTag, parseUnsigned_toString number.asU16.toNat_lt]
  simp [Except.toOption]

theorem rereadTag_nip73Kind (named : Nip73Kind) (uppercase : Bool) :
    (rereadTag externals (.nip73Kind named uppercase) : Option (Nip22Tag crate)) =
      (Nip73Kind.fromStr named.display).toOption.map fun named => .nip73Kind named uppercase := by
  have read : (rereadTag externals (.nip73Kind named uppercase) : Option (Nip22Tag crate)) =
      (parseKTag [named.display] uppercase).toOption :=
    congrArg _ (parse_maybeUppercase rfl rfl rfl uppercase)
  rw [read, parseKTag, Nip73Kind.parseUnsigned_display]
  cases Nip73Kind.fromStr named.display <;> rfl

/-- Reading keeps the case. -/
theorem uppercase_of_rereadTag (codec : HexCodec externals) (law : crate.RoundTrips) {tag back : Nip22Tag crate}
    (read : rereadTag externals tag = some back) : back.uppercase = tag.uppercase := by
  cases tag with
  | coordinate address relayHint uppercase =>
      rw [rereadTag_coordinate codec] at read
      obtain ⟨_, _, rfl⟩ := Option.map_eq_some_iff.mp read
      rfl
  | event id relayHint key uppercase =>
      rw [rereadTag_event codec] at read
      obtain ⟨_, _, rfl⟩ := Option.map_eq_some_iff.mp read
      rfl
  | externalContent content hint uppercase =>
      rw [rereadTag_externalContent law] at read
      obtain ⟨_, _, rfl⟩ := Option.map_eq_some_iff.mp read
      rfl
  | kind number uppercase =>
      rw [rereadTag_kind] at read
      cases read
      rfl
  | nip73Kind named uppercase =>
      rw [rereadTag_nip73Kind] at read
      obtain ⟨_, _, rfl⟩ := Option.map_eq_some_iff.mp read
      rfl
  | publicKey key relayHint uppercase =>
      rw [rereadTag_publicKey codec] at read
      obtain ⟨_, _, rfl⟩ := Option.map_eq_some_iff.mp read
      rfl

end Nip22Tag

/-! ## Both targets -/

section Targets

variable (externals) (content : String) (root parent : CommentTarget crate)

/-- An event with the kind, the tags and the content of the builder. -/
def commentEvent (id : EventId) (pubkey : PublicKey) (createdAt : Timestamp) (sig : Signature) : Event :=
  let builder : CommentBuilder crate := { content, commentTo := parent, root := some root }
  { id := id
    pubkey := pubkey
    createdAt := createdAt
    kind := (builder.intoEventBuilder externals).kind
    tags := (builder.intoEventBuilder externals).tags
    content := (builder.intoEventBuilder externals).content
    sig := sig }

end Targets

/-- Only tags of one case pass the check. -/
def OfCase {α : Type} (isRoot : Bool) (check : Nip22Tag crate → Option α) : Prop :=
  ∀ tag, tag.uppercase ≠ isRoot → check tag = none

theorem uppercase_of_mem_asTags {target : CommentTarget crate} {isRoot : Bool} {tag : Nip22Tag crate}
    (member : tag ∈ target.asTags isRoot) : tag.uppercase = isRoot := by
  cases target with
  | event id relayHint pubkeyHint kind =>
      simp only [CommentTarget.asTags, List.cons_append, List.mem_cons, List.mem_append, Option.mem_toList,
        Option.map_eq_some_iff] at member
      rcases member with rfl | ⟨_, _, rfl⟩ | ⟨_, _, rfl⟩ <;> rfl
  | coordinate address relayHint =>
      simp only [CommentTarget.asTags, List.mem_cons, List.not_mem_nil, or_false] at member
      rcases member with rfl | rfl | rfl <;> rfl
  | external content hint =>
      simp only [CommentTarget.asTags, List.mem_cons, List.not_mem_nil, or_false] at member
      rcases member with rfl | rfl <;> rfl

section Extraction

variable {α : Type}

theorem checkReturn_self (value : α) (isRoot : Bool) : checkReturn value isRoot isRoot = some value := by
  cases isRoot <;> rfl

theorem checkReturn_of_ne (value : α) {isRoot uppercase : Bool} (other : uppercase ≠ isRoot) :
    checkReturn value isRoot uppercase = none := by
  cases isRoot <;> cases uppercase <;> first | rfl | exact absurd rfl other

/-- What is found in the first of the tags that are written that passes the check. -/
def findWritten (externals : Externals) (check : Nip22Tag crate → Option α) (tags : List (Nip22Tag crate)) : Option α :=
  tags.findSome? fun tag => (Nip22Tag.rereadTag externals tag).bind check

@[simp] theorem findWritten_nil (check : Nip22Tag crate → Option α) : findWritten externals check [] = none := rfl

theorem findWritten_cons (check : Nip22Tag crate → Option α) (tag : Nip22Tag crate) (tags : List (Nip22Tag crate)) :
    findWritten externals check (tag :: tags) =
      ((Nip22Tag.rereadTag externals tag).bind check).or (findWritten externals check tags) := by
  rw [findWritten, List.findSome?_cons]
  cases (Nip22Tag.rereadTag externals tag).bind check <;> rfl

theorem findWritten_append (check : Nip22Tag crate → Option α) (tags others : List (Nip22Tag crate)) :
    findWritten externals check (tags ++ others) =
      (findWritten externals check tags).or (findWritten externals check others) :=
  List.findSome?_append

theorem findWritten_eq_none (codec : HexCodec externals) (law : crate.RoundTrips) {isRoot other : Bool}
    {check : Nip22Tag crate → Option α} (ofCase : OfCase isRoot check) (target : CommentTarget crate)
    (apart : other ≠ isRoot) : findWritten externals check (target.asTags other) = none := by
  rw [findWritten, List.findSome?_eq_none_iff]
  intro tag member
  rw [Option.bind_eq_none_iff]
  intro back read
  refine ofCase back ?_
  rwa [Nip22Tag.uppercase_of_rereadTag codec law read, uppercase_of_mem_asTags member]

/-- Only the tags of the target of the same case matter. -/
theorem findTag_commentEvent (codec : HexCodec externals) (law : crate.RoundTrips) {isRoot : Bool}
    {check : Nip22Tag crate → Option α} (ofCase : OfCase isRoot check) (content : String)
    (root parent : CommentTarget crate) (id : EventId) (pubkey : PublicKey) (createdAt : Timestamp)
    (sig : Signature) :
    findTag externals crate (commentEvent externals content root parent id pubkey createdAt sig) check =
      findWritten externals check ((if isRoot then root else parent).asTags isRoot) := by
  have each : ∀ (target : CommentTarget crate) (other : Bool), (target.asVec externals other).findSome?
      (fun tag => (Nip22Tag.parse externals tag.buf).toOption.bind check) =
      findWritten externals check (target.asTags other) := by
    intro target other
    rw [CommentTarget.asVec, List.findSome?_map]
    rfl
  change (root.asVec externals true ++ parent.asVec externals false).findSome? _ = _
  rw [List.findSome?_append, each, each]
  cases isRoot with
  | true => rw [findWritten_eq_none codec law ofCase parent (by decide), Option.or_none, if_pos rfl]
  | false => rw [findWritten_eq_none codec law ofCase root (by decide), Option.none_or, if_neg (by decide)]

/-- What is read of a target. -/
def CommentTarget.reread : CommentTarget crate → Option (CommentTarget crate)
  | event id relayHint pubkeyHint kind => (rereadRelay relayHint).toOption.map fun relayHint =>
      event id relayHint pubkeyHint (kind.map fun kind => .fromU16 kind.asU16)
  | coordinate address relayHint => (rereadRelay relayHint).toOption.map fun relayHint =>
      coordinate (cutCoordinate address) relayHint
  | external content hint => do
      let back ← (ExternalContentId.fromStr crate content.toString).toOption
      let kind ← (Nip73Kind.fromStr content.kind.display).toOption
      if kind != back.kind then none else some (external back (rereadHint hint))

theorem ofCase_check (isRoot : Bool) : OfCase isRoot (@Nip22Tag.checkKind crate isRoot) ∧
    OfCase isRoot (@Nip22Tag.checkNip73Kind crate isRoot) ∧
    OfCase isRoot (@Nip22Tag.checkEvent crate isRoot) ∧
    OfCase isRoot (@Nip22Tag.checkCoordinate crate isRoot) ∧
    OfCase isRoot (@Nip22Tag.checkExternal crate isRoot) := by
  refine ⟨?_, ?_, ?_, ?_, ?_⟩
  all_goals
    intro tag other
    cases tag <;> first | rfl | exact checkReturn_of_ne _ other

section Written

variable {isRoot : Bool} (codec : HexCodec externals)

include codec

theorem findWritten_event (id : EventId) (relayHint : Option (FullRelayUrl crate)) (pubkeyHint : Option PublicKey)
    (number : Option Kind) :
    findWritten externals (Nip22Tag.checkEvent isRoot)
        ((CommentTarget.event id relayHint pubkeyHint number).asTags isRoot) =
      (rereadRelay relayHint).toOption.map (fun relayHint => (id, relayHint, pubkeyHint)) ∧
    findWritten externals (Nip22Tag.checkCoordinate isRoot)
      ((CommentTarget.event id relayHint pubkeyHint number).asTags isRoot) = none ∧
    findWritten externals (Nip22Tag.checkExternal isRoot)
      ((CommentTarget.event id relayHint pubkeyHint number).asTags isRoot) = none ∧
    findWritten externals (Nip22Tag.checkKind isRoot)
        ((CommentTarget.event id relayHint pubkeyHint number).asTags isRoot) =
      number.map fun number => .fromU16 number.asU16 := by
  have written : ∀ {α : Type} (check : Nip22Tag crate → Option α),
      findWritten externals check ((CommentTarget.event id relayHint pubkeyHint number).asTags isRoot) =
        (((rereadRelay relayHint).toOption.bind fun relayHint => check (.event id relayHint pubkeyHint isRoot)).or
          (pubkeyHint.bind fun key => (rereadRelay relayHint).toOption.bind fun relayHint =>
            check (.publicKey key relayHint isRoot))).or
          (number.bind fun number => check (.kind (.fromU16 number.asU16) isRoot)) := by
    intro α check
    rw [CommentTarget.asTags, findWritten_append, findWritten_cons, Nip22Tag.rereadTag_event codec, Option.bind_map]
    congr 1
    · cases pubkeyHint with
      | none => rfl
      | some key =>
          rw [Option.map_some, Option.toList_some, findWritten_cons, findWritten_nil,
            Nip22Tag.rereadTag_publicKey codec, Option.or_none, Option.bind_map]
          rfl
    · cases number with
      | none => rfl
      | some number =>
          rw [Option.map_some, Option.toList_some, findWritten_cons, findWritten_nil, Nip22Tag.rereadTag_kind,
            Option.or_none]
          rfl
  simp only [written]
  cases rereadRelay relayHint <;> cases pubkeyHint <;> cases number <;> cases isRoot <;> exact ⟨rfl, rfl, rfl, rfl⟩

theorem findWritten_coordinate (address : Coordinate) (relayHint : Option (FullRelayUrl crate)) :
    findWritten externals (Nip22Tag.checkEvent isRoot)
      ((CommentTarget.coordinate address relayHint).asTags isRoot) = none ∧
    findWritten externals (Nip22Tag.checkCoordinate isRoot)
        ((CommentTarget.coordinate address relayHint).asTags isRoot) =
      (rereadRelay relayHint).toOption.map (fun relayHint => (cutCoordinate address, relayHint)) ∧
    findWritten externals (Nip22Tag.checkExternal isRoot)
      ((CommentTarget.coordinate address relayHint).asTags isRoot) = none ∧
    findWritten externals (Nip22Tag.checkKind isRoot)
      ((CommentTarget.coordinate address relayHint).asTags isRoot) = some (.fromU16 address.kind.asU16) := by
  have written : ∀ {α : Type} (check : Nip22Tag crate → Option α),
      findWritten externals check ((CommentTarget.coordinate address relayHint).asTags isRoot) =
        ((rereadRelay relayHint).toOption.bind fun relayHint =>
          check (.coordinate (cutCoordinate address) relayHint isRoot)).or
        (((rereadRelay relayHint).toOption.bind fun relayHint =>
          check (.publicKey address.publicKey relayHint isRoot)).or
          (check (.kind (.fromU16 address.kind.asU16) isRoot))) := by
    intro α check
    rw [CommentTarget.asTags, findWritten_cons, findWritten_cons, findWritten_cons, findWritten_nil,
      Nip22Tag.rereadTag_coordinate codec, Nip22Tag.rereadTag_publicKey codec, Nip22Tag.rereadTag_kind,
      Option.or_none, Option.bind_map, Option.bind_map]
    rfl
  simp only [written]
  cases rereadRelay relayHint <;> cases isRoot <;> exact ⟨rfl, rfl, rfl, rfl⟩

omit codec

theorem findWritten_external (law : crate.RoundTrips) (content : ExternalContentId crate) (hint : Option (Url crate)) :
    findWritten externals (Nip22Tag.checkEvent isRoot)
      ((CommentTarget.external content hint).asTags isRoot) = none ∧
    findWritten externals (Nip22Tag.checkCoordinate isRoot)
      ((CommentTarget.external content hint).asTags isRoot) = none ∧
    findWritten externals (Nip22Tag.checkExternal isRoot) ((CommentTarget.external content hint).asTags isRoot) =
      (ExternalContentId.fromStr crate content.toString).toOption.map (fun content => (content, rereadHint hint)) ∧
    findWritten externals (Nip22Tag.checkNip73Kind isRoot) ((CommentTarget.external content hint).asTags isRoot) =
      (Nip73Kind.fromStr content.kind.display).toOption := by
  have written : ∀ {α : Type} (check : Nip22Tag crate → Option α),
      findWritten externals check ((CommentTarget.external content hint).asTags isRoot) =
        ((ExternalContentId.fromStr crate content.toString).toOption.bind fun content =>
          check (.externalContent content (rereadHint hint) isRoot)).or
        ((Nip73Kind.fromStr content.kind.display).toOption.bind fun named => check (.nip73Kind named isRoot)) := by
    intro α check
    rw [CommentTarget.asTags, findWritten_cons, findWritten_cons, findWritten_nil,
      Nip22Tag.rereadTag_externalContent law, Nip22Tag.rereadTag_nip73Kind, Option.or_none, Option.bind_map,
      Option.bind_map]
    rfl
  simp only [written]
  cases ExternalContentId.fromStr crate content.toString <;> cases Nip73Kind.fromStr content.kind.display <;>
    cases isRoot <;> exact ⟨rfl, rfl, rfl, rfl⟩

end Written

/-- Where the tags of a target are all that is found, the target is extracted as it is read. -/
theorem extractData_of_target (codec : HexCodec externals) (law : crate.RoundTrips) {event : Event} {isRoot : Bool}
    {target : CommentTarget crate} (found : ∀ {α : Type} (check : Nip22Tag crate → Option α), OfCase isRoot check →
      findTag externals crate event check = findWritten externals check (target.asTags isRoot)) :
    extractData externals crate event isRoot = target.reread := by
  obtain ⟨kind, nip73Kind, event_, coordinate, external⟩ := @ofCase_check crate isRoot
  rw [extractData, extractEvent, extractKind, extractCoordinate, extractExternal, extractNip73Kind,
    found _ kind, found _ nip73Kind, found _ event_, found _ coordinate, found _ external]
  cases target with
  | event id relayHint pubkeyHint number =>
      obtain ⟨event_, coordinate, external, kind⟩ :=
        @findWritten_event _ _ isRoot codec id relayHint pubkeyHint number
      rw [event_, coordinate, external, kind, CommentTarget.reread]
      cases rereadRelay relayHint <;> rfl
  | coordinate address relayHint =>
      obtain ⟨event_, coordinate, external, kind⟩ := @findWritten_coordinate _ _ isRoot codec address relayHint
      have same : (Kind.fromU16 address.kind.asU16 != (cutCoordinate address).kind) = false := by
        simp [cutCoordinate, bne, Kind.beq_iff]
      rw [event_, coordinate, external, kind, CommentTarget.reread]
      cases rereadRelay relayHint with
      | error error => rfl
      | ok relay => simp [Except.toOption, same]
  | external content hint =>
      obtain ⟨event_, coordinate, external, kind⟩ := @findWritten_external _ externals isRoot law content hint
      rw [event_, coordinate, external, kind, CommentTarget.reread]
      cases ExternalContentId.fromStr crate content.toString <;> rfl

/-- Each target is extracted as it is read. -/
theorem extractData_commentEvent (codec : HexCodec externals) (law : crate.RoundTrips) (isRoot : Bool)
    (content : String) (root parent : CommentTarget crate) (id : EventId) (pubkey : PublicKey)
    (createdAt : Timestamp) (sig : Signature) :
    extractData externals crate (commentEvent externals content root parent id pubkey createdAt sig) isRoot =
      (if isRoot then root else parent).reread :=
  extractData_of_target codec law fun _ ofCase =>
    findTag_commentEvent codec law ofCase content root parent id pubkey createdAt sig

end Extraction

/-! ## When it is the same target -/

namespace CommentTarget

/-- A target comes back: its relay hint does, or its URL hint has a text, and a coordinate
has no colon in its identifier, and external content is recovered from its text and its
kind from that of the kind. -/
def ComesBack : CommentTarget crate → Prop
  | event _ relayHint _ _ => RelayComesBack relayHint
  | coordinate address relayHint => ':' ∉ address.identifier.toList ∧ RelayComesBack relayHint
  | external content hint =>
      content.Recoverable ∧ content.kind.ComesBack ∧ ∀ url, hint = some url → url.serialization ≠ ""

theorem reread_event_iff (id : EventId) (relayHint : Option (FullRelayUrl crate)) (pubkeyHint : Option PublicKey)
    (kind : Option Kind) :
    (∃ back, (event id relayHint pubkeyHint kind).reread = some back ∧
      (back == event id relayHint pubkeyHint kind) = true) ↔ RelayComesBack relayHint := by
  have sameKind : ((kind.map fun kind => Kind.fromU16 kind.asU16) == kind) = true := by
    cases kind with
    | none => rfl
    | some kind => simp [Kind.beq_iff]
  have split := @rereadRelay_toOption_iff crate _ relayHint
    (fun relayHint => event id relayHint pubkeyHint (kind.map fun kind => .fromU16 kind.asU16))
    (fun back => (back == event id relayHint pubkeyHint kind) = true) True (fun back => by
      change (id == id && back == relayHint && pubkeyHint == pubkeyHint && _ == kind) = true ↔ _
      simp [sameKind])
  rwa [and_true] at split

theorem reread_coordinate_iff (address : Coordinate) (relayHint : Option (FullRelayUrl crate)) :
    (∃ back, (coordinate address relayHint).reread = some back ∧
      (back == coordinate address relayHint) = true) ↔
      ':' ∉ address.identifier.toList ∧ RelayComesBack relayHint := by
  have split := @rereadRelay_toOption_iff crate _ relayHint (fun relayHint => coordinate (cutCoordinate address) relayHint)
    (fun back => (back == coordinate address relayHint) = true) (':' ∉ address.identifier.toList) (fun back => by
      rw [← cutCoordinate_beq_iff]
      change (cutCoordinate address == address && back == relayHint) = true ↔ _
      rw [Bool.and_eq_true, and_comm])
  rwa [and_comm] at split

theorem rereadHint_iff (hint : Option (Url crate)) :
    rereadHint hint = hint ↔ ∀ url, hint = some url → url.serialization ≠ "" := by
  cases hint with
  | none => simp [rereadHint]
  | some url => by_cases empty : url.serialization = "" <;> simp [rereadHint, Option.filter, empty]

theorem reread_external_iff (law : crate.RoundTrips) (content : ExternalContentId crate) (hint : Option (Url crate)) :
    (∃ back, (external content hint).reread = some back ∧ (back == external content hint) = true) ↔
      content.Recoverable ∧ content.kind.ComesBack ∧ ∀ url, hint = some url → url.serialization ≠ "" := by
  rw [← ExternalContentId.fromStr_toString_iff law, ← Nip73Kind.fromStr_display_iff, ← rereadHint_iff, reread]
  have same : ∀ back : ExternalContentId crate, (external back (rereadHint hint) == external content hint) = true ↔
      back = content ∧ rereadHint hint = hint := by
    intro back
    change (back == content && rereadHint hint == hint) = true ↔ _
    rw [Bool.and_eq_true, beq_iff_eq, beq_iff_eq]
  cases ExternalContentId.fromStr crate content.toString with
  | error error => simp [Except.toOption]
  | ok back =>
      cases Nip73Kind.fromStr content.kind.display with
      | error error => simp [Except.toOption]
      | ok kind =>
          change (∃ target, (if (kind != back.kind) = true then none else some (external back (rereadHint hint))) =
            some target ∧ (target == external content hint) = true) ↔ _
          simp only [Except.ok.injEq]
          constructor
          · intro extracted
            obtain ⟨target, read, equal⟩ := extracted
            split at read
            next => cases read
            next known =>
              cases read
              obtain ⟨rfl, hint⟩ := (same back).mp equal
              simp only [bne_iff_ne, ne_eq, not_not] at known
              exact ⟨rfl, known, hint⟩
          · intro comesBack
            obtain ⟨rfl, known, hint⟩ := comesBack
            exact ⟨_, if_neg (by simp [known]), (same back).mpr ⟨rfl, hint⟩⟩

theorem reread_iff (law : crate.RoundTrips) (target : CommentTarget crate) :
    (∃ back, target.reread = some back ∧ (back == target) = true) ↔ target.ComesBack := by
  cases target with
  | event id relayHint pubkeyHint kind => exact reread_event_iff id relayHint pubkeyHint kind
  | coordinate address relayHint => exact reread_coordinate_iff address relayHint
  | external content hint => exact reread_external_iff law content hint

end CommentTarget

/-- The root and the parent of a comment are extracted from the event it is built to if and
only if both come back. -/
theorem commentTargets_extracted_iff (codec : HexCodec externals) (law : crate.RoundTrips) (content : String)
    (root parent : CommentTarget crate) (id : EventId) (pubkey : PublicKey) (createdAt : Timestamp)
    (sig : Signature) :
    ((∃ back, extractRoot externals crate (commentEvent externals content root parent id pubkey createdAt sig) =
        some back ∧ (back == root) = true) ∧
      ∃ back, extractParent externals crate (commentEvent externals content root parent id pubkey createdAt sig) =
        some back ∧ (back == parent) = true) ↔ root.ComesBack ∧ parent.ComesBack := by
  rw [extractRoot, extractParent, extractData_commentEvent codec law, extractData_commentEvent codec law, if_pos rfl,
    if_neg (by decide), CommentTarget.reread_iff law, CommentTarget.reread_iff law]

/-! ## Some comments -/

open ExternalContentId (sampleUrls sampleUrl)

/-- A comment on nothing in particular by nobody in particular. -/
def sampleComment (root parent : CommentTarget sampleUrls) : Event :=
  commentEvent hexExternals "" root parent (.replicate 32 0) (.replicate 32 0) 0 (.replicate 64 0)

/-- A note with its author and its kind. -/
def targetNote : CommentTarget sampleUrls :=
  .event (.replicate 32 1) none (some (.replicate 32 2)) (some (.fromU16 1))

/-- A transaction with a page on it. -/
def sampleTransaction : CommentTarget sampleUrls :=
  .external (.blockchainTransaction "ethereum" "0x98" (some "100")) (some sampleUrl)

theorem targetNote_comesBack : targetNote.ComesBack := by
  intro relayUrl known
  cases known

theorem commentTargets_extracted_transaction :
    (∃ back, extractRoot hexExternals sampleUrls (sampleComment sampleTransaction targetNote) = some back ∧
      (back == sampleTransaction) = true) ∧
    ∃ back, extractParent hexExternals sampleUrls (sampleComment sampleTransaction targetNote) = some back ∧
      (back == targetNote) = true := by
  have root : sampleTransaction.ComesBack := by
    refine ⟨⟨by decide, ⟨by decide, by decide⟩, ?_⟩, ⟨by decide, by decide⟩, fun url known => ?_⟩
    · have first : ¬ Nip73.blockchainTx <:+:
          ExternalContentId.chainText "ethereum" (some "100") ++ Nip73.blockchainTx.dropLast := by decide
      exact first
    · cases known
      decide
  exact (commentTargets_extracted_iff hexExternals_hexCodec ExternalContentId.sampleUrls_roundTrips "" sampleTransaction
    targetNote (.replicate 32 0) (.replicate 32 0) 0 (.replicate 64 0)).mpr ⟨root, targetNote_comesBack⟩

/-- An article with a colon in its identifier. -/
def colonArticle : CommentTarget sampleUrls := .coordinate (Coordinate.zeroArticle "blog:post") none

/-- A transaction of a blockchain whose name begins with a blank. -/
def blankTransaction : CommentTarget sampleUrls := .external (.blockchainTransaction " bitcoin" "00" none) none

/-- The identifier is cut at its colon, and what does not fit its kind is not extracted. -/
theorem commentTargets_not_extracted :
    extractRoot hexExternals sampleUrls (sampleComment colonArticle targetNote) =
      some (.coordinate (Coordinate.zeroArticle "blog") none) ∧
    extractRoot hexExternals sampleUrls (sampleComment blankTransaction targetNote) = none ∧
    ¬ ∀ root parent,
      (∃ back, extractRoot hexExternals sampleUrls (sampleComment root parent) = some back ∧ (back == root) = true) ∧
      ∃ back, extractParent hexExternals sampleUrls (sampleComment root parent) = some back ∧
        (back == parent) = true := by
  have reads : ∀ root parent, extractRoot hexExternals sampleUrls (sampleComment root parent) = root.reread :=
    fun root parent => extractData_commentEvent hexExternals_hexCodec ExternalContentId.sampleUrls_roundTrips true ""
      root parent _ _ _ _
  have cut : cutCoordinate (Coordinate.zeroArticle "blog:post") = Coordinate.zeroArticle "blog" := by
    have identifier : String.ofList ("blog:post".toList.takeWhile (· ≠ ':')) = "blog" := by decide
    rw [cutCoordinate, Coordinate.zeroArticle, identifier]
    rfl
  refine ⟨?_, ?_, fun extracted => ?_⟩
  · rw [reads, ← cut]
    rfl
  · rw [reads]
    decide +kernel
  · obtain ⟨⟨back, read, same⟩, _⟩ := extracted colonArticle targetNote
    rw [reads] at read
    have comesBack := (CommentTarget.reread_iff ExternalContentId.sampleUrls_roundTrips colonArticle).mp ⟨back, read, same⟩
    exact absurd comesBack.1 (by decide)

end RustNostr
