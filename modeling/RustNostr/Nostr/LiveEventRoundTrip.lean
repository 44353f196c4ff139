import Mathlib
import RustNostr.Nostr.LiveEvent

/-!
# Live events come back

What is read of the tags that are written for a live event, and when it is the same event.
-/

set_option autoImplicit false

namespace RustNostr

open Library

variable {crate : UrlCrate}

/-- What the codecs of other crates promise. -/
structure LiveCalls.Standard (calls : LiveCalls crate) : Prop where
  hex : HexCodec calls.externals
  url : crate.RoundTrips
  signature : ∀ signature : Signature,
    calls.signatureFromStr (calls.externals.hexEncode signature.val) = .ok signature

variable {calls : LiveCalls crate}

/-! ## Single tags -/

namespace Nip53Tag

/-- What is read of the tag that is written. -/
def reread (calls : LiveCalls crate) (tag : Nip53Tag crate) : Except Error (Nip53Tag crate) :=
  parse calls (toTag calls tag).buf

theorem reread_hashtag (hashtag : String) : reread calls (.hashtag hashtag) =
    if hashtag.toList.any calls.isUppercase then .error ⟨.invalid, "hashtag contains uppercase characters"⟩
    else .ok (.hashtag hashtag) := rfl

theorem takeUrl (standard : calls.Standard) {missing : String} {make : Url crate → Nip53Tag crate} (url : Url crate) :
    (takeAndParse (Url.parse crate) missing [url.serialization]).map (fun taken => make taken.1) =
      .ok (make url) := by
  rw [takeAndParse_of_ok (Url.parse_serialization standard.url url)]
  rfl

theorem takeNumber {missing : String} {make : UInt64 → Nip53Tag crate} (number : UInt64) :
    (takeAndParse parseU64 missing [toString number.toNat]).map (fun taken => make taken.1) =
      .ok (make number) := by
  rw [takeAndParse_of_ok (parseU64_toString number)]
  rfl

theorem reread_starts (timestamp : Timestamp) : reread calls (.starts timestamp) = .ok (.starts timestamp) :=
  @takeNumber crate "timestamp" .starts timestamp

theorem reread_ends (timestamp : Timestamp) : reread calls (.ends timestamp) = .ok (.ends timestamp) :=
  @takeNumber crate "timestamp" .ends timestamp

theorem reread_currentParticipants (count : UInt64) :
    reread calls (.currentParticipants count) = .ok (.currentParticipants count) :=
  @takeNumber crate "current participants" .currentParticipants count

theorem reread_totalParticipants (count : UInt64) :
    reread calls (.totalParticipants count) = .ok (.totalParticipants count) :=
  @takeNumber crate "total participants" .totalParticipants count

theorem reread_relays (relays : List (FullRelayUrl crate)) : reread calls (.relays relays) =
    (relays.mapM fun relay => FullRelayUrl.parse crate relay.asStr).map .relays := by
  change ((relays.map FullRelayUrl.asStr).mapM (FullRelayUrl.parse crate)).map _ = _
  rw [List.mapM_map]
  rfl

theorem reread_pinned (standard : calls.Standard) (eventId : EventId) :
    reread calls (.pinned eventId) = .ok (.pinned eventId) := by
  change (takeEventId calls.externals [calls.externals.hexEncode eventId.val]).map _ = _
  rw [takeEventId, takeAndParse_of_ok (EventId.fromHex_hexEncode standard.hex eventId)]
  rfl

theorem reread_hand (raised : Bool) : reread calls (.hand raised) = .ok (.hand raised) := by
  cases raised <;> rfl

theorem hexEncode_signature_ne (standard : calls.Standard) (signature : Signature) :
    calls.externals.hexEncode signature.val ≠ "" :=
  standard.hex.hexEncode_ne_empty (List.ne_nil_of_length_eq_add_one signature.property)

theorem reread_participant (standard : calls.Standard) (participant : LiveEventParticipant crate) :
    reread calls (.participant participant) = (rereadRelay participant.relayUrl).map fun relayUrl =>
      .participant { participant with
        relayUrl := relayUrl
        marker := .fromStr participant.marker.asStr } := by
  obtain ⟨publicKey, relayUrl, marker, proof⟩ := participant
  change parsePTag calls (publicKey.toHex calls.externals :: (relayUrl.map FullRelayUrl.asStr).getD "" ::
    marker.asStr :: (proof.map fun proof => calls.externals.hexEncode proof.val).toList) = _
  simp only [parsePTag, takePublicKey, takeAndParse, PublicKey.fromHex_toHex standard.hex, bind, Except.bind,
    takeAndParseOptional_relay]
  cases rereadRelay relayUrl with
  | error error => rfl
  | ok relay =>
      cases proof with
      | none => rfl
      | some proof =>
          simp only [Except.map, Option.map_some, Option.toList_some, takeAndParseOptional,
            standard.signature, Except.mapError, hexEncode_signature_ne standard, if_false]
          rfl

theorem takeAndParseOptional_space (space : LiveEventSpace crate) :
    takeAndParseOptionalRelayUrl crate (spaceValues calls space).tail =
      (rereadRelay space.relayUrl).map fun relayUrl => (relayUrl, space.marker.toList) := by
  obtain ⟨coordinate, relayUrl, marker⟩ := space
  cases relayUrl with
  | none => cases marker <;> rfl
  | some relay => cases marker <;> exact takeAndParseOptional_relay (some relay) _

theorem takeOptionalString_toList (marker : Option String) :
    (takeOptionalString marker.toList).1 = marker.filter (· ≠ "") := by
  cases marker with
  | none => rfl
  | some marker => by_cases empty : marker = "" <;> simp [takeOptionalString, Option.filter, empty]

theorem reread_space (standard : calls.Standard) (space : LiveEventSpace crate) :
    reread calls (.space space) = (rereadRelay space.relayUrl).map fun relayUrl =>
      .space {
        coordinate := cutCoordinate space.coordinate
        relayUrl := relayUrl
        marker := space.marker.filter (· ≠ "") } := by
  change parseATag calls (space.coordinate.display calls.externals :: (spaceValues calls space).tail) = _
  simp only [parseATag, takeCoordinate, takeAndParse, Coordinate.parseKpi_display standard.hex, bind, Except.bind,
    takeAndParseOptional_space]
  cases rereadRelay space.relayUrl with
  | error error => rfl
  | ok relayUrl =>
      simp only [Except.map, takeOptionalString_toList]
      rfl

end Nip53Tag

/-! ## What is read of a whole event -/

namespace LiveEvent

/-- The tags of a list that are read, in their order. -/
def readTags (calls : LiveCalls crate) (tags : List Tag) : List (Nip53Tag crate) :=
  tags.filterMap fun tag => (Nip53Tag.parse calls tag.buf).toOption

theorem applyTags_ok_iff {live back : LiveEvent crate} {tags : List Tag} :
    applyTags calls live tags = .ok back ↔
      (∀ tag ∈ tags, ∀ error, Nip53Tag.parse calls tag.buf = .error error → error.kind = .malformed) ∧
        back = (readTags calls tags).foldl applyTag live := by
  induction tags generalizing live with
  | nil => simp [applyTags, readTags, eq_comm]
  | cons tag rest ih =>
      rw [applyTags, List.forall_mem_cons]
      cases parsed : Nip53Tag.parse calls tag.buf with
      | ok read => simp [ih, readTags, parsed, Except.toOption]
      | error error =>
          by_cases malformed : error.kind = .malformed
          · simp [ih, readTags, parsed, Except.toOption, malformed]
          · simp [malformed]

/-- What is read of a tag that was written. -/
def rereadTag (calls : LiveCalls crate) (tag : Nip53Tag crate) : Option (Nip53Tag crate) :=
  (Nip53Tag.reread calls tag).toOption

theorem readTags_map (tags : List (Nip53Tag crate)) :
    readTags calls (tags.map (Nip53Tag.toTag calls)) = tags.filterMap (rereadTag calls) := by
  rw [readTags, List.filterMap_map]
  rfl

/-- What is read of the tags, one after another, makes of the first event the second. -/
def Builds (calls : LiveCalls crate) (live : LiveEvent crate) (tags : List (Nip53Tag crate))
    (last : LiveEvent crate) : Prop :=
  (tags.filterMap (rereadTag calls)).foldl applyTag live = last

theorem Builds.append {live middle last : LiveEvent crate} {tags more : List (Nip53Tag crate)}
    (first : Builds calls live tags middle) (rest : Builds calls middle more last) :
    Builds calls live (tags ++ more) last := by
  rw [Builds] at first rest ⊢
  rw [List.filterMap_append, List.foldl_append, first, rest]

section Fields

variable {α : Type} (make : α → Nip53Tag crate) {read : α → Option α} {live : LiveEvent crate}

/-- A field with at most one tag. -/
theorem builds_optional (set : LiveEvent crate → Option α → LiveEvent crate)
    (reads : ∀ value, rereadTag calls (make value) = (read value).map make)
    (applies : ∀ live value, applyTag live (make value) = set live (some value)) (unset : set live none = live)
    (field : Option α) : Builds calls live (field.map make).toList (set live (field.bind read)) := by
  rw [Builds]
  cases field with
  | none => exact unset.symm
  | some value =>
      rw [Option.map_some, Option.toList_some, List.filterMap_cons, reads, Option.bind_some]
      cases read value with
      | none => exact unset.symm
      | some value => exact applies live value

/-- A field whose tag always comes back. -/
theorem builds_kept (set : LiveEvent crate → Option α → LiveEvent crate)
    (reads : ∀ value, Nip53Tag.reread calls (make value) = .ok (make value))
    (applies : ∀ live value, applyTag live (make value) = set live (some value)) (unset : set live none = live)
    (field : Option α) : Builds calls live (field.map make).toList (set live field) := by
  have built := @builds_optional _ calls _ make some live set (fun value => by rw [rereadTag, reads]; rfl) applies
    unset field
  rwa [Option.bind_fun_some] at built

/-- A field with a tag for each of its elements. -/
theorem builds_repeated (add : LiveEvent crate → List α → LiveEvent crate)
    (reads : ∀ value, rereadTag calls (make value) = (read value).map make)
    (applies : ∀ live value, applyTag live (make value) = add live [value])
    (adds : ∀ live first second, add (add live first) second = add live (first ++ second))
    (nothing : ∀ live, add live [] = live) (field : List α) :
    Builds calls live (field.map make) (add live (field.filterMap read)) := by
  rw [Builds]
  induction field generalizing live with
  | nil => exact (nothing live).symm
  | cons value rest ih =>
      rw [List.map_cons, List.filterMap_cons, List.filterMap_cons, reads]
      cases read value with
      | none => exact ih
      | some value =>
          rw [Option.map_some, List.foldl_cons, applies, ih, adds]
          rfl

theorem builds_allKept (add : LiveEvent crate → List α → LiveEvent crate)
    (reads : ∀ value, Nip53Tag.reread calls (make value) = .ok (make value))
    (applies : ∀ live value, applyTag live (make value) = add live [value])
    (adds : ∀ live first second, add (add live first) second = add live (first ++ second))
    (nothing : ∀ live, add live [] = live) (field : List α) :
    Builds calls live (field.map make) (add live field) := by
  have built := @builds_repeated _ calls _ make some live add (fun value => by rw [rereadTag, reads]; rfl) applies
    adds nothing field
  rwa [List.filterMap_some] at built

end Fields

def rereadPerson (person : PublicKey × Option (FullRelayUrl crate)) :
    Option (PublicKey × Option (FullRelayUrl crate)) :=
  (rereadRelay person.2).toOption.map fun relayUrl => (person.1, relayUrl)

def rereadHost (host : LiveEventHost crate) : Option (LiveEventHost crate) :=
  (rereadRelay host.relayUrl).toOption.map fun relayUrl => { host with relayUrl := relayUrl }

def rereadSpace (space : LiveEventSpace crate) : Option (LiveEventSpace crate) :=
  (rereadRelay space.relayUrl).toOption.map fun relayUrl => {
    coordinate := cutCoordinate space.coordinate
    relayUrl := relayUrl
    marker := space.marker.filter (· ≠ "") }

def rereadRelays (relays : List (FullRelayUrl crate)) : Option (List (FullRelayUrl crate)) :=
  (relays.mapM fun relay => FullRelayUrl.parse crate relay.asStr).toOption

def rereadHashtag (calls : LiveCalls crate) (hashtag : String) : Option String :=
  if hashtag.toList.any calls.isUppercase then none else some hashtag

def rereadStatus (status : LiveEventStatus) : Option LiveEventStatus := some (.fromString status.asStr)

/-- What is read of the tags of a live event, where no tag is fatal. -/
def reread (calls : LiveCalls crate) (live : LiveEvent crate) : LiveEvent crate :=
  { live with
    kind := .fromU16 liveEventKind
    space := live.space.bind rereadSpace
    hashtags := live.hashtags.filterMap (rereadHashtag calls)
    status := live.status.bind rereadStatus
    relays := (rereadRelays live.relays).getD []
    host := live.host.bind rereadHost
    owners := live.owners.filterMap rereadPerson
    moderators := live.moderators.filterMap rereadPerson
    speakers := live.speakers.filterMap rereadPerson
    participants := live.participants.filterMap rereadPerson }

theorem rereadTag_person (standard : calls.Standard) {marker : LiveEventMarker}
    (named : .fromStr marker.asStr = marker) (person : PublicKey × Option (FullRelayUrl crate)) :
    rereadTag calls (.participant ⟨person.1, person.2, marker, none⟩) =
      (rereadPerson person).map fun person => .participant ⟨person.1, person.2, marker, none⟩ := by
  rw [rereadTag, Nip53Tag.reread_participant standard, named, rereadPerson]
  cases rereadRelay person.2 <;> rfl

theorem rereadTag_host (standard : calls.Standard) (host : LiveEventHost crate) :
    rereadTag calls (hostTag host) = (rereadHost host).map hostTag := by
  rw [rereadTag, hostTag, Nip53Tag.reread_participant standard, rereadHost]
  cases rereadRelay host.relayUrl <;> rfl

theorem rereadTag_space (standard : calls.Standard) (space : LiveEventSpace crate) :
    rereadTag calls (.space space) = (rereadSpace space).map .space := by
  rw [rereadTag, Nip53Tag.reread_space standard, rereadSpace]
  cases rereadRelay space.relayUrl <;> rfl

theorem rereadTag_status (status : LiveEventStatus) :
    rereadTag calls (.status status) = (rereadStatus status).map .status := rfl

theorem rereadTag_hashtag (hashtag : String) :
    rereadTag calls (.hashtag hashtag) = (rereadHashtag calls hashtag).map .hashtag := by
  rw [rereadTag, Nip53Tag.reread_hashtag, rereadHashtag]
  split <;> rfl

theorem rereadTag_relays (relays : List (FullRelayUrl crate)) :
    rereadTag calls (.relays relays) = (rereadRelays relays).map .relays := by
  rw [rereadTag, Nip53Tag.reread_relays, rereadRelays]
  cases relays.mapM fun relay => FullRelayUrl.parse crate relay.asStr <;> rfl

theorem builds_relays {live : LiveEvent crate} (none_ : live.relays = []) (relays : List (FullRelayUrl crate)) :
    Builds calls live (if relays.isEmpty then [] else [.relays relays])
      { live with relays := (rereadRelays relays).getD [] } := by
  rw [Builds]
  cases relays with
  | nil =>
      change live = { live with relays := [] }
      rw [← none_]
  | cons relay rest =>
      rw [if_neg (by simp), List.filterMap_cons, rereadTag_relays]
      cases rereadRelays (relay :: rest) with
      | none =>
          change live = { live with relays := [] }
          rw [← none_]
      | some relays =>
          change { live with relays := live.relays ++ relays } = { live with relays := relays }
          rw [none_, List.nil_append]

theorem builds_fieldTags (standard : calls.Standard) (live : LiveEvent crate) :
    Builds calls (new live.id) live.fieldTags (live.reread calls) := by
  have room : Builds calls (new live.id) (live.room.map Nip53Tag.room).toList { new live.id with room := live.room } :=
    builds_kept .room (fun live room => { live with room := room }) (fun _ => rfl) (fun _ _ => rfl) rfl live.room
  have space := room.append (builds_optional .space (fun live space => { live with space := space })
    (rereadTag_space standard) (fun _ _ => rfl) rfl live.space)
  have title := space.append (builds_kept .title (fun live title => { live with title := title })
    (fun _ => rfl) (fun _ _ => rfl) rfl live.title)
  have summary := title.append (builds_kept .summary (fun live summary => { live with summary := summary })
    (fun _ => rfl) (fun _ _ => rfl) rfl live.summary)
  have image := summary.append (builds_kept .image (fun live image => { live with image := image })
    (Nip53Tag.takeUrl standard) (fun _ _ => rfl) rfl live.image)
  have hashtags := image.append (builds_repeated .hashtag
    (fun live hashtags => { live with hashtags := live.hashtags ++ hashtags }) rereadTag_hashtag (fun _ _ => rfl)
    (fun _ _ _ => by simp) (fun _ => by simp) live.hashtags)
  have streaming := hashtags.append (builds_kept .streaming (fun live streaming => { live with streaming := streaming })
    (Nip53Tag.takeUrl standard) (fun _ _ => rfl) rfl live.streaming)
  have recording := streaming.append (builds_kept .recording (fun live recording => { live with recording := recording })
    (Nip53Tag.takeUrl standard) (fun _ _ => rfl) rfl live.recording)
  have service := recording.append (builds_kept .service (fun live service => { live with service := service })
    (Nip53Tag.takeUrl standard) (fun _ _ => rfl) rfl live.service)
  have endpoint := service.append (builds_kept .endpoint (fun live endpoint => { live with endpoint := endpoint })
    (Nip53Tag.takeUrl standard) (fun _ _ => rfl) rfl live.endpoint)
  have starts := endpoint.append (builds_kept .starts (fun live starts => { live with starts := starts })
    Nip53Tag.reread_starts (fun _ _ => rfl) rfl live.starts)
  have ends := starts.append (builds_kept .ends (fun live ends => { live with ends := ends })
    Nip53Tag.reread_ends (fun _ _ => rfl) rfl live.ends)
  have status := ends.append (builds_optional .status (fun live status => { live with status := status })
    rereadTag_status (fun _ _ => rfl) rfl live.status)
  have currentParticipants := status.append (builds_kept .currentParticipants
    (fun live currentParticipants => { live with currentParticipants := currentParticipants })
    Nip53Tag.reread_currentParticipants (fun _ _ => rfl) rfl live.currentParticipants)
  have totalParticipants := currentParticipants.append (builds_kept .totalParticipants
    (fun live totalParticipants => { live with totalParticipants := totalParticipants })
    Nip53Tag.reread_totalParticipants (fun _ _ => rfl) rfl live.totalParticipants)
  have relays := totalParticipants.append (builds_relays rfl live.relays)
  have pinned := relays.append (builds_allKept .pinned
    (fun live pinned => { live with pinned := live.pinned ++ pinned }) (Nip53Tag.reread_pinned standard)
    (fun _ _ => rfl)
    (fun _ _ _ => by simp) (fun _ => by simp) live.pinned)
  have host := pinned.append (builds_optional hostTag (fun live host => { live with host := host })
    (rereadTag_host standard) (fun _ _ => rfl) rfl live.host)
  have owners := host.append (builds_repeated _
    (fun live owners => { live with owners := live.owners ++ owners })
    (@rereadTag_person _ calls standard .owner rfl) (fun _ _ => rfl) (fun _ _ _ => by simp) (fun _ => by simp)
    live.owners)
  have moderators := owners.append (builds_repeated _
    (fun live moderators => { live with moderators := live.moderators ++ moderators })
    (@rereadTag_person _ calls standard .moderator rfl) (fun _ _ => rfl) (fun _ _ _ => by simp) (fun _ => by simp)
    live.moderators)
  have speakers := moderators.append (builds_repeated _
    (fun live speakers => { live with speakers := live.speakers ++ speakers })
    (@rereadTag_person _ calls standard .speaker rfl) (fun _ _ => rfl) (fun _ _ _ => by simp) (fun _ => by simp)
    live.speakers)
  have participants := speakers.append (builds_repeated _
    (fun live participants => { live with participants := live.participants ++ participants })
    (@rereadTag_person _ calls standard .participant rfl) (fun _ _ => rfl) (fun _ _ _ => by simp) (fun _ => by simp)
    live.participants)
  have hand := participants.append (builds_kept .hand (fun live hand => { live with hand := hand })
    (Nip53Tag.reread_hand) (fun _ _ => rfl) rfl live.hand)
  exact hand

end LiveEvent

/-! ## When it is the same event -/

namespace LiveEvent

/-- A reference to a space comes back. -/
structure SpaceComesBack (space : LiveEventSpace crate) : Prop where
  relay : RelayComesBack space.relayUrl
  identifier : ':' ∉ space.coordinate.identifier.toList
  marker : space.marker ≠ some ""

/-- Everything that is written of the event comes back, and it is of the kind that is
read. -/
structure ComesBack (calls : LiveCalls crate) (live : LiveEvent crate) : Prop where
  kind : live.kind.asU16 = liveEventKind
  space : ∀ space, live.space = some space → SpaceComesBack space
  hashtags : ∀ hashtag ∈ live.hashtags, hashtag.toList.any calls.isUppercase = false
  status : ∀ value, live.status = some (.custom value) → value ∉ ["planned", "live", "ended"]
  relays : ∀ relay ∈ live.relays, relay.ReadFrom relay.asStr
  host : ∀ host, live.host = some host → RelayComesBack host.relayUrl
  people : ∀ person ∈ live.owners ++ live.moderators ++ live.speakers ++ live.participants,
    RelayComesBack person.2

theorem rereadPerson_iff (person : PublicKey × Option (FullRelayUrl crate)) :
    (∃ back, rereadPerson person = some back ∧ (back == person) = true) ↔ RelayComesBack person.2 := by
  have split := @rereadRelay_toOption_iff crate _ person.2 (fun relay => (person.1, relay))
    (fun back => (back == person) = true) True (fun back => by
      change (person.1 == person.1 && back == person.2) = true ↔ _
      simp)
  rwa [and_true] at split

theorem rereadHost_iff (host : LiveEventHost crate) :
    (∃ back, rereadHost host = some back ∧ (back == host) = true) ↔ RelayComesBack host.relayUrl := by
  have split := @rereadRelay_toOption_iff crate _ host.relayUrl (fun relayUrl => { host with relayUrl := relayUrl })
    (fun back => (back == host) = true) True (fun back => by
      change (host.publicKey == host.publicKey && back == host.relayUrl && host.proof == host.proof) = true ↔ _
      simp)
  rwa [and_true] at split

theorem rereadSpace_iff (space : LiveEventSpace crate) :
    (∃ back, rereadSpace space = some back ∧ (back == space) = true) ↔ SpaceComesBack space := by
  have marker : (space.marker.filter (· ≠ "") == space.marker) = true ↔ space.marker ≠ some "" := by
    cases space.marker with
    | none => simp
    | some marker => by_cases empty : marker = "" <;> simp [Option.filter, empty]
  rw [rereadSpace, @rereadRelay_toOption_iff crate _ space.relayUrl _ (fun back => (back == space) = true)
    (':' ∉ space.coordinate.identifier.toList ∧ space.marker ≠ some "")]
  · exact ⟨fun ⟨relay, identifier, marker⟩ => ⟨relay, identifier, marker⟩,
      fun ⟨relay, identifier, marker⟩ => ⟨relay, identifier, marker⟩⟩
  · intro back
    rw [← cutCoordinate_beq_iff, ← marker]
    change (cutCoordinate space.coordinate == space.coordinate && back == space.relayUrl &&
      space.marker.filter (· ≠ "") == space.marker) = true ↔ _
    rw [Bool.and_eq_true, Bool.and_eq_true]
    tauto

theorem rereadStatus_iff (status : LiveEventStatus) :
    (∃ back, rereadStatus status = some back ∧ (back == status) = true) ↔
      ∀ value, status = .custom value → value ∉ ["planned", "live", "ended"] := by
  simp only [rereadStatus, Option.some.injEq, exists_eq_left', beq_iff_eq]
  cases status with
  | planned => simp [LiveEventStatus.asStr, LiveEventStatus.fromString]
  | live => simp [LiveEventStatus.asStr, LiveEventStatus.fromString]
  | ended => simp [LiveEventStatus.asStr, LiveEventStatus.fromString]
  | custom value =>
      simp only [LiveEventStatus.asStr, LiveEventStatus.custom.injEq, forall_eq']
      unfold LiveEventStatus.fromString
      split
      next => simp
      next => simp
      next => simp
      next others => simp_all

theorem rereadHashtag_iff (hashtag : String) :
    (∃ back, rereadHashtag calls hashtag = some back ∧ (back == hashtag) = true) ↔
      hashtag.toList.any calls.isUppercase = false := by
  unfold rereadHashtag
  split
  next upper => simp [upper]
  next lower => simp [Bool.not_eq_true _ ▸ lower]

theorem rereadRelays_iff (relays : List (FullRelayUrl crate)) :
    ((rereadRelays relays).getD [] == relays) = true ↔ ∀ relay ∈ relays, relay.ReadFrom relay.asStr := by
  rw [← FullRelayUrl.mapM_parse_iff, rereadRelays]
  cases read : relays.mapM fun relay => FullRelayUrl.parse crate relay.asStr with
  | ok back => simp [Except.toOption]
  | error error =>
      cases relays with
      | nil => cases read
      | cons relay rest => simp [Except.toOption]

theorem reread_beq_iff (live : LiveEvent crate) : (live.reread calls == live) = true ↔ live.ComesBack calls := by
  have people : ∀ people : List (PublicKey × Option (FullRelayUrl crate)),
      (people.filterMap rereadPerson == people) = true ↔ ∀ person ∈ people, RelayComesBack person.2 := by
    intro people
    simp only [filterMap_beq_iff, rereadPerson_iff]
  change LiveEvent.beq _ _ = true ↔ _
  simp only [LiveEvent.beq, reread, Bool.and_eq_true, beq_self_eq_true, and_true, Kind.beq_iff, Kind.asU16_fromU16,
    bind_beq_iff, filterMap_beq_iff (α := String), rereadSpace_iff, rereadHashtag_iff, rereadStatus_iff,
    rereadRelays_iff, rereadHost_iff, people]
  constructor
  · intro ⟨⟨⟨⟨⟨⟨⟨⟨⟨kind, space⟩, hashtags⟩, status⟩, relays⟩, host⟩, owners⟩, moderators⟩, speakers⟩, participants⟩
    refine ⟨kind.symm, space, hashtags, fun value known => status _ known value rfl, relays, host, ?_⟩
    simp only [List.forall_mem_append]
    exact ⟨⟨⟨owners, moderators⟩, speakers⟩, participants⟩
  · intro ⟨kind, space, hashtags, status, relays, host, everyone⟩
    simp only [List.forall_mem_append] at everyone
    obtain ⟨⟨⟨owners, moderators⟩, speakers⟩, participants⟩ := everyone
    exact ⟨⟨⟨⟨⟨⟨⟨⟨⟨kind.symm, space⟩, hashtags⟩, fun _ known value named => status value (named ▸ known)⟩, relays⟩,
      host⟩, owners⟩, moderators⟩, speakers⟩, participants⟩

/-! ## Reading the tags -/

/-- A tag that is read, to whatever value. -/
def Reads (calls : LiveCalls crate) (tag : Nip53Tag crate) : Prop :=
  ∃ read, Nip53Tag.reread calls tag = .ok read

def AllRead (calls : LiveCalls crate) (tags : List (Nip53Tag crate)) : Prop := ∀ tag ∈ tags, Reads calls tag

theorem AllRead.append {tags more : List (Nip53Tag crate)} (first : AllRead calls tags) (rest : AllRead calls more) :
    AllRead calls (tags ++ more) := List.forall_mem_append.mpr ⟨first, rest⟩

theorem reads_of_rereadTag {tag read : Nip53Tag crate} (found : rereadTag calls tag = some read) :
    Reads calls tag := by
  rw [rereadTag] at found
  cases reread : Nip53Tag.reread calls tag with
  | error error => rw [reread] at found; cases found
  | ok read => exact ⟨read, reread⟩

theorem reads_optional {α : Type} (make : α → Nip53Tag crate) (field : Option α)
    (reads : ∀ value, field = some value → Reads calls (make value)) : AllRead calls (field.map make).toList := by
  intro tag member
  cases field with
  | none => cases member
  | some value =>
      rw [List.mem_singleton.mp member]
      exact reads value rfl

theorem reads_repeated {α : Type} (make : α → Nip53Tag crate) (field : List α)
    (reads : ∀ value ∈ field, Reads calls (make value)) : AllRead calls (field.map make) := by
  intro tag member
  obtain ⟨value, found, same⟩ := List.mem_map.mp member
  exact same ▸ reads value found

theorem reads_role (standard : calls.Standard) {marker : LiveEventMarker}
    (named : .fromStr marker.asStr = marker) {people : List (PublicKey × Option (FullRelayUrl crate))}
    (back : ∀ person ∈ people, RelayComesBack person.2) : AllRead calls (roleTags marker people) := by
  refine reads_repeated _ people fun person member => ?_
  obtain ⟨read, found, _⟩ := (rereadPerson_iff person).mpr (back person member)
  have written := rereadTag_person standard named person
  rw [found] at written
  exact reads_of_rereadTag written

theorem reads_fieldTags (standard : calls.Standard) {live : LiveEvent crate} (back : live.ComesBack calls) :
    AllRead calls live.fieldTags := by
  have space : ∀ space, live.space = some space → Reads calls (.space space) := by
    intro space known
    obtain ⟨read, found, _⟩ := (rereadSpace_iff space).mpr (back.space space known)
    exact reads_of_rereadTag (by rw [rereadTag_space standard, found]; rfl)
  have hashtags : ∀ hashtag ∈ live.hashtags, Reads calls (.hashtag hashtag) := by
    intro hashtag member
    obtain ⟨read, found, _⟩ := (@rereadHashtag_iff _ calls hashtag).mpr (back.hashtags hashtag member)
    exact reads_of_rereadTag (by rw [rereadTag_hashtag, found]; rfl)
  have relays : AllRead calls (if live.relays.isEmpty then [] else [.relays live.relays]) := by
    obtain ⟨read, found, _⟩ := (FullRelayUrl.mapM_parse_iff FullRelayUrl.asStr).mpr back.relays
    split
    next => exact nofun
    next =>
      intro tag member
      rw [List.mem_singleton.mp member]
      exact ⟨.relays read, by rw [Nip53Tag.reread_relays, found]; rfl⟩
  have host : ∀ host, live.host = some host → Reads calls (hostTag host) := by
    intro host known
    obtain ⟨read, found, _⟩ := (rereadHost_iff host).mpr (back.host host known)
    exact reads_of_rereadTag (by rw [rereadTag_host standard, found]; rfl)
  have people := back.people
  simp only [List.forall_mem_append] at people
  obtain ⟨⟨⟨owners, moderators⟩, speakers⟩, participants⟩ := people
  have upToRoom : AllRead calls (live.room.map .room).toList :=
    reads_optional .room live.room fun room _ => ⟨.room room, rfl⟩
  have upToSpace := upToRoom.append (reads_optional .space live.space space)
  have upToTitle := upToSpace.append (reads_optional .title live.title fun title _ => ⟨.title title, rfl⟩)
  have upToSummary := upToTitle.append (reads_optional .summary live.summary fun summary _ => ⟨.summary summary, rfl⟩)
  have upToImage := upToSummary.append
    (reads_optional .image live.image fun url _ => ⟨_, Nip53Tag.takeUrl standard url⟩)
  have upToHashtags := upToImage.append (reads_repeated .hashtag live.hashtags hashtags)
  have upToStreaming := upToHashtags.append 
    (reads_optional .streaming live.streaming fun url _ => ⟨_, Nip53Tag.takeUrl standard url⟩)
  have upToRecording := upToStreaming.append 
    (reads_optional .recording live.recording fun url _ => ⟨_, Nip53Tag.takeUrl standard url⟩)
  have upToService := upToRecording.append
    (reads_optional .service live.service fun url _ => ⟨_, Nip53Tag.takeUrl standard url⟩)
  have upToEndpoint := upToService.append
    (reads_optional .endpoint live.endpoint fun url _ => ⟨_, Nip53Tag.takeUrl standard url⟩)
  have upToStarts := upToEndpoint.append
    (reads_optional .starts live.starts fun time _ => ⟨_, Nip53Tag.reread_starts time⟩)
  have upToEnds := upToStarts.append (reads_optional .ends live.ends fun time _ => ⟨_, Nip53Tag.reread_ends time⟩)
  have upToStatus := upToEnds.append 
    (reads_optional .status live.status fun status _ => ⟨.status (.fromString status.asStr), rfl⟩)
  have upToCurrent := upToStatus.append 
    (reads_optional .currentParticipants live.currentParticipants
      fun count _ => ⟨_, Nip53Tag.reread_currentParticipants count⟩)
  have upToTotal := upToCurrent.append 
    (reads_optional .totalParticipants live.totalParticipants
      fun count _ => ⟨_, Nip53Tag.reread_totalParticipants count⟩)
  have upToRelays := upToTotal.append relays
  have upToPinned := upToRelays.append
    (reads_repeated .pinned live.pinned fun id _ => ⟨_, Nip53Tag.reread_pinned standard id⟩)
  have upToHost := upToPinned.append (reads_optional hostTag live.host host)
  have upToOwners := upToHost.append (@reads_role _ _ standard .owner rfl _ owners)
  have upToModerators := upToOwners.append (@reads_role _ _ standard .moderator rfl _ moderators)
  have upToSpeakers := upToModerators.append (@reads_role _ _ standard .speaker rfl _ speakers)
  have upToParticipants := upToSpeakers.append (@reads_role _ _ standard .participant rfl _ participants)
  have upToHand := upToParticipants.append
    (reads_optional .hand live.hand fun raised _ => ⟨_, Nip53Tag.reread_hand raised⟩)
  exact upToHand

theorem kind_toTag_ne (tag : Nip53Tag crate) : (Nip53Tag.toTag calls tag).kind ≠ "d" := by
  cases tag <;> simp [Tag.kind, Nip53Tag.toTag, Nip53Tag.kindAndValues]

/-- The identifier of the tags that are written, which an empty one is not. -/
theorem identifier_toTags (live : LiveEvent crate) :
    Tags.identifier (live.toTags calls) = if live.id = "" then none else some live.id := by
  unfold Tags.identifier toTags
  split
  next =>
    have none_ : (live.fieldTags.map (Nip53Tag.toTag calls)).find? (fun tag => tag.kind = "d") = none := by
      simp [List.find?_eq_none, kind_toTag_ne]
    rw [List.nil_append, none_]
    rfl
  next => rfl

theorem applyTags_toTags_iff (standard : calls.Standard) {live : LiveEvent crate} (named : live.id ≠ "") :
    (∃ back, applyTags calls (new live.id) (live.toTags calls) = .ok back ∧ (back == live) = true) ↔
      live.ComesBack calls := by
  have tags : live.toTags calls = Tag.identifier live.id :: live.fieldTags.map (Nip53Tag.toTag calls) := by
    rw [toTags, if_neg named]
    rfl
  have skipped : Nip53Tag.parse calls (Tag.identifier live.id).buf = .error .unknownTag := rfl
  have built : (readTags calls (live.toTags calls)).foldl applyTag (new live.id) = live.reread calls := by
    rw [tags, readTags, List.filterMap_cons, skipped]
    change (readTags calls (live.fieldTags.map (Nip53Tag.toTag calls))).foldl applyTag (new live.id) = _
    rw [readTags_map]
    exact builds_fieldTags standard live
  constructor
  · intro ⟨back, read, same⟩
    rw [(applyTags_ok_iff.mp read).2, built] at same
    exact (reread_beq_iff live).mp same
  · intro comesBack
    refine ⟨live.reread calls, applyTags_ok_iff.mpr ⟨?_, built.symm⟩, (reread_beq_iff live).mpr comesBack⟩
    rw [tags, List.forall_mem_cons]
    constructor
    · intro error failed
      rw [skipped] at failed
      cases failed
      rfl
    · intro tag member error failed
      obtain ⟨field, written, same⟩ := List.mem_map.mp member
      obtain ⟨read, reads⟩ := reads_fieldTags standard comesBack field written
      rw [← same] at failed
      cases reads.symm.trans failed

theorem tryFrom_toTags_iff (standard : calls.Standard) (live : LiveEvent crate) :
    (∃ back, tryFrom calls (live.toTags calls) = .ok back ∧ (back == live) = true) ↔
      live.id ≠ "" ∧ live.ComesBack calls := by
  have identifier := @identifier_toTags _ calls live
  rw [Tags.identifier] at identifier
  rw [tryFrom, identifier]
  by_cases named : live.id = ""
  · simp [named]
  · rw [if_neg named]
    simp only [named, ne_eq, not_false_eq_true, true_and]
    exact applyTags_toTags_iff standard named

/-- An event with the kind and the tags of the builder. -/
def builtEvent (calls : LiveCalls crate) (live : LiveEvent crate) (id : EventId) (pubkey : PublicKey)
    (createdAt : Timestamp) (sig : Signature) : Event where
  id := id
  pubkey := pubkey
  createdAt := createdAt
  kind := (live.intoEventBuilder calls).kind
  tags := (live.intoEventBuilder calls).tags
  content := (live.intoEventBuilder calls).content
  sig := sig

/-- The event is read as its tags alone are. -/
theorem fromEvent_builtEvent (live : LiveEvent crate) (id : EventId) (pubkey : PublicKey) (createdAt : Timestamp)
    (sig : Signature) :
    fromEvent calls (builtEvent calls live id pubkey createdAt sig) = tryFrom calls (live.toTags calls) := by
  have other : ¬ (Kind.fromU16 liveEventKind).asU16 = roomPresenceKind := by decide
  unfold fromEvent tryFrom
  change (if (Kind.fromU16 liveEventKind).asU16 = roomPresenceKind then _ else _) = _
  rw [if_neg other]
  rfl

/-- A live event comes back from its tags, and from an event with these, if and only if it
is of the kind that is written, it has an identifier, and each of its fields comes back. -/
theorem liveEvent_comesBack_iff (standard : calls.Standard) (live : LiveEvent crate) :
    ((∃ back, tryFrom calls (live.toTags calls) = .ok back ∧ (back == live) = true) ↔
      live.id ≠ "" ∧ live.ComesBack calls) ∧
    ∀ id pubkey createdAt sig,
      ((∃ back, fromEvent calls (builtEvent calls live id pubkey createdAt sig) = .ok back ∧
        (back == live) = true) ↔ live.id ≠ "" ∧ live.ComesBack calls) := by
  refine ⟨tryFrom_toTags_iff standard live, fun id pubkey createdAt sig => ?_⟩
  rw [fromEvent_builtEvent]
  exact tryFrom_toTags_iff standard live

/-! ## Three events that are lost -/

/-- Signatures are read as 64 bytes in hexadecimal. -/
def sampleCalls : LiveCalls ExternalContentId.sampleUrls where
  externals := hexExternals
  signatureFromStr text :=
    match hexBytes text.toList with
    | none => .error "malformed signature"
    | some bytes => if whole : bytes.length = 64 then .ok ⟨bytes, whole⟩ else .error "malformed signature"
  isUppercase := Char.isUpper

theorem sampleCalls_standard : sampleCalls.Standard where
  hex := hexExternals_hexCodec
  url := ExternalContentId.sampleUrls_roundTrips
  signature signature := by
    have written : (hexExternals.hexEncode signature.val).toList = signature.val.flatMap hexOf :=
      String.toList_ofList
    simp only [sampleCalls, written, hexBytes_written]
    rw [dif_pos signature.property]

def sampleStream : LiveEvent ExternalContentId.sampleUrls :=
  { new "stream" with
    title := some "Demo"
    image := some ExternalContentId.sampleUrl
    hashtags := ["music"]
    starts := some 1700000000
    status := some .live
    host := some ⟨.replicate 32 1, none, some (.replicate 64 3)⟩
    speakers := [(.replicate 32 2, none)] }

theorem liveEvent_comesBack_stream :
    ∃ back, tryFrom sampleCalls (sampleStream.toTags sampleCalls) = .ok back ∧ (back == sampleStream) = true := by
  have nobody : @RelayComesBack ExternalContentId.sampleUrls none := by
    intro relayUrl known
    cases known
  have host : ∀ host, sampleStream.host = some host → RelayComesBack host.relayUrl := by
    intro host known
    rw [← Option.some.inj known]
    exact nobody
  have status : ∀ value, sampleStream.status = some (.custom value) → value ∉ ["planned", "live", "ended"] := by
    intro value known
    cases known
  have people : ∀ person ∈ sampleStream.owners ++ sampleStream.moderators ++ sampleStream.speakers ++
      sampleStream.participants, RelayComesBack person.2 := by
    intro person member
    rw [List.mem_singleton.mp member]
    exact nobody
  have comesBack : sampleStream.ComesBack sampleCalls := {
    kind := by decide
    space space known := by cases known
    hashtags := by decide
    status := status
    relays relay member := by cases member
    host := host
    people := people }
  exact (liveEvent_comesBack_iff sampleCalls_standard sampleStream).1.mpr ⟨by decide, comesBack⟩

def sampleMeeting : LiveEvent ExternalContentId.sampleUrls := { new "meeting" with kind := .fromU16 30313 }

def capitalStream : LiveEvent ExternalContentId.sampleUrls := { new "stream" with hashtags := ["Music"] }

/-- A meeting becomes a stream, an event without an identifier cannot be read, and neither
can one with a hashtag in capitals. -/
theorem liveEvent_lost :
    (¬ ∃ back, tryFrom sampleCalls (sampleMeeting.toTags sampleCalls) = .ok back ∧
      (back == sampleMeeting) = true) ∧
    (¬ ∃ back, tryFrom sampleCalls ((new "").toTags sampleCalls) = .ok back ∧ (back == new "") = true) ∧
    ¬ ∃ back, tryFrom sampleCalls (capitalStream.toTags sampleCalls) = .ok back ∧
      (back == capitalStream) = true := by
  simp only [tryFrom_toTags_iff sampleCalls_standard]
  refine ⟨fun back => ?_, fun back => back.1 rfl, fun back => ?_⟩
  · exact absurd back.2.kind (by decide)
  · exact absurd (back.2.hashtags "Music" List.mem_cons_self) (by decide)

end LiveEvent

end RustNostr
