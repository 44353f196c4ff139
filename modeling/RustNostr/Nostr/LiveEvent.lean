import Mathlib
import RustNostr.Nostr.TagValues

/-!
# Live events

Live activities, their tags, and the reading of both (`nostr/src/nips/nip53.rs`).
-/

set_option autoImplicit false

namespace RustNostr

open Library

/-- What is left to other crates and to Unicode: reading signatures, and
`char::is_uppercase`. -/
structure LiveCalls (crate : UrlCrate) where
  externals : Externals
  signatureFromStr : String → Except String Signature
  isUppercase : Char → Bool

inductive LiveEventMarker where
  | host
  | speaker
  | participant
  | moderator
  | owner
  | custom (value : String)
  deriving DecidableEq

namespace LiveEventMarker

def asStr : LiveEventMarker → String
  | host => "Host"
  | speaker => "Speaker"
  | participant => "Participant"
  | moderator => "Moderator"
  | owner => "Owner"
  | custom value => value

def fromStr (text : String) : LiveEventMarker :=
  match text with
  | "Host" => host
  | "Speaker" => speaker
  | "Participant" => participant
  | "Moderator" => moderator
  | "Owner" => owner
  | other => custom other

end LiveEventMarker

inductive LiveEventStatus where
  | planned
  | live
  | ended
  | custom (value : String)
  deriving DecidableEq

namespace LiveEventStatus

def asStr : LiveEventStatus → String
  | planned => "planned"
  | live => "live"
  | ended => "ended"
  | custom value => value

def fromString (text : String) : LiveEventStatus :=
  match text with
  | "planned" => planned
  | "live" => live
  | "ended" => ended
  | other => custom other

end LiveEventStatus

structure LiveEventParticipant (crate : UrlCrate) where
  publicKey : PublicKey
  relayUrl : Option (FullRelayUrl crate)
  marker : LiveEventMarker
  proof : Option Signature

structure LiveEventSpace (crate : UrlCrate) where
  coordinate : Coordinate
  relayUrl : Option (FullRelayUrl crate)
  marker : Option String

/-- The derived equality, as below. -/
instance {crate : UrlCrate} : BEq (LiveEventSpace crate) where
  beq left right := left.coordinate == right.coordinate && left.relayUrl == right.relayUrl &&
    left.marker == right.marker

inductive Nip53Tag (crate : UrlCrate) where
  | title (title : String)
  | summary (summary : String)
  | image (image : Url crate)
  | hashtag (hashtag : String)
  | streaming (url : Url crate)
  | recording (url : Url crate)
  | starts (timestamp : Timestamp)
  | ends (timestamp : Timestamp)
  | status (status : LiveEventStatus)
  | currentParticipants (count : UInt64)
  | totalParticipants (count : UInt64)
  | relays (relays : List (FullRelayUrl crate))
  | participant (participant : LiveEventParticipant crate)
  | room (room : String)
  | service (url : Url crate)
  | endpoint (url : Url crate)
  | pinned (eventId : EventId)
  | space (space : LiveEventSpace crate)
  | hand (hand : Bool)

variable {crate : UrlCrate} (calls : LiveCalls crate)

namespace Nip53Tag

def parsePTag (values : List String) : Except Error (Nip53Tag crate) := do
  let (publicKey, values) ← takePublicKey calls.externals values
  let (relayUrl, values) ← takeAndParseOptionalRelayUrl crate values
  let (marker, values) ← takeAndParse (fun text => .ok (LiveEventMarker.fromStr text)) "marker" values
  let (proof, _) ← takeAndParseOptional
    (fun text => (calls.signatureFromStr text).mapError fun error => ⟨.malformed, error⟩) values
  .ok (participant { publicKey, relayUrl, marker, proof })

def parseATag (values : List String) : Except Error (Nip53Tag crate) := do
  let (coordinate, values) ← takeCoordinate calls.externals values
  let (relayUrl, values) ← takeAndParseOptionalRelayUrl crate values
  .ok (space { coordinate, relayUrl, marker := (takeOptionalString values).1 })

def parseHandTag (values : List String) : Except Error (Nip53Tag crate) :=
  match values with
  | [] => .error ⟨.missing, "hand"⟩
  | "1" :: _ => .ok (hand true)
  | "0" :: _ => .ok (hand false)
  | _ => .error .unknownTag

def parse (tag : List String) : Except Error (Nip53Tag crate) :=
  match tag with
  | [] => .error .missingTagKind
  | "title" :: values => (takeString "title" values).map fun (value, _) => title value
  | "summary" :: values => (takeString "summary" values).map fun (value, _) => summary value
  | "image" :: values => (takeAndParse (Url.parse crate) "image URL" values).map fun (url, _) => image url
  | "t" :: values => do
      let (value, _) ← takeString "hashtag" values
      if value.toList.any calls.isUppercase then .error ⟨.invalid, "hashtag contains uppercase characters"⟩
      else .ok (hashtag value)
  | "streaming" :: values => (takeAndParse (Url.parse crate) "streaming URL" values).map fun (url, _) => streaming url
  | "recording" :: values => (takeAndParse (Url.parse crate) "recording URL" values).map fun (url, _) => recording url
  | "starts" :: values => (takeTimestamp values).map fun (timestamp, _) => starts timestamp
  | "ends" :: values => (takeTimestamp values).map fun (timestamp, _) => ends timestamp
  | "status" :: values => (takeString "status" values).map fun (value, _) => status (.fromString value)
  | "current_participants" :: values =>
      (takeAndParse parseU64 "current participants" values).map fun (count, _) => currentParticipants count
  | "total_participants" :: values =>
      (takeAndParse parseU64 "total participants" values).map fun (count, _) => totalParticipants count
  | "relays" :: values => (values.mapM (FullRelayUrl.parse crate)).map relays
  | "p" :: values => parsePTag calls values
  | "room" :: values => (takeString "room" values).map fun (value, _) => room value
  | "service" :: values => (takeAndParse (Url.parse crate) "service URL" values).map fun (url, _) => service url
  | "endpoint" :: values => (takeAndParse (Url.parse crate) "endpoint URL" values).map fun (url, _) => endpoint url
  | "pinned" :: values => (takeEventId calls.externals values).map fun (eventId, _) => pinned eventId
  | "a" :: values => parseATag calls values
  | "hand" :: values => parseHandTag values
  | _ => .error .unknownTag

/-- The values of a participant's tag. -/
def participantValues (participant : LiveEventParticipant crate) : List String :=
  [participant.publicKey.toHex calls.externals, (participant.relayUrl.map FullRelayUrl.asStr).getD "",
    participant.marker.asStr] ++
    (participant.proof.map fun proof => calls.externals.hexEncode proof.val).toList

/-- A marker without a relay stands after an empty value. -/
def spaceValues (space : LiveEventSpace crate) : List String :=
  [space.coordinate.display calls.externals] ++ (space.relayUrl.map FullRelayUrl.asStr).toList ++
    (match space.marker with
    | none => []
    | some marker => if space.relayUrl.isNone then ["", marker] else [marker])

def kindAndValues : Nip53Tag crate → String × List String
  | title value => ("title", [value])
  | summary value => ("summary", [value])
  | image url => ("image", [url.serialization])
  | hashtag value => ("t", [value])
  | streaming url => ("streaming", [url.serialization])
  | recording url => ("recording", [url.serialization])
  | starts timestamp => ("starts", [toString timestamp.toNat])
  | ends timestamp => ("ends", [toString timestamp.toNat])
  | status value => ("status", [value.asStr])
  | currentParticipants count => ("current_participants", [toString count.toNat])
  | totalParticipants count => ("total_participants", [toString count.toNat])
  | relays list => ("relays", list.map FullRelayUrl.asStr)
  | participant value => ("p", participantValues calls value)
  | room value => ("room", [value])
  | service url => ("service", [url.serialization])
  | endpoint url => ("endpoint", [url.serialization])
  | pinned eventId => ("pinned", [calls.externals.hexEncode eventId.val])
  | space value => ("a", spaceValues calls value)
  | hand raised => ("hand", [if raised then "1" else "0"])

def toTag (tag : Nip53Tag crate) : Tag :=
  ⟨(kindAndValues calls tag).1 :: (kindAndValues calls tag).2, List.cons_ne_nil _ _⟩

end Nip53Tag

/-! ## The events -/

structure LiveEventHost (crate : UrlCrate) where
  publicKey : PublicKey
  relayUrl : Option (FullRelayUrl crate)
  proof : Option Signature

instance : BEq (LiveEventHost crate) where
  beq left right := left.publicKey == right.publicKey && left.relayUrl == right.relayUrl && left.proof == right.proof

structure LiveEvent (crate : UrlCrate) where
  kind : Kind
  id : String
  room : Option String := none
  space : Option (LiveEventSpace crate) := none
  title : Option String := none
  summary : Option String := none
  image : Option (Url crate) := none
  hashtags : List String := []
  streaming : Option (Url crate) := none
  recording : Option (Url crate) := none
  service : Option (Url crate) := none
  endpoint : Option (Url crate) := none
  starts : Option Timestamp := none
  ends : Option Timestamp := none
  status : Option LiveEventStatus := none
  currentParticipants : Option UInt64 := none
  totalParticipants : Option UInt64 := none
  relays : List (FullRelayUrl crate) := []
  pinned : List EventId := []
  host : Option (LiveEventHost crate) := none
  owners : List (PublicKey × Option (FullRelayUrl crate)) := []
  moderators : List (PublicKey × Option (FullRelayUrl crate)) := []
  speakers : List (PublicKey × Option (FullRelayUrl crate)) := []
  participants : List (PublicKey × Option (FullRelayUrl crate)) := []
  hand : Option Bool := none

def LiveEvent.beq (left right : LiveEvent crate) : Bool :=
  left.kind == right.kind && left.id == right.id && left.room == right.room &&
    left.space == right.space && left.title == right.title && left.summary == right.summary &&
    left.image == right.image && left.hashtags == right.hashtags && left.streaming == right.streaming &&
    left.recording == right.recording && left.service == right.service && left.endpoint == right.endpoint &&
    left.starts == right.starts && left.ends == right.ends && left.status == right.status &&
    left.currentParticipants == right.currentParticipants && left.totalParticipants == right.totalParticipants &&
    left.relays == right.relays && left.pinned == right.pinned && left.host == right.host &&
    left.owners == right.owners && left.moderators == right.moderators && left.speakers == right.speakers &&
    left.participants == right.participants && left.hand == right.hand

instance : BEq (LiveEvent crate) := ⟨LiveEvent.beq⟩

def liveEventKind : UInt16 := 30311

def roomPresenceKind : UInt16 := 10312

def Error.descriptionMissing : Error := ⟨.missing, "description missing"⟩

def Tag.identifier (identifier : String) : Tag := ⟨["d", identifier], List.cons_ne_nil _ _⟩

namespace LiveEvent

def new (id : String) : LiveEvent crate := { kind := .fromU16 liveEventKind, id := id }

def applyTag (live : LiveEvent crate) (tag : Nip53Tag crate) : LiveEvent crate :=
  match tag with
  | .title title => { live with title := some title }
  | .summary summary => { live with summary := some summary }
  | .image image => { live with image := some image }
  | .hashtag hashtag => { live with hashtags := live.hashtags ++ [hashtag] }
  | .streaming url => { live with streaming := some url }
  | .recording url => { live with recording := some url }
  | .starts starts => { live with starts := some starts }
  | .ends ends => { live with ends := some ends }
  | .status status => { live with status := some status }
  | .currentParticipants count => { live with currentParticipants := some count }
  | .totalParticipants count => { live with totalParticipants := some count }
  | .relays relays => { live with relays := live.relays ++ relays }
  | .participant ⟨publicKey, relayUrl, marker, proof⟩ =>
      match marker with
      | .host => { live with host := some ⟨publicKey, relayUrl, proof⟩ }
      | .owner => { live with owners := live.owners ++ [(publicKey, relayUrl)] }
      | .moderator => { live with moderators := live.moderators ++ [(publicKey, relayUrl)] }
      | .speaker => { live with speakers := live.speakers ++ [(publicKey, relayUrl)] }
      | .participant => { live with participants := live.participants ++ [(publicKey, relayUrl)] }
      | .custom _ => { live with participants := live.participants ++ [(publicKey, relayUrl)] }
  | .room room => { live with room := some room }
  | .service service => { live with service := some service }
  | .endpoint endpoint => { live with endpoint := some endpoint }
  | .pinned eventId => { live with pinned := live.pinned ++ [eventId] }
  | .space space => { live with space := some space }
  | .hand hand => { live with hand := some hand }

/-- Malformed tags, which those of other kinds are, are skipped. -/
def applyTags (live : LiveEvent crate) : List Tag → Except Error (LiveEvent crate)
  | [] => .ok live
  | tag :: rest =>
      match Nip53Tag.parse calls tag.buf with
      | .ok parsed => applyTags (live.applyTag parsed) rest
      | .error error => if error.kind = .malformed then applyTags live rest else .error error

def fromEvent (event : Event) : Except Error (LiveEvent crate) :=
  let read (id : String) := applyTags calls { new id with kind := event.kind } event.tags
  if event.kind.asU16 = roomPresenceKind then read ""
  else
    match Tags.identifier event.tags with
    | none => .error .descriptionMissing
    | some id => read id

/-- `TryFrom<Vec<Tag>>` -/
def tryFrom (tags : List Tag) : Except Error (LiveEvent crate) :=
  match (tags.find? fun tag => tag.kind = "d").bind Tag.content with
  | none => .error .descriptionMissing
  | some id => applyTags calls (new id) tags

/-- The tags of the participants of one role. -/
def roleTags (marker : LiveEventMarker) (people : List (PublicKey × Option (FullRelayUrl crate))) :
    List (Nip53Tag crate) :=
  people.map fun (publicKey, relayUrl) => .participant ⟨publicKey, relayUrl, marker, none⟩

def hostTag (host : LiveEventHost crate) : Nip53Tag crate :=
  .participant ⟨host.publicKey, host.relayUrl, .host, host.proof⟩

/-- The tags after the identifier. The kind is not written. -/
def fieldTags (live : LiveEvent crate) : List (Nip53Tag crate) :=
  (live.room.map .room).toList ++ (live.space.map .space).toList ++ (live.title.map .title).toList ++
    (live.summary.map .summary).toList ++ (live.image.map .image).toList ++ live.hashtags.map .hashtag ++
    (live.streaming.map .streaming).toList ++ (live.recording.map .recording).toList ++
    (live.service.map .service).toList ++ (live.endpoint.map .endpoint).toList ++
    (live.starts.map .starts).toList ++ (live.ends.map .ends).toList ++ (live.status.map .status).toList ++
    (live.currentParticipants.map .currentParticipants).toList ++
    (live.totalParticipants.map .totalParticipants).toList ++
    (if live.relays.isEmpty then [] else [.relays live.relays]) ++ live.pinned.map .pinned ++
    (live.host.map hostTag).toList ++ roleTags .owner live.owners ++ roleTags .moderator live.moderators ++
    roleTags .speaker live.speakers ++ roleTags .participant live.participants ++ (live.hand.map .hand).toList

/-- `From<LiveEvent> for Vec<Tag>` -/
def toTags (live : LiveEvent crate) : List Tag :=
  (if live.id = "" then [] else [Tag.identifier live.id]) ++ live.fieldTags.map (Nip53Tag.toTag calls)

def intoEventBuilder (live : LiveEvent crate) : EventBuilder where
  kind := .fromU16 liveEventKind
  tags := live.toTags calls
  content := ""

end LiveEvent

end RustNostr
