import Mathlib
import RustNostr.Library.SeqReader
import RustNostr.Nostr.FilterJson
import RustNostr.Nostr.Message

/-!
# Message JSON

Messages as JSON arrays and back (`nostr/src/message/client.rs`,
`nostr/src/message/relay.rs`), with the events in them (`nostr/src/event/mod.rs`).
-/

set_option autoImplicit false

namespace RustNostr

open Library JsonValue SeqReader

/-- The forms of `bech32`, and `faster_hex::hex_decode` into 64 bytes. -/
structure MessageForms extends NostrForms where
  hexDecodeSignature : String → Option Signature

inductive MessageError where
  | custom (text : String)
  | json (error : JsonError)
  | missingField (name : String)
  | invalidLength (length : Nat)
  | trailingCharacters

/-- `malformed` -/
def MessageError.malformed : MessageError := custom "invalid message format"

abbrev MessageReader (α : Type) := SeqReader JsonValue MessageError α

namespace JsonValue

def asBool : JsonValue → Except JsonError Bool
  | bool value => .ok value
  | _ => .error .invalidType

def asList {α : Type} (element : JsonValue → Except JsonError α) : JsonValue → Except JsonError (List α)
  | array elements => elements.mapM element
  | _ => .error .invalidType

end JsonValue

/-! ## Derived readers of structures -/

/-- A field that has no default. -/
def requiredField {α : Type} (entries : List (String × JsonValue)) (name : String)
    (read : JsonValue → Except JsonError α) : Except MessageError α :=
  match entries.filter fun entry => entry.1 = name with
  | [] => .error (.missingField name)
  | [entry] => (read entry.2).mapError .json
  | _ => .error (.json (.duplicateField name))

/-- A field by its position. -/
def positionalField {α : Type} (position : Nat) (read : JsonValue → Except JsonError α) : MessageReader α :=
  next (.invalidLength position) fun value => (read value).mapError .json

/-- The whole array, element by element. -/
def wholeArray {α : Type} (reader : MessageReader α) (elements : List JsonValue) : Except MessageError α :=
  match reader ⟨elements, none⟩ with
  | .error error => .error error
  | .ok (value, later) => if later.values.isEmpty then .ok value else .error .trailingCharacters

/-! ## Events -/

/-- `Tag::parse` -/
def Tag.parse (buf : List String) : Except JsonError Tag :=
  if notEmpty : buf ≠ [] then .ok ⟨buf, notEmpty⟩ else .error .invalidValue

def Tag.serialize (tag : Tag) : JsonValue := array (tag.buf.map string)

def Tag.deserialize (value : JsonValue) : Except JsonError Tag := do
  let buf ← asList asString value
  Tag.parse buf

def Tags.serialize (tags : List Tag) : JsonValue := array (tags.map Tag.serialize)

def Tags.deserialize (value : JsonValue) : Except JsonError (List Tag) := asList Tag.deserialize value

def Kind.deserializeKind (value : JsonValue) : Except JsonError Kind :=
  (asUnsigned 65536 value).map fun number => Kind.fromU16 (UInt16.ofNat number)

def Signature.deserialize (forms : MessageForms) (value : JsonValue) : Except JsonError Signature := do
  let text ← asString value
  (forms.hexDecodeSignature text).elim (.error .invalidValue) .ok

namespace Event

def serialize (externals : Externals) (event : Event) : JsonValue :=
  object [
    ("id", string (externals.hexEncode event.id.val)),
    ("pubkey", string (externals.hexEncode event.pubkey.val)),
    ("created_at", number event.createdAt.toNat),
    ("kind", number event.kind.asU16.toNat),
    ("tags", Tags.serialize event.tags),
    ("content", string event.content),
    ("sig", string (externals.hexEncode event.sig.val))]

section Reading

variable (externals : Externals) (forms : MessageForms)

def visitMap (entries : List (String × JsonValue)) : Except MessageError Event := do
  let id ← requiredField entries "id" (EventId.deserialize externals forms.toNostrForms)
  let pubkey ← requiredField entries "pubkey" (PublicKey.deserialize externals forms.toNostrForms)
  let createdAt ← requiredField entries "created_at" Timestamp.deserialize
  let kind ← requiredField entries "kind" Kind.deserializeKind
  let tags ← requiredField entries "tags" Tags.deserialize
  let content ← requiredField entries "content" asString
  let sig ← requiredField entries "sig" (Signature.deserialize forms)
  .ok { id, pubkey, createdAt, kind, tags, content, sig }

def visitSeq : MessageReader Event := do
  let id ← positionalField 0 (EventId.deserialize externals forms.toNostrForms)
  let pubkey ← positionalField 1 (PublicKey.deserialize externals forms.toNostrForms)
  let createdAt ← positionalField 2 Timestamp.deserialize
  let kind ← positionalField 3 Kind.deserializeKind
  let tags ← positionalField 4 Tags.deserialize
  let content ← positionalField 5 asString
  let sig ← positionalField 6 (Signature.deserialize forms)
  pure { id, pubkey, createdAt, kind, tags, content, sig }

def deserialize : JsonValue → Except MessageError Event
  | object entries => visitMap externals forms entries
  | array elements => wholeArray (visitSeq externals forms) elements
  | _ => .error (.json .invalidType)

end Reading

/-- `PartialEq for Event` -/
def eq (left right : Event) : Bool :=
  left.id == right.id && left.pubkey == right.pubkey && left.createdAt == right.createdAt &&
    left.kind == right.kind && left.tags == right.tags && left.content == right.content &&
    left.sig == right.sig

end Event

/-! ## Elements of messages -/

def SubscriptionId.deserialize (value : JsonValue) : Except MessageError SubscriptionId :=
  (asString value).mapError .json

def deserializeText (value : JsonValue) : Except MessageError String := (asString value).mapError .json

/-- A structure with a flattened field is read from an object only. -/
def Filter.deserializeValue (externals : Externals) (forms : MessageForms) :
    JsonValue → Except MessageError Filter
  | object entries => (Filter.deserialize externals forms.toNostrForms entries).mapError .json
  | _ => .error (.json .invalidType)

/-- An element that must be there. -/
def nextRequired {α : Type} (read : JsonValue → Except MessageError α) : MessageReader α :=
  next .malformed read

/-! ## Client messages -/

namespace ClientMessage

def len : ClientMessage → Nat
  | event _ | close _ | auth _ | negClose _ => 2
  | count _ _ | negMsg _ _ => 3
  | req _ filters => 2 + filters.length
  | negOpen _ _ _ => 4

section Codec

variable (externals : Externals) (forms : MessageForms)

/-- The elements that are written, one after the other. -/
def elements : ClientMessage → List JsonValue
  | .event given => [string "EVENT", given.serialize externals]
  | .req subscriptionId filters =>
      string "REQ" :: string subscriptionId :: filters.map fun filter => object (filter.serialize externals)
  | .count subscriptionId filter =>
      [string "COUNT", string subscriptionId, object (filter.serialize externals)]
  | .close subscriptionId => [string "CLOSE", string subscriptionId]
  | .auth given => [string "AUTH", given.serialize externals]
  | .negOpen subscriptionId filter initialMessage =>
      [string "NEG-OPEN", string subscriptionId, object (filter.serialize externals), string initialMessage]
  | .negMsg subscriptionId message => [string "NEG-MSG", string subscriptionId, string message]
  | .negClose subscriptionId => [string "NEG-CLOSE", string subscriptionId]

def asJson (message : ClientMessage) : JsonValue := array (message.elements externals)

/-- The loop over the filters of a `REQ`. -/
def filtersOf (broken : Option MessageError) : List JsonValue → Except MessageError (List Filter)
  | [] => broken.elim (.ok []) .error
  | value :: rest => do
      let filter ← Filter.deserializeValue externals forms value
      let filters ← filtersOf broken rest
      .ok (filter :: filters)

def readFilters : MessageReader (List Filter) := fun elements =>
  (filtersOf externals forms elements.broken elements.values).map fun filters =>
    (filters, { elements with values := [] })

def visitReq : MessageReader ClientMessage := do
  let subscriptionId ← nextRequired SubscriptionId.deserialize
  let filters ← readFilters externals forms
  if filters.isEmpty then throw .malformed
  else pure (.req subscriptionId filters)

/-- The variants with a fixed number of elements. -/
def visitVariant (messageType : String) : MessageReader ClientMessage :=
  match messageType with
  | "EVENT" => do
      let event ← nextRequired (Event.deserialize externals forms)
      pure (.event event)
  | "COUNT" => do
      let subscriptionId ← nextRequired SubscriptionId.deserialize
      let filter ← nextRequired (Filter.deserializeValue externals forms)
      pure (.count subscriptionId filter)
  | "CLOSE" => do
      let subscriptionId ← nextRequired SubscriptionId.deserialize
      pure (.close subscriptionId)
  | "AUTH" => do
      let event ← nextRequired (Event.deserialize externals forms)
      pure (.auth event)
  | "NEG-OPEN" => do
      let subscriptionId ← nextRequired SubscriptionId.deserialize
      let filter ← nextRequired (Filter.deserializeValue externals forms)
      let initialMessage ← nextRequired deserializeText
      pure (.negOpen subscriptionId filter initialMessage)
  | "NEG-MSG" => do
      let subscriptionId ← nextRequired SubscriptionId.deserialize
      let message ← nextRequired deserializeText
      pure (.negMsg subscriptionId message)
  | "NEG-CLOSE" => do
      let subscriptionId ← nextRequired SubscriptionId.deserialize
      pure (.negClose subscriptionId)
  | _ => throw .malformed

def visitSeq : MessageReader ClientMessage := do
  let messageType ← nextRequired deserializeText
  if messageType = "REQ" then visitReq externals forms
  else leading (visitVariant externals forms messageType)

def fromJson : JsonValue → Except MessageError ClientMessage
  | array elements => wholeArray (visitSeq externals forms) elements
  | _ => .error (.json .invalidType)

end Codec

/-- The derived `PartialEq`. -/
def Same : ClientMessage → ClientMessage → Prop
  | .event left, .event right => left.eq right = true
  | .req left filters, .req right filters' => left = right ∧ filters = filters'
  | .count left filter, .count right filter' => left = right ∧ filter = filter'
  | .close left, .close right => left = right
  | .auth left, .auth right => left.eq right = true
  | .negOpen left filter message, .negOpen right filter' message' =>
      left = right ∧ filter = filter' ∧ message = message'
  | .negMsg left message, .negMsg right message' => left = right ∧ message = message'
  | .negClose left, .negClose right => left = right
  | _, _ => False

end ClientMessage

/-! ## Relay messages -/

/-- The structure `Count`. -/
def Count.serialize (count : Nat) : JsonValue := object [("count", number count)]

def Count.deserialize : JsonValue → Except MessageError Nat
  | object entries => requiredField entries "count" (asUnsigned 18446744073709551616)
  | array elements => wholeArray (positionalField 0 (asUnsigned 18446744073709551616)) elements
  | _ => .error (.json .invalidType)

/-- What is known of the input when a message is lost. -/
inductive RelayMessageContext where
  | unknown
  | nonEvent
  | event (subscriptionId : Option SubscriptionId)
  deriving DecidableEq

namespace RelayMessage

def len : RelayMessage → Nat
  | notice _ | endOfStoredEvents _ | auth _ => 2
  | event _ _ | closed _ _ | count _ _ | negMsg _ _ | negErr _ _ => 3
  | ok _ _ _ => 4

section Codec

variable (externals : Externals) (forms : MessageForms)

def elements : RelayMessage → List JsonValue
  | .event subscriptionId given => [string "EVENT", string subscriptionId, given.serialize externals]
  | .notice message => [string "NOTICE", string message]
  | .closed subscriptionId message => [string "CLOSED", string subscriptionId, string message]
  | .endOfStoredEvents subscriptionId => [string "EOSE", string subscriptionId]
  | .ok eventId status message =>
      [string "OK", string (externals.hexEncode eventId.val), bool status, string message]
  | .auth challenge => [string "AUTH", string challenge]
  | .count subscriptionId total => [string "COUNT", string subscriptionId, Count.serialize total]
  | .negMsg subscriptionId message => [string "NEG-MSG", string subscriptionId, string message]
  | .negErr subscriptionId message => [string "NEG-ERR", string subscriptionId, string message]

def asJson (message : RelayMessage) : JsonValue := array (message.elements externals)

/-- All variants but `EVENT`. -/
def visitVariant (messageType : String) : MessageReader RelayMessage :=
  match messageType with
  | "OK" => do
      let eventId ← nextRequired fun value =>
        (EventId.deserialize externals forms.toNostrForms value).mapError .json
      let status ← nextRequired fun value => (asBool value).mapError .json
      let message ← nextRequired deserializeText
      pure (.ok eventId status message)
  | "EOSE" => do
      let subscriptionId ← nextRequired SubscriptionId.deserialize
      pure (.endOfStoredEvents subscriptionId)
  | "NOTICE" => do
      let message ← nextRequired deserializeText
      pure (.notice message)
  | "CLOSED" => do
      let subscriptionId ← nextRequired SubscriptionId.deserialize
      let message ← nextRequired deserializeText
      pure (.closed subscriptionId message)
  | "AUTH" => do
      let challenge ← nextRequired deserializeText
      pure (.auth challenge)
  | "COUNT" => do
      let subscriptionId ← nextRequired SubscriptionId.deserialize
      let count ← nextRequired Count.deserialize
      pure (.count subscriptionId count)
  | "NEG-MSG" => do
      let subscriptionId ← nextRequired SubscriptionId.deserialize
      let message ← nextRequired deserializeText
      pure (.negMsg subscriptionId message)
  | "NEG-ERR" => do
      let subscriptionId ← nextRequired SubscriptionId.deserialize
      let message ← nextRequired deserializeText
      pure (.negErr subscriptionId message)
  | _ => throw .malformed

/-- The event behind a subscription ID. -/
def eventFor (subscriptionId : SubscriptionId) : MessageReader RelayMessage := do
  let event ← nextRequired (Event.deserialize externals forms)
  pure (.event subscriptionId event)

/-- An event for a subscription, and the passing over of what follows; a failure
keeps the subscription. -/
def visitEvent (elements : Elements JsonValue MessageError) :
    RelayMessageContext × Except MessageError (RelayMessage × Elements JsonValue MessageError) :=
  match nextRequired SubscriptionId.deserialize elements with
  | .error error => (.event none, .error error)
  | .ok (subscriptionId, elements) =>
      match leading (eventFor externals forms subscriptionId) elements with
      | .error error => (.event (some subscriptionId), .error error)
      | .ok outcome => (.event none, .ok outcome)

/-- The message, and the context that the visitor leaves behind. -/
def visitSeq (elements : Elements JsonValue MessageError) :
    RelayMessageContext × Except MessageError (RelayMessage × Elements JsonValue MessageError) :=
  match nextRequired deserializeText elements with
  | .error error => (.unknown, .error error)
  | .ok (messageType, elements) =>
      if messageType = "EVENT" then visitEvent externals forms elements
      else (.nonEvent, leading (visitVariant externals forms messageType) elements)

def fromJson : JsonValue → Except MessageError RelayMessage
  | array elements => wholeArray (fun elements => (visitSeq externals forms elements).2) elements
  | _ => .error (.json .invalidType)

end Codec

/-- The derived `PartialEq`. -/
def Same : RelayMessage → RelayMessage → Prop
  | .event left given, .event right given' => left = right ∧ given.eq given' = true
  | left, right => left = right

end RelayMessage

end RustNostr
