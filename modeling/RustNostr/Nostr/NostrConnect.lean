import Mathlib
import RustNostr.Nostr.Hex
import RustNostr.Nostr.RelayUrl

/-!
# Nostr Connect messages

Requests and responses of NIP-46 and the texts they are sent as
(`nostr/src/nips/nip46.rs`). A response is a bare text, which is read by the
method of the request it answers.
-/

set_option autoImplicit false

namespace RustNostr

open Library

namespace Error

def invalidParamsLength : Error := ⟨.invalid, "invalid params length"⟩

def invalidRequest : Error := ⟨.invalid, "invalid request"⟩

def unexpectedResult : Error := ⟨.invalid, "unexpected result"⟩

def unsupportedMethod (method : String) : Error :=
  ⟨.unsupported, "unsupported method: " ++ method⟩

/-- What `hex_decode` fails with, whatever its message. -/
def invalidHex : Error := ⟨.malformed, "invalid hex"⟩

end Error

inductive NostrConnectMethod where
  | connect
  | getPublicKey
  | signEvent
  | nip04Encrypt
  | nip04Decrypt
  | nip44Encrypt
  | nip44Decrypt
  | ping
  deriving DecidableEq

namespace NostrConnectMethod

def toString : NostrConnectMethod → String
  | connect => "connect"
  | getPublicKey => "get_public_key"
  | signEvent => "sign_event"
  | nip04Encrypt => "nip04_encrypt"
  | nip04Decrypt => "nip04_decrypt"
  | nip44Encrypt => "nip44_encrypt"
  | nip44Decrypt => "nip44_decrypt"
  | ping => "ping"

def fromStr : String → Except Error NostrConnectMethod
  | "connect" => .ok connect
  | "get_public_key" => .ok getPublicKey
  | "sign_event" => .ok signEvent
  | "nip04_encrypt" => .ok nip04Encrypt
  | "nip04_decrypt" => .ok nip04Decrypt
  | "nip44_encrypt" => .ok nip44Encrypt
  | "nip44_decrypt" => .ok nip44Decrypt
  | "ping" => .ok ping
  | other => .error (.unsupportedMethod other)

@[simp] theorem fromStr_toString (method : NostrConnectMethod) :
    fromStr method.toString = .ok method := by
  cases method <;> rfl

end NostrConnectMethod

structure UnsignedEvent where
  id : Option EventId
  pubkey : PublicKey
  createdAt : Timestamp
  kind : Kind
  tags : List Tag
  content : String
  deriving DecidableEq

def UnsignedEvent.asJson (externals : Externals) (unsigned : UnsignedEvent) : String :=
  let id := unsigned.id.toList.map fun id => ("id", Json.string (externals.hexEncode id.val))
  Json.object (id ++ [
    ("pubkey", Json.string (externals.hexEncode unsigned.pubkey.val)),
    ("created_at", Json.number unsigned.createdAt.toNat),
    ("kind", Json.number unsigned.kind.asU16.toNat),
    ("tags", Tags.asJson unsigned.tags),
    ("content", Json.string unsigned.content)])

/-- What `serde_json` reads the JSON of events as. -/
structure EventSerde where
  eventFromJson : String → Except Error Event
  unsignedFromJson : String → Except Error UnsignedEvent

/-- The event with the named variant of its kind. Kinds are compared by their
numbers, so the two are equal. -/
def Event.canonical (event : Event) : Event :=
  { event with kind := .fromU16 event.kind.asU16 }

def UnsignedEvent.canonical (unsigned : UnsignedEvent) : UnsignedEvent :=
  { unsigned with kind := .fromU16 unsigned.kind.asU16 }

def EventSerde.ReadsEvent (serde : EventSerde) (externals : Externals) (event : Event) : Prop :=
  serde.eventFromJson (event.asJson externals) = .ok event.canonical

def EventSerde.ReadsUnsigned (serde : EventSerde) (externals : Externals)
    (unsigned : UnsignedEvent) : Prop :=
  serde.unsignedFromJson (unsigned.asJson externals) = .ok unsigned.canonical

def PublicKey.toHex (externals : Externals) (publicKey : PublicKey) : String :=
  externals.hexEncode publicKey.val

def PublicKey.fromHex (externals : Externals) (hex : String) : Except Error PublicKey :=
  match externals.hexDecode hex with
  | some publicKey => .ok publicKey
  | none => .error .invalidHex

/-! ## Requests -/

inductive NostrConnectRequest where
  | connect (remoteSignerPublicKey : PublicKey) (secret : Option String)
  | getPublicKey
  | signEvent (unsigned : UnsignedEvent)
  | nip04Encrypt (publicKey : PublicKey) (text : String)
  | nip04Decrypt (publicKey : PublicKey) (ciphertext : String)
  | nip44Encrypt (publicKey : PublicKey) (text : String)
  | nip44Decrypt (publicKey : PublicKey) (ciphertext : String)
  | ping
  deriving DecidableEq

namespace NostrConnectRequest

variable (externals : Externals) (serde : EventSerde)

/-- A key and a text, as the methods that encrypt and decrypt take them. -/
def keyAndText (make : PublicKey → String → NostrConnectRequest) :
    List String → Except Error NostrConnectRequest
  | [publicKey, text] => do
      let publicKey ← PublicKey.fromHex externals publicKey
      .ok (make publicKey text)
  | _ => .error .invalidParamsLength

def fromMessage (method : NostrConnectMethod) (params : List String) :
    Except Error NostrConnectRequest :=
  match method with
  | .connect =>
      match params with
      | [] => .error .invalidRequest
      | remoteSignerPublicKey :: rest => do
          let remoteSignerPublicKey ← PublicKey.fromHex externals remoteSignerPublicKey
          .ok (connect remoteSignerPublicKey rest.head?)
  | .getPublicKey => .ok getPublicKey
  | .signEvent =>
      match params with
      | [] => .error .invalidRequest
      | unsigned :: _ => do
          let unsigned ← serde.unsignedFromJson unsigned
          .ok (signEvent unsigned)
  | .nip04Encrypt => keyAndText externals nip04Encrypt params
  | .nip04Decrypt => keyAndText externals nip04Decrypt params
  | .nip44Encrypt => keyAndText externals nip44Encrypt params
  | .nip44Decrypt => keyAndText externals nip44Decrypt params
  | .ping => .ok ping

def method : NostrConnectRequest → NostrConnectMethod
  | connect _ _ => .connect
  | getPublicKey => .getPublicKey
  | signEvent _ => .signEvent
  | nip04Encrypt _ _ => .nip04Encrypt
  | nip04Decrypt _ _ => .nip04Decrypt
  | nip44Encrypt _ _ => .nip44Encrypt
  | nip44Decrypt _ _ => .nip44Decrypt
  | ping => .ping

def params : NostrConnectRequest → List String
  | connect remoteSignerPublicKey secret =>
      remoteSignerPublicKey.toHex externals :: secret.toList
  | getPublicKey => []
  | signEvent unsigned => [unsigned.asJson externals]
  | nip04Encrypt publicKey text | nip44Encrypt publicKey text => [publicKey.toHex externals, text]
  | nip04Decrypt publicKey ciphertext | nip44Decrypt publicKey ciphertext =>
      [publicKey.toHex externals, ciphertext]
  | ping => []

/-- The request with the named variants of kinds. -/
def canonical : NostrConnectRequest → NostrConnectRequest
  | signEvent unsigned => signEvent unsigned.canonical
  | other => other

end NostrConnectRequest

/-! ## Responses -/

inductive ResponseResult where
  | ack
  | connectSecret (secret : String)
  | getPublicKey (publicKey : PublicKey)
  | signEvent (event : Event)
  | nip04Encrypt (ciphertext : String)
  | nip04Decrypt (plaintext : String)
  | nip44Encrypt (ciphertext : String)
  | nip44Decrypt (plaintext : String)
  | pong
  | authUrl
  | error
  deriving DecidableEq

namespace ResponseResult

variable (externals : Externals) (serde : EventSerde)

def toString : ResponseResult → String
  | ack => "ack"
  | connectSecret secret => secret
  | getPublicKey publicKey => publicKey.toHex externals
  | signEvent event => event.asJson externals
  | nip04Encrypt ciphertext | nip44Encrypt ciphertext => ciphertext
  | nip04Decrypt plaintext | nip44Decrypt plaintext => plaintext
  | pong => "pong"
  | authUrl => "auth_url"
  | error => "error"

/-- The reading of a text that is neither of the markers of every method. -/
def parseByMethod (response : String) : NostrConnectMethod → Except Error ResponseResult
  | .connect => if response = "ack" then .ok ack else .ok (connectSecret response)
  | .getPublicKey => do
      let publicKey ← PublicKey.fromHex externals response
      .ok (getPublicKey publicKey)
  | .signEvent => do
      let event ← serde.eventFromJson response
      .ok (signEvent event)
  | .nip04Encrypt => .ok (nip04Encrypt response)
  | .nip04Decrypt => .ok (nip04Decrypt response)
  | .nip44Encrypt => .ok (nip44Encrypt response)
  | .nip44Decrypt => .ok (nip44Decrypt response)
  | .ping => if response = "pong" then .ok pong else .error .unexpectedResult

def parse (method : NostrConnectMethod) (response : String) : Except Error ResponseResult :=
  if response = "auth_url" then .ok authUrl
  else if response = "error" then .ok error
  else parseByMethod externals serde response method

/-- The result with the named variants of kinds. -/
def canonical : ResponseResult → ResponseResult
  | signEvent event => signEvent event.canonical
  | other => other

/-- The results that may answer a request of a method. -/
def Answers : ResponseResult → NostrConnectMethod → Prop
  | ack, method | connectSecret _, method => method = .connect
  | getPublicKey _, method => method = .getPublicKey
  | signEvent _, method => method = .signEvent
  | nip04Encrypt _, method => method = .nip04Encrypt
  | nip04Decrypt _, method => method = .nip04Decrypt
  | nip44Encrypt _, method => method = .nip44Encrypt
  | nip44Decrypt _, method => method = .nip44Decrypt
  | pong, method => method = .ping
  | authUrl, _ | error, _ => True

end ResponseResult

/-! ## Reading back -/

theorem Json.length_lowercaseHex (bytes : Bytes) :
    (Json.lowercaseHex bytes).toList.length = 2 * bytes.length := by
  rw [Json.lowercaseHex, String.toList_ofList]
  induction bytes with
  | nil => rfl
  | cons byte bytes ih =>
      rw [List.flatMap_cons, List.length_append, ih]
      simp only [List.length_cons, List.length_nil]
      omega

variable {externals : Externals} {serde : EventSerde}

theorem PublicKey.fromHex_toHex (codec : HexCodec externals) (publicKey : PublicKey) :
    PublicKey.fromHex externals (publicKey.toHex externals) = .ok publicKey := by
  unfold PublicKey.fromHex PublicKey.toHex
  rw [codec.encode, codec.decode]

theorem PublicKey.length_toHex (codec : HexCodec externals) (publicKey : PublicKey) :
    (publicKey.toHex externals).toList.length = 64 := by
  rw [PublicKey.toHex, codec.encode, Json.length_lowercaseHex, publicKey.property]

theorem Event.head?_asJson (event : Event) :
    (event.asJson externals).toList.head? = some (Char.ofNat 123) := by
  rw [Event.asJson, Json.object, String.toList_append, String.toList_append]
  rfl

namespace NostrConnectRequest

theorem fromMessage_params (codec : HexCodec externals) {request : NostrConnectRequest}
    (reads : ∀ unsigned, request = .signEvent unsigned → serde.ReadsUnsigned externals unsigned) :
    fromMessage externals serde request.method (request.params externals) =
      .ok request.canonical := by
  have key := PublicKey.fromHex_toHex codec
  cases request with
  | connect remoteSignerPublicKey secret =>
      cases secret with
      | none => simp [fromMessage, method, params, canonical, key, bind, Except.bind]
      | some secret => simp [fromMessage, method, params, canonical, key, bind, Except.bind]
  | getPublicKey => rfl
  | signEvent unsigned =>
      have read : serde.unsignedFromJson (unsigned.asJson externals) = .ok unsigned.canonical :=
        reads unsigned rfl
      simp [fromMessage, method, params, canonical, read, bind, Except.bind]
  | nip04Encrypt | nip04Decrypt | nip44Encrypt | nip44Decrypt =>
      simp [fromMessage, method, params, canonical, keyAndText, key, bind, Except.bind]
  | ping => rfl

end NostrConnectRequest

namespace ResponseResult

/-- Not a free text that stands for something else: a marker of every method, or
the acknowledgement of `connect`. -/
def Unambiguous : ResponseResult → Prop
  | connectSecret secret => secret ≠ "auth_url" ∧ secret ≠ "error" ∧ secret ≠ "ack"
  | nip04Encrypt text | nip04Decrypt text | nip44Encrypt text | nip44Decrypt text =>
      text ≠ "auth_url" ∧ text ≠ "error"
  | _ => True

theorem parse_of_ne {method : NostrConnectMethod} {response : String}
    (authUrl : response ≠ "auth_url") (error : response ≠ "error") :
    parse externals serde method response = parseByMethod externals serde response method := by
  rw [parse, if_neg authUrl, if_neg error]

/-- A text that its method reads as `made` is so read unless it is a marker. -/
theorem parse_text_iff {method : NostrConnectMethod} {response : String} {made : ResponseResult}
    (byMethod : parseByMethod externals serde response method = .ok made)
    (different : made ≠ authUrl ∧ made ≠ error) :
    parse externals serde method response = .ok made ↔
      response ≠ "auth_url" ∧ response ≠ "error" := by
  constructor
  · intro read
    refine ⟨fun marker => different.1 ?_, fun marker => different.2 ?_⟩
    · rw [marker, parse, if_pos rfl] at read
      exact (Except.ok.inj read).symm
    · rw [marker, parse, if_neg (by decide), if_pos rfl] at read
      exact (Except.ok.inj read).symm
  · intro unmarked
    rw [parse_of_ne unmarked.1 unmarked.2, byMethod]

theorem parse_connectSecret_iff (secret : String) :
    parse externals serde .connect secret = .ok (connectSecret secret) ↔
      (connectSecret secret).Unambiguous := by
  by_cases acknowledges : secret = "ack"
  · subst acknowledges
    simp [parse, parseByMethod, Unambiguous]
  · have byMethod : parseByMethod externals serde secret .connect = .ok (connectSecret secret) := by
      rw [parseByMethod, if_neg acknowledges]
    rw [parse_text_iff byMethod ⟨nofun, nofun⟩]
    exact ⟨fun unmarked => ⟨unmarked.1, unmarked.2, acknowledges⟩,
      fun unambiguous => ⟨unambiguous.1, unambiguous.2.1⟩⟩

theorem parse_getPublicKey (codec : HexCodec externals) (publicKey : PublicKey) :
    parse externals serde .getPublicKey (publicKey.toHex externals) =
      .ok (getPublicKey publicKey) := by
  have length := PublicKey.length_toHex codec publicKey
  have ne : ∀ marker : String, marker.toList.length ≠ 64 → publicKey.toHex externals ≠ marker :=
    fun marker short same => short (same ▸ length)
  rw [parse_of_ne (ne _ (by decide)) (ne _ (by decide)), parseByMethod,
    PublicKey.fromHex_toHex codec]
  rfl

theorem parse_signEvent {event : Event} (reads : serde.ReadsEvent externals event) :
    parse externals serde .signEvent (event.asJson externals) = .ok (signEvent event.canonical) := by
  have brace : (event.asJson externals).toList.head? = some (Char.ofNat 123) := event.head?_asJson
  have ne : ∀ marker : String, marker.toList.head? ≠ some (Char.ofNat 123) →
      event.asJson externals ≠ marker :=
    fun marker other same => other (same ▸ brace)
  rw [parse_of_ne (ne _ (by decide)) (ne _ (by decide)), parseByMethod, reads]
  rfl

theorem parse_toString_iff (codec : HexCodec externals) {method : NostrConnectMethod}
    {result : ResponseResult} (answers : result.Answers method)
    (reads : ∀ event, result = .signEvent event → serde.ReadsEvent externals event) :
    parse externals serde method (result.toString externals) = .ok result.canonical ↔
      result.Unambiguous := by
  cases result with
  | ack =>
      cases answers
      exact iff_of_true rfl trivial
  | connectSecret secret =>
      cases answers
      exact parse_connectSecret_iff secret
  | getPublicKey publicKey =>
      cases answers
      exact iff_of_true (parse_getPublicKey codec publicKey) trivial
  | signEvent event =>
      cases answers
      exact iff_of_true (parse_signEvent (reads event rfl)) trivial
  | nip04Encrypt | nip04Decrypt | nip44Encrypt | nip44Decrypt =>
      cases answers
      exact parse_text_iff rfl ⟨nofun, nofun⟩
  | pong =>
      cases answers
      exact iff_of_true rfl trivial
  | authUrl => exact iff_of_true rfl trivial
  | error => exact iff_of_true rfl trivial

end ResponseResult

/-- Requests are read back from their method's name and their parameters, and
results from their text unless that is a free text equal to a marker. -/
theorem nostrConnect_readBack (codec : HexCodec externals) :
    (∀ request : NostrConnectRequest,
      (∀ unsigned, request = .signEvent unsigned → serde.ReadsUnsigned externals unsigned) →
      (NostrConnectMethod.fromStr request.method.toString).bind (fun method =>
        NostrConnectRequest.fromMessage externals serde method (request.params externals)) =
          .ok request.canonical) ∧
    ∀ (method : NostrConnectMethod) (result : ResponseResult), result.Answers method →
      (∀ event, result = .signEvent event → serde.ReadsEvent externals event) →
      (ResponseResult.parse externals serde method (result.toString externals) =
        .ok result.canonical ↔ result.Unambiguous) := by
  refine ⟨fun request reads => ?_, fun method result answers reads =>
    ResponseResult.parse_toString_iff codec answers reads⟩
  rw [NostrConnectMethod.fromStr_toString]
  exact NostrConnectRequest.fromMessage_params codec reads

def sampleNote : UnsignedEvent where
  id := none
  pubkey := .replicate 32 1
  createdAt := 1700000000
  kind := .fromU16 1
  tags := []
  content := "hello"

def sampleSigned : Event where
  id := .replicate 32 2
  pubkey := .replicate 32 1
  createdAt := 1700000000
  kind := .fromU16 1
  tags := []
  content := "hello"
  sig := .replicate 64 3

/-- Reads the one event, unsigned or signed. -/
def sampleSerde : EventSerde where
  eventFromJson text :=
    if text = sampleSigned.asJson hexExternals then .ok sampleSigned else .error .invalidRequest
  unsignedFromJson text :=
    if text = sampleNote.asJson hexExternals then .ok sampleNote else .error .invalidRequest

/-- A request to sign, its answer, and a decrypted text. -/
theorem nostrConnect_readBack_sign :
    (NostrConnectMethod.fromStr "sign_event").bind (fun method =>
      NostrConnectRequest.fromMessage hexExternals sampleSerde method
        [sampleNote.asJson hexExternals]) = .ok (.signEvent sampleNote) ∧
    ResponseResult.parse hexExternals sampleSerde .signEvent
      (sampleSigned.asJson hexExternals) = .ok (.signEvent sampleSigned) ∧
    ResponseResult.parse hexExternals sampleSerde .nip44Decrypt "hello" =
      .ok (.nip44Decrypt "hello") := by
  obtain ⟨requests, results⟩ :=
    @nostrConnect_readBack hexExternals sampleSerde hexExternals_hexCodec
  refine ⟨requests (.signEvent sampleNote) fun unsigned same => ?_,
    (results .signEvent (.signEvent sampleSigned) rfl fun event same => ?_).mpr trivial,
    (results .nip44Decrypt (.nip44Decrypt "hello") rfl nofun).mpr ⟨by decide, by decide⟩⟩
  · cases same
    have same : sampleNote.canonical = sampleNote := by simp [UnsignedEvent.canonical, sampleNote]
    simp only [EventSerde.ReadsUnsigned, same, sampleSerde, if_true]
  · cases same
    have same : sampleSigned.canonical = sampleSigned := by simp [Event.canonical, sampleSigned]
    simp only [EventSerde.ReadsEvent, same, sampleSerde, if_true]

/-- A plaintext that says "error", and a connect secret that says "ack". -/
theorem nostrConnect_misread :
    ResponseResult.parse hexExternals sampleSerde .nip44Decrypt
      (ResponseResult.toString hexExternals (.nip44Decrypt "error")) = .ok .error ∧
    ResponseResult.parse hexExternals sampleSerde .connect
      (ResponseResult.toString hexExternals (.connectSecret "ack")) = .ok .ack ∧
    ¬ ∀ (method : NostrConnectMethod) (result : ResponseResult), result.Answers method →
      ResponseResult.parse hexExternals sampleSerde method
        (result.toString hexExternals) = .ok result := by
  refine ⟨rfl, rfl, fun reads => ?_⟩
  have read := reads .nip44Decrypt (.nip44Decrypt "error") rfl
  cases read

end RustNostr
