import Mathlib
import RustNostr.Library.Fallible
import RustNostr.NostrBrowserSignerProxy.SignerProxy
import RustNostr.NostrConnect.Listening

/-!
# Events from remote signers

What the two clients of remote signers check of a signed event before they return it. The
Nostr Connect client checks nothing; the browser proxy checks the ID and the signature,
and neither compares the event with the one it was asked to sign.
-/

set_option autoImplicit false

namespace RustNostr

open Library

/-- The event has the fields of the unsigned one. Kinds are compared by their numbers. -/
structure SameFields (unsigned : UnsignedEvent) (event : Event) : Prop where
  pubkey : event.pubkey = unsigned.pubkey
  createdAt : event.createdAt = unsigned.createdAt
  kind : event.kind.asU16 = unsigned.kind.asU16
  tags : event.tags = unsigned.tags
  content : event.content = unsigned.content

/-- What a caller asks for. -/
structure Signs (externals : Externals) (crypto : Crypto) (unsigned : UnsignedEvent) (event : Event) :
    Prop where
  verified : event.Verified externals crypto
  fields : SameFields unsigned event

namespace NostrConnectClient

variable {calls : Calls} {hasHandler : Bool} {reqId : String}

/-- The event is a response to the request with this text as its result. -/
def Replies (calls : Calls) (reqId : String) (event : Event) (text : String) : Prop :=
  event.kind.asU16 = nostrConnectKind ∧
    openMessage calls event = .ok (.response reqId (some text) none)

theorem parse_signEvent_iff {text : String} {signed : Event} :
    ResponseResult.parse calls.externals calls.serde .signEvent text = .ok (.signEvent signed) ↔
      text ≠ "auth_url" ∧ text ≠ "error" ∧ calls.serde.eventFromJson text = .ok signed := by
  unfold ResponseResult.parse ResponseResult.parseByMethod
  split
  next marker => simp [marker]
  next notAuthUrl =>
    split
    next marker => simp [marker]
    next notError =>
      cases calls.serde.eventFromJson text <;> simp [bind, Except.bind, notAuthUrl, notError]

/-- A result comes from the text of a response to the request. -/
theorem replies_of_react {method : NostrConnectMethod} {event : Event} {result : ResponseResult}
    (stopped : react calls hasHandler method reqId event = .stop (.ok result)) :
    ∃ text, Replies calls reqId event text ∧
      ResponseResult.parse calls.externals calls.serde method text = .ok result := by
  unfold react at stopped
  split at stopped
  next => cases stopped
  next kind =>
    cases opened : openMessage calls event with
    | error error =>
        rw [opened] at stopped
        cases stopped
    | ok message =>
        rw [opened] at stopped
        dsimp only [reactToMessage] at stopped
        split at stopped
        next own =>
          cases message with
          | request id requested params => cases own.2
          | response id text error =>
              obtain ⟨rfl, _⟩ := own
              cases text with
              | none =>
                  simp only [NostrConnectMessage.toResponse, NostrConnectResponse.parse, reactToResponse,
                    NostrConnectResponse.isAuthUrl, outcomeOf] at stopped
                  cases error <;> simp at stopped
              | some text =>
                  cases parsed : ResponseResult.parse calls.externals calls.serde method text with
                  | error failed =>
                      simp [NostrConnectMessage.toResponse, NostrConnectResponse.parse, parsed, bind,
                        Except.bind] at stopped
                  | ok read =>
                      simp only [NostrConnectMessage.toResponse, NostrConnectResponse.parse, parsed, bind,
                        Except.bind, reactToResponse, outcomeOf] at stopped
                      split at stopped
                      next => cases stopped
                      next =>
                        cases error with
                        | some error => simp at stopped
                        | none =>
                            cases stopped
                            exact ⟨text, ⟨of_not_not kind, opened⟩, parsed⟩
        next => cases stopped

theorem stopOf_signEvent_iff {event event' : Event} {signed : Event} :
    stopOf calls hasHandler .signEvent reqId event = some (event', .ok (.signEvent signed)) ↔
      event = event' ∧ ∃ text, Replies calls reqId event text ∧ text ≠ "auth_url" ∧ text ≠ "error" ∧
        calls.serde.eventFromJson text = .ok signed := by
  constructor
  · intro stopped
    unfold stopOf at stopped
    split at stopped
    next outcome reaction =>
      cases stopped
      obtain ⟨text, replies, parsed⟩ := replies_of_react reaction
      exact ⟨rfl, text, replies, parse_signEvent_iff.mp parsed⟩
    next => cases stopped
  · intro replied
    obtain ⟨rfl, text, ⟨kind, opened⟩, read⟩ := replied
    have parsed := parse_signEvent_iff.mpr read
    have answers : Answers calls .signEvent reqId event.pubkey event (.ok (.signEvent signed)) := {
      kind := kind
      author := rfl
      response := ⟨some text, none, ⟨some (.signEvent signed), none⟩, opened, by
        simp [NostrConnectResponse.parse, parsed, bind, Except.bind], rfl, rfl⟩ }
    exact stopOf_of_answers answers

variable {send : PublicKey → NostrConnectMessage → Except ClientError Unit} {remoteSigner : PublicKey}
  {notifications : List ClientNotification} {unsigned : UnsignedEvent}

/-- The request is sent, and the first event that is not harmless is a response that holds
the event. -/
def Receives (calls : Calls) (send : PublicKey → NostrConnectMessage → Except ClientError Unit)
    (reqId : String) (remoteSigner : PublicKey) (notifications : List ClientNotification)
    (unsigned : UnsignedEvent) (signed : Event) : Prop :=
  send remoteSigner (.request reqId .signEvent [unsigned.asJson calls.externals]) = .ok () ∧
    ∃ earlier event later text, events notifications = earlier ++ event :: later ∧
      (∀ other ∈ earlier, Harmless calls .signEvent reqId other) ∧ Replies calls reqId event text ∧
      text ≠ "auth_url" ∧ text ≠ "error" ∧ calls.serde.eventFromJson text = .ok signed

/-- A request is answered when it can be sent and the wait for its response ends. -/
theorem sendRequestWithPk_ok_iff {request : NostrConnectRequest} {result : ResponseResult} :
    sendRequestWithPk calls send hasHandler reqId request remoteSigner notifications = .ok result ↔
      send remoteSigner (.request reqId request.method (request.params calls.externals)) = .ok () ∧
        ∃ event, (awaitResponse calls hasHandler request.method reqId notifications).ended =
          some (event, .ok result) := by
  rw [sendRequestWithPk, bind_ok, Unique.exists_iff]
  refine and_congr_right fun _ => ?_
  cases (awaitResponse calls hasHandler request.method reqId notifications).ended with
  | none => simp
  | some ended =>
      obtain ⟨event, outcome⟩ := ended
      simp

theorem toSignEvent_ok_iff {result : ResponseResult} {signed : Event} :
    result.toSignEvent = .ok signed ↔ result = .signEvent signed := by
  cases result <;> simp [ResponseResult.toSignEvent]

/-- The client returns what it receives. -/
theorem signEvent_ok_iff {signed : Event} :
    signEvent calls send hasHandler reqId remoteSigner notifications unsigned = .ok signed ↔
      Receives calls send reqId remoteSigner notifications unsigned signed := by
  have ended : (∃ event, (awaitResponse calls hasHandler .signEvent reqId notifications).ended =
      some (event, .ok (.signEvent signed))) ↔ ∃ earlier event later text,
        events notifications = earlier ++ event :: later ∧
        (∀ other ∈ earlier, Harmless calls .signEvent reqId other) ∧ Replies calls reqId event text ∧
        text ≠ "auth_url" ∧ text ≠ "error" ∧ calls.serde.eventFromJson text = .ok signed := by
    rw [ended_awaitResponse]
    simp only [List.findSome?_eq_some_iff, stopOf_signEvent_iff, stopOf_eq_none_iff]
    constructor
    · intro ended
      obtain ⟨_, earlier, event, later, split, ⟨_, text, reads⟩, passed⟩ := ended
      exact ⟨earlier, event, later, text, split, passed, reads⟩
    · intro replied
      obtain ⟨earlier, event, later, text, split, passed, reads⟩ := replied
      exact ⟨event, earlier, event, later, split, ⟨rfl, text, reads⟩, passed⟩
  rw [signEvent, bind_ok]
  simp only [sendRequestWithPk_ok_iff, mapError_ok, toSignEvent_ok_iff]
  rw [Receives, ← ended]
  constructor
  · intro returned
    obtain ⟨_, ⟨sent, event, stopped⟩, rfl⟩ := returned
    exact ⟨sent, event, stopped⟩
  · intro received
    obtain ⟨sent, event, stopped⟩ := received
    exact ⟨_, ⟨sent, event, stopped⟩, rfl⟩

end NostrConnectClient

namespace BrowserSignerProxy

theorem toResult_ok_iff {outcome : Outcome} {value : JsonValue} :
    outcome.toResult = .ok value ↔ outcome = .answer (.ok value) := by
  cases outcome with
  | answer reply => cases reply <;> simp [Outcome.toResult]
  | _ => simp [Outcome.toResult]

theorem signEvent_ok_iff {externals : Externals} {crypto : Crypto} {eventFromValue : JsonValue → Option Event}
    {outcome : Outcome} {signed : Event} :
    signEvent externals crypto eventFromValue outcome = .ok signed ↔
      ∃ value, outcome = .answer (.ok value) ∧ eventFromValue value = some signed ∧
        signed.Verified externals crypto := by
  rw [signEvent, bind_ok]
  refine exists_congr fun value => ?_
  rw [toResult_ok_iff]
  refine and_congr_right fun _ => ?_
  cases eventFromValue value with
  | none => simp
  | some event =>
      rw [bind_ok, Unique.exists_iff, mapError_ok]
      simp only [Except.ok.injEq, Option.some.injEq]
      constructor
      · intro returned
        obtain ⟨verified, rfl⟩ := returned
        exact ⟨rfl, Event.verify_ok_iff.mp verified⟩
      · intro read
        obtain ⟨rfl, verified⟩ := read
        exact ⟨Event.verify_ok_iff.mpr verified, rfl⟩

end BrowserSignerProxy

/-- An event that a client returns is the one that was asked for, with a valid ID and
signature, if and only if the one that the remote party answers with is; the ID and the
signature are checked by the proxy alone. -/
theorem remote_signEvent_iff (calls : NostrConnectClient.Calls) (crypto : Crypto)
    (send : PublicKey → NostrConnectMessage → Except NostrConnectClient.ClientError Unit) (hasHandler : Bool)
    (reqId : String) (remoteSigner : PublicKey) (notifications : List ClientNotification)
    (eventFromValue : JsonValue → Option Event) (outcome : BrowserSignerProxy.Outcome)
    (unsigned : UnsignedEvent) :
    ((∀ signed, NostrConnectClient.signEvent calls send hasHandler reqId remoteSigner notifications unsigned =
        .ok signed → Signs calls.externals crypto unsigned signed) ↔
      ∀ signed, NostrConnectClient.Receives calls send reqId remoteSigner notifications unsigned signed →
        signed.Verified calls.externals crypto ∧ SameFields unsigned signed) ∧
    ((∀ signed, BrowserSignerProxy.signEvent calls.externals crypto eventFromValue outcome = .ok signed →
        Signs calls.externals crypto unsigned signed) ↔
      ∀ value signed, outcome = .answer (.ok value) → eventFromValue value = some signed →
        signed.Verified calls.externals crypto → SameFields unsigned signed) := by
  constructor
  · refine forall_congr' fun signed => ?_
    rw [NostrConnectClient.signEvent_ok_iff]
    exact imp_congr_right fun _ => ⟨fun signs => ⟨signs.verified, signs.fields⟩,
      fun both => ⟨both.1, both.2⟩⟩
  · constructor
    · intro signs value signed answer read verified
      exact (signs signed (BrowserSignerProxy.signEvent_ok_iff.mpr ⟨value, answer, read, verified⟩)).fields
    · intro same signed returned
      obtain ⟨value, answer, read, verified⟩ := BrowserSignerProxy.signEvent_ok_iff.mp returned
      exact ⟨verified, same value signed answer read verified⟩

namespace NostrConnectClient

/-- A response that holds the signed sample event. -/
def sampleReply : String :=
  Json.object [("id", Json.string "1"), ("result", Json.string (sampleSigned.asJson hexExternals)),
    ("error", "null")]

def signingCalls : Calls where
  externals := hexExternals
  serde := sampleSerde
  messageFromJson text :=
    if text = sampleReply then .ok (.response "1" (some (sampleSigned.asJson hexExternals)) none)
    else .error .invalidRequest
  decrypt _ content := .ok content
  parseUrl _ := none

/-- The signed sample as a JSON value. -/
def sampleValue : JsonValue := .object [
  ("id", .string (hexExternals.hexEncode sampleSigned.id.val)),
  ("pubkey", .string (hexExternals.hexEncode sampleSigned.pubkey.val)),
  ("created_at", .number 1700000000), ("kind", .number 1), ("tags", .array []),
  ("content", .string "hello"), ("sig", .string (hexExternals.hexEncode sampleSigned.sig.val))]

/-- Reads the signed sample. -/
def sampleEventFromValue : JsonValue → Option Event
  | .object _ => some sampleSigned
  | _ => none

/-- The note that is to be signed, which the signed sample is not. -/
def farewell : UnsignedEvent := { sampleNote with content := "bye" }

/-- The hash of every event is the ID of the sample. -/
def sampleCrypto : Crypto where
  sha256 _ := sampleSigned.id
  verifySchnorr _ _ _ := true

theorem asJson_ne {marker : String} (other : marker.toList.head? ≠ some (Char.ofNat 123)) :
    sampleSigned.asJson hexExternals ≠ marker := by
  intro same
  have brace := @Event.head?_asJson hexExternals sampleSigned
  rw [same] at brace
  exact other brace

theorem sampleSigned_ne_farewell (crypto : Crypto) : ¬ Signs hexExternals crypto farewell sampleSigned := by
  intro signs
  have same : "hello" = "bye" := signs.fields.content
  exact absurd same (by decide)

theorem openMessage_sampleReply {event : Event} (holds : event.content = sampleReply) :
    openMessage signingCalls event =
      .ok (.response "1" (some (sampleSigned.asJson hexExternals)) none) := by
  rw [openMessage, bind_ok]
  exact ⟨event.content, rfl, if_pos holds⟩

end NostrConnectClient

open NostrConnectClient in
/-- Asked to sign one note, both clients return another one, which is valid itself. -/
theorem remote_signEvent_other :
    (¬ ∀ signed, NostrConnectClient.signEvent signingCalls (fun _ _ => .ok ()) false "1" sampleSigner
      [publishedBy sampleSigner sampleReply] farewell = .ok signed →
        Signs hexExternals sampleCrypto farewell signed) ∧
    ¬ ∀ signed, BrowserSignerProxy.signEvent hexExternals sampleCrypto sampleEventFromValue
      (.answer (.ok sampleValue)) = .ok signed → Signs hexExternals sampleCrypto farewell signed := by
  constructor
  · intro signs
    have received : Receives signingCalls (fun _ _ => .ok ()) "1" sampleSigner
        [publishedBy sampleSigner sampleReply] farewell sampleSigned := by
      refine ⟨rfl, [], _, [], sampleSigned.asJson hexExternals, rfl, nofun,
        ⟨rfl, openMessage_sampleReply rfl⟩, ?_, ?_, ?_⟩
      · exact asJson_ne (by decide)
      · exact asJson_ne (by decide)
      · simp [signingCalls, sampleSerde]
    exact sampleSigned_ne_farewell _ (signs sampleSigned (signEvent_ok_iff.mpr received))
  · intro signs
    have returned : BrowserSignerProxy.signEvent hexExternals sampleCrypto sampleEventFromValue
        (.answer (.ok sampleValue)) = .ok sampleSigned :=
      BrowserSignerProxy.signEvent_ok_iff.mpr ⟨sampleValue, rfl, rfl, by simp [Event.Verified, Event.verifyId,
        Event.verifySignature, EventId.compute, sampleCrypto]⟩
    exact sampleSigned_ne_farewell _ (signs sampleSigned returned)

end RustNostr
