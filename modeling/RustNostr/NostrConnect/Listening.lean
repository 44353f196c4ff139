import Mathlib
import RustNostr.Library.FirstMatch
import RustNostr.NostrConnect.Client

/-!
# Whom the Nostr Connect client listens to

Anyone can publish events of the kind for Nostr Connect that mention the client. Which of
them end the wait for a response, and which make their author the remote signer?
-/

set_option autoImplicit false

namespace RustNostr.NostrConnectClient

open Library

variable (calls : Calls)

def events (notifications : List ClientNotification) : List Event :=
  notifications.filterMap ClientNotification.event?

/-! ## The wait for a response -/

section Waiting

variable (hasHandler : Bool) (method : NostrConnectMethod) (reqId : String)

def stopOf (event : Event) : Option (Event × Except ClientError ResponseResult) :=
  match react calls hasHandler method reqId event with
  | .stop outcome => some (event, outcome)
  | .goOn _ => none

theorem ended_awaitResponse (notifications : List ClientNotification) :
    (awaitResponse calls hasHandler method reqId notifications).ended =
      (events notifications).findSome? (stopOf calls hasHandler method reqId) := by
  induction notifications with
  | nil => rfl
  | cons notification rest ih =>
      cases notification with
      | event relayUrl subscriptionId event =>
          have first : events (.event relayUrl subscriptionId event :: rest) = event :: events rest := rfl
          rw [awaitResponse, first, List.findSome?_cons, stopOf]
          cases react calls hasHandler method reqId event with
          | stop outcome => rfl
          | goOn authUrl => exact ih
      | message relayUrl message => exact ih
      | shutdown => exact ih

/-- The event is the remote signer's response to the request, with this outcome. -/
structure Answers (remoteSigner : PublicKey) (event : Event) (outcome : Except ClientError ResponseResult) :
    Prop where
  kind : event.kind.asU16 = nostrConnectKind
  author : event.pubkey = remoteSigner
  response : ∃ result error response, openMessage calls event = .ok (.response reqId result error) ∧
    NostrConnectResponse.parse calls.externals calls.serde method result error = .ok response ∧
    response.isAuthUrl = false ∧ outcome = outcomeOf response

/-- The event is of another kind, or it can be decrypted and parsed and is no response to
the request but one that asks for a visit to a URL. -/
def Harmless (event : Event) : Prop :=
  event.kind.asU16 = nostrConnectKind → ∃ message, openMessage calls event = .ok message ∧
    (message.id = reqId → message.isResponse = true →
      ∃ response, message.toResponse calls.externals calls.serde method = .ok response ∧
        response.isAuthUrl = true)

variable {calls hasHandler method reqId}

theorem stopOf_of_answers {remoteSigner : PublicKey} {event : Event}
    {outcome : Except ClientError ResponseResult}
    (answers : Answers calls method reqId remoteSigner event outcome) :
    stopOf calls hasHandler method reqId event = some (event, outcome) := by
  obtain ⟨result, error, response, opened, parsed, unmarked, rfl⟩ := answers.response
  have own : reqId = (NostrConnectMessage.response reqId result error).id ∧
      (NostrConnectMessage.response reqId result error).isResponse = true := ⟨rfl, rfl⟩
  have read : (NostrConnectMessage.response reqId result error).toResponse calls.externals calls.serde
      method = .ok response := parsed
  have reaction : react calls hasHandler method reqId event = .stop (outcomeOf response) := by
    simp only [react, answers.kind, ne_eq, not_true, if_false, opened, reactToMessage, if_pos own, read,
      reactToResponse, unmarked, Bool.false_eq_true]
  rw [stopOf, reaction]

theorem stopOf_eq_none_iff {event : Event} :
    stopOf calls hasHandler method reqId event = none ↔ Harmless calls method reqId event := by
  unfold stopOf react Harmless
  by_cases kind : event.kind.asU16 = nostrConnectKind
  · cases opened : openMessage calls event with
    | error error => simp [kind]
    | ok message =>
        by_cases own : reqId = message.id ∧ message.isResponse = true
        · cases read : message.toResponse calls.externals calls.serde method with
          | error error => simp [kind, reactToMessage, own.1, own.2, read]
          | ok response =>
              by_cases marked : response.isAuthUrl = true
              · simp [kind, reactToMessage, own.1, own.2, read, reactToResponse, marked]
              · simp [kind, reactToMessage, own.1, own.2, read, reactToResponse, marked]
        · have foreign : message.id = reqId → message.isResponse = true → False :=
            fun same response => own ⟨same.symm, response⟩
          have free : message.id = reqId → message.isResponse = true →
              ∃ response, message.toResponse calls.externals calls.serde method = .ok response ∧
                response.isAuthUrl = true := fun same response => (foreign same response).elim
          simp only [kind, ne_eq, not_true, if_false, reactToMessage, if_neg own, true_iff]
          exact fun _ => ⟨message, rfl, free⟩
  · simp [kind]

/-- The wait ends only at responses of the remote signer to the request if and only if, up
to the first of them, all other events of the kind can be decrypted and parsed and are no
responses to the request but such with a URL to visit. -/
theorem awaitResponse_listens_iff (remoteSigner : PublicKey) (notifications : List ClientNotification) :
    (∀ event outcome, (awaitResponse calls hasHandler method reqId notifications).ended =
        some (event, outcome) → Answers calls method reqId remoteSigner event outcome) ↔
      ∀ earlier event later, events notifications = earlier ++ event :: later →
        (∀ other ∈ earlier, ¬ ∃ outcome, Answers calls method reqId remoteSigner other outcome) →
        (∃ outcome, Answers calls method reqId remoteSigner event outcome) ∨
          Harmless calls method reqId event := by
  have atFirst := @findSome?_forall_iff _ _ (stopOf calls hasHandler method reqId)
    (fun ended => Answers calls method reqId remoteSigner ended.1 ended.2) (events notifications)
  have good : ∀ event, (∃ ended, stopOf calls hasHandler method reqId event = some ended ∧
      Answers calls method reqId remoteSigner ended.1 ended.2) ↔
        ∃ outcome, Answers calls method reqId remoteSigner event outcome := by
    intro event
    constructor
    · intro ⟨ended, stopped, answers⟩
      unfold stopOf at stopped
      split at stopped
      next outcome _ =>
        cases stopped
        exact ⟨outcome, answers⟩
      next => cases stopped
    · intro ⟨outcome, answers⟩
      exact ⟨(event, outcome), stopOf_of_answers answers, answers⟩
  have stops : ∀ event, (∃ outcome, Answers calls method reqId remoteSigner event outcome) →
      (stopOf calls hasHandler method reqId event).isSome = true := by
    intro event ⟨outcome, answers⟩
    rw [stopOf_of_answers answers]
    rfl
  simp only [good] at atFirst
  rw [stopsAt_iff stops] at atFirst
  simp only [Prod.forall] at atFirst
  rw [ended_awaitResponse, atFirst]
  refine forall_congr' fun earlier => forall_congr' fun event => forall_congr' fun later =>
    imp_congr_right fun _ => imp_congr_right fun _ => ?_
  rw [← @stopOf_eq_none_iff calls hasHandler, or_iff_not_imp_right, ← ne_eq,
    ← Option.isSome_iff_ne_none]

end Waiting

/-! ## The remote signer -/

/-- The event is a connect response with this result and no error. -/
def Carries (event : Event) (text : String) : Prop :=
  event.kind.asU16 = nostrConnectKind ∧
    ∃ id, openMessage calls event = .ok (.response id (some text) none)

variable {calls}

theorem signerEvent_eq (expectedSecret : String) (notifications : List ClientNotification) :
    signerEvent calls expectedSecret notifications =
      (events notifications).find? (accepts calls expectedSecret) := by
  induction notifications with
  | nil => rfl
  | cons notification rest ih =>
      cases notification with
      | event relayUrl subscriptionId event =>
          have first : events (.event relayUrl subscriptionId event :: rest) = event :: events rest := rfl
          rw [signerEvent, first, List.find?_cons, ih]
          cases accepts calls expectedSecret event <;> rfl
      | message relayUrl message => exact ih
      | shutdown => exact ih

theorem parse_connect (expectedSecret text : String) : ∃ result,
    ResponseResult.parse calls.externals calls.serde .connect text = .ok result ∧
      (isValidConnectResponse result (some expectedSecret) = true ↔
        text = "ack" ∨ text = expectedSecret ∧ text ≠ "auth_url" ∧ text ≠ "error") := by
  by_cases authUrl : text = "auth_url"
  · exact ⟨.authUrl, by rw [authUrl]; rfl, by simp [authUrl, isValidConnectResponse]⟩
  by_cases failed : text = "error"
  · exact ⟨.error, by rw [failed]; rfl, by simp [failed, isValidConnectResponse]⟩
  rw [ResponseResult.parse_of_ne authUrl failed, ResponseResult.parseByMethod]
  by_cases acknowledges : text = "ack"
  · exact ⟨.ack, if_pos acknowledges, by simp [acknowledges, isValidConnectResponse]⟩
  · refine ⟨.connectSecret text, if_neg acknowledges, ?_⟩
    simp only [isValidConnectResponse, acknowledges, authUrl, failed, beq_iff_eq, Option.some.injEq, ne_eq,
      not_false_eq_true, and_self, and_true, false_or]
    exact eq_comm

theorem acceptsMessage_iff {expectedSecret : String} {message : NostrConnectMessage} :
    acceptsMessage calls expectedSecret message = true ↔
      ∃ id text, message = .response id (some text) none ∧
        (text = "ack" ∨ text = expectedSecret ∧ text ≠ "auth_url" ∧ text ≠ "error") := by
  cases message with
  | request id method params => simp [acceptsMessage, NostrConnectMessage.toResponse]
  | response id result error =>
      cases result with
      | none => simp [acceptsMessage, NostrConnectMessage.toResponse, NostrConnectResponse.parse]
      | some text =>
          obtain ⟨result, parsed, valid⟩ := @parse_connect calls expectedSecret text
          simp only [acceptsMessage, NostrConnectMessage.toResponse, NostrConnectResponse.parse, parsed, bind,
            Except.bind]
          cases error with
          | none => simp [valid]
          | some error => simp

theorem accepts_iff {expectedSecret : String} {event : Event} :
    accepts calls expectedSecret event = true ↔ Carries calls event "ack" ∨
      Carries calls event expectedSecret ∧ expectedSecret ≠ "auth_url" ∧ expectedSecret ≠ "error" := by
  unfold accepts Carries
  rw [Bool.and_eq_true, beq_iff_eq]
  cases openMessage calls event with
  | error error => simp
  | ok message =>
      rw [acceptsMessage_iff]
      constructor
      · intro ⟨kind, id, text, same, valid⟩
        subst same
        cases valid with
        | inl acknowledges =>
            subst acknowledges
            exact .inl ⟨kind, id, rfl⟩
        | inr secret =>
            obtain ⟨rfl, unmarked⟩ := secret
            exact .inr ⟨⟨kind, id, rfl⟩, unmarked⟩
      · intro valid
        cases valid with
        | inl acknowledges =>
            obtain ⟨kind, id, same⟩ := acknowledges
            cases same
            exact ⟨kind, id, "ack", rfl, .inl rfl⟩
        | inr secret =>
            obtain ⟨⟨kind, id, same⟩, unmarked⟩ := secret
            cases same
            exact ⟨kind, id, expectedSecret, rfl, .inr ⟨rfl, unmarked⟩⟩

/-- The accepted key is the author of a response with the secret if and only if every
acknowledgement comes after such a response, or is itself the secret. -/
theorem getRemoteSignerPublicKey_iff (expectedSecret : String) (elapsed : Bool)
    (notifications : List ClientNotification) :
    (∀ publicKey, getRemoteSignerPublicKey calls expectedSecret elapsed notifications = .ok publicKey →
        ∃ event, signerEvent calls expectedSecret notifications = some event ∧
          event.pubkey = publicKey ∧ Carries calls event expectedSecret) ↔
      ∀ earlier event later, events notifications = earlier ++ event :: later →
        Carries calls event "ack" → expectedSecret = "ack" ∨
          ∃ other ∈ earlier, Carries calls other expectedSecret ∧
            expectedSecret ≠ "auth_url" ∧ expectedSecret ≠ "error" := by
  have onEvents : (∀ publicKey,
      getRemoteSignerPublicKey calls expectedSecret elapsed notifications = .ok publicKey →
        ∃ event, signerEvent calls expectedSecret notifications = some event ∧
          event.pubkey = publicKey ∧ Carries calls event expectedSecret) ↔
      ∀ event, (events notifications).find? (accepts calls expectedSecret) = some event →
        accepts calls expectedSecret event = true ∧ Carries calls event expectedSecret := by
    rw [← signerEvent_eq, getRemoteSignerPublicKey]
    cases found : signerEvent calls expectedSecret notifications with
    | none => simp
    | some event =>
        rw [signerEvent_eq] at found
        simp [List.find?_some found]
  rw [onEvents, find?_forall_iff, stopsAt_iff fun event good => good.1]
  constructor
  · intro beforeGood earlier event later split acknowledges
    by_cases own : expectedSecret = "ack"
    · exact .inl own
    · apply Or.inr
      by_contra none
      have here : accepts calls expectedSecret event = true := accepts_iff.mpr (.inl acknowledges)
      have noneGood : ∀ other ∈ earlier,
          ¬ (accepts calls expectedSecret other = true ∧ Carries calls other expectedSecret) := by
        intro other member ⟨accepted, carries⟩
        cases accepts_iff.mp accepted with
        | inl acknowledged =>
            obtain ⟨_, id, opened⟩ := carries
            obtain ⟨_, id', opened'⟩ := acknowledged
            rw [opened] at opened'
            cases opened'
            exact own rfl
        | inr presented => exact none ⟨other, member, presented⟩
      obtain ⟨_, _, id, opened⟩ := beforeGood earlier event later split noneGood here
      obtain ⟨_, id', opened'⟩ := acknowledges
      rw [opened] at opened'
      cases opened'
      exact own rfl
  · intro preceded earlier event later split noneGood here
    refine ⟨here, ?_⟩
    cases accepts_iff.mp here with
    | inr presented => exact presented.1
    | inl acknowledges =>
        cases preceded earlier event later split acknowledges with
        | inl own =>
            subst own
            exact acknowledges
        | inr before =>
            obtain ⟨other, member, presented⟩ := before
            exact absurd ⟨accepts_iff.mpr (.inr presented), presented.1⟩ (noneGood other member)

/-! ## Outsiders -/

/-- A response that acknowledges, as `serde_json` writes it. -/
def sampleAck : String :=
  Json.object [("id", Json.string "7"), ("result", Json.string "ack"), ("error", "null")]

/-- Contents are the texts themselves, but for one that cannot be decrypted. -/
def sampleCalls : Calls where
  externals := hexExternals
  serde := sampleSerde
  messageFromJson text := if text = sampleAck then .ok (.response "7" (some "ack") none) else .error .invalidRequest
  decrypt _ content := if content = "garbage" then .error ⟨.malformed, "invalid payload"⟩ else .ok content
  parseUrl _ := none

def outsider : PublicKey := .replicate 32 9

def sampleSigner : PublicKey := .replicate 32 1

def publishedBy (author : PublicKey) (content : String) : ClientNotification :=
  .event ⟨"wss://relay.example"⟩ "subscription" {
    id := .replicate 32 5
    pubkey := author
    createdAt := 1700000000
    kind := .custom nostrConnectKind
    tags := []
    content := content
    sig := .replicate 64 3 }

/-- An outsider ends the wait with a content that nobody can decrypt. -/
theorem awaitResponse_ended_by_outsider :
    ¬ ∀ event outcome, (awaitResponse sampleCalls false .ping "1" [publishedBy outsider "garbage"]).ended =
      some (event, outcome) → Answers sampleCalls .ping "1" sampleSigner event outcome := by
  intro listens
  have author := (listens _ _ rfl).author
  exact absurd author (by decide)

theorem sampleAck_ne : sampleAck ≠ "garbage" := by
  intro same
  have first := congrArg (fun text : String => text.toList.head?) same
  exact absurd first (by decide)

/-- An outsider who acknowledges is taken for the remote signer. -/
theorem getRemoteSignerPublicKey_outsider :
    getRemoteSignerPublicKey sampleCalls "secret" false [publishedBy outsider sampleAck] = .ok outsider ∧
    ¬ ∀ publicKey,
      getRemoteSignerPublicKey sampleCalls "secret" false [publishedBy outsider sampleAck] = .ok publicKey →
        ∃ event, signerEvent sampleCalls "secret" [publishedBy outsider sampleAck] = some event ∧
          event.pubkey = publicKey ∧ Carries sampleCalls event "secret" := by
  have opened : ∀ event : Event, event.content = sampleAck →
      openMessage sampleCalls event = .ok (.response "7" (some "ack") none) := by
    intro event content
    simp [openMessage, sampleCalls, content, sampleAck_ne, bind, Except.bind]
  have accepted : signerEvent sampleCalls "secret" [publishedBy outsider sampleAck] =
      (publishedBy outsider sampleAck).event? := by
    simp [signerEvent, publishedBy, ClientNotification.event?, accepts_iff, Carries, opened, Kind.asU16]
  have taken : getRemoteSignerPublicKey sampleCalls "secret" false [publishedBy outsider sampleAck] =
      .ok outsider := by
    rw [getRemoteSignerPublicKey, accepted]
    rfl
  refine ⟨taken, fun safe => ?_⟩
  obtain ⟨event, found, _, _, id, read⟩ := safe outsider taken
  rw [accepted] at found
  cases found
  rw [opened _ rfl] at read
  simp at read

end RustNostr.NostrConnectClient
