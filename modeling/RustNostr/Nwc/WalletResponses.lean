import Mathlib
import RustNostr.Nostr.FilterJson
import RustNostr.Nostr.NostrConnect

/-!
# Responses of wallets

How the Wallet Connect client waits for the response to a request (`nwc/src/lib.rs`) and
what it checks of it (`nostr/src/nips/nip47.rs`). The event is bound to the request only by
the filter that the relay is asked with.
-/

set_option autoImplicit false

namespace RustNostr

open Library

/-- `Filter::event` -/
def Filter.event (externals : Externals) (filter : Filter) (id : EventId) : Filter :=
  filter.customTag .lowercaseE (externals.hexEncode id.val)

namespace WalletConnect

/-! ## Responses -/

inductive Method where
  | payInvoice
  | payKeysend
  | makeInvoice
  | lookupInvoice
  | listTransactions
  | getBalance
  | getInfo
  | makeHoldInvoice
  | cancelHoldInvoice
  | settleHoldInvoice
  | pay
  | receive
  | unknown (method : String)

def Method.asStr : Method → String
  | payInvoice => "pay_invoice"
  | payKeysend => "pay_keysend"
  | makeInvoice => "make_invoice"
  | lookupInvoice => "lookup_invoice"
  | listTransactions => "list_transactions"
  | getBalance => "get_balance"
  | getInfo => "get_info"
  | makeHoldInvoice => "make_hold_invoice"
  | cancelHoldInvoice => "cancel_hold_invoice"
  | settleHoldInvoice => "settle_hold_invoice"
  | pay => "pay"
  | receive => "receive"
  | unknown method => method

inductive ErrorCode where
  | rateLimited
  | notImplemented
  | insufficientBalance
  | paymentFailed
  | notFound
  | quotaExceeded
  | restricted
  | unauthorized
  | badRequest
  | unsupportedPaymentInstruction
  | unsupportedNetwork
  | feeLimitExceeded
  | internal
  | other

structure Nip47Error where
  code : ErrorCode
  message : String

/-- `ResponseTemplate` -/
structure ResponseTemplate where
  resultType : Method
  error : Option Nip47Error
  result : Option JsonValue

/-- The results of the methods are of a type of their own. -/
structure Response (Result : Type) where
  resultType : Method
  error : Option Nip47Error
  result : Option Result

/-- What is called to read a response: the decryption of a content by its author with the
secret of the URI and the cipher in use, and the deserializers. -/
structure Calls (Result : Type) where
  externals : Externals
  crypto : Crypto
  decrypt : PublicKey → String → Except Error String
  valueFromJson : String → Except Error JsonValue
  templateFromValue : JsonValue → Except Error ResponseTemplate
  resultFromValue : Method → JsonValue → Except Error Result

/-- `Value::get` of a key -/
def get (name : String) : JsonValue → Option JsonValue
  | .object entries => entries.lookup name
  | _ => none

variable {Result : Type} (calls : Calls Result)

def resultOf (method : Method) (result : JsonValue) : Except Error Result :=
  match method with
  | .listTransactions =>
      match get "transactions" result with
      | some transactions => calls.resultFromValue .listTransactions transactions
      | none => .error .unexpectedResult
  | .unknown name => .error (.unsupportedMethod name)
  | method => calls.resultFromValue method result

namespace Response

def fromValue (value : JsonValue) : Except Error (Response Result) := do
  let template ← calls.templateFromValue value
  match template.result with
  | some result => do
      let result ← resultOf calls template.resultType result
      .ok ⟨template.resultType, template.error, some result⟩
  | none => .ok ⟨template.resultType, template.error, none⟩

end Response

def walletConnectResponseKind : UInt16 := 23195

def validateWalletEvent (wallet : PublicKey) (event : Event) (allowedKinds : List UInt16) :
    Except Error Unit :=
  if event.pubkey ≠ wallet then .error ⟨.invalid, "wallet event author mismatch"⟩
  else if ¬ allowedKinds.contains event.kind.asU16 then .error ⟨.invalid, "invalid wallet event kind"⟩
  else if ¬ event.verifyId calls.externals calls.crypto then .error ⟨.invalid, "invalid wallet event ID"⟩
  else if ¬ event.verifySignature calls.crypto then
    .error ⟨.invalid, "invalid wallet event signature"⟩
  else .ok ()

def Response.fromEvent (wallet : PublicKey) (event : Event) : Except Error (Response Result) := do
  validateWalletEvent calls wallet event [walletConnectResponseKind]
  let text ← calls.decrypt event.pubkey event.content
  let value ← calls.valueFromJson text
  Response.fromValue calls value

/-! ## The client -/

inductive NwcError where
  | protocol (error : Error)
  | sdk
  | noResponse

/-- The filter that the relays are asked with. -/
def responseFilter (wallet : PublicKey) (request : Event) : Filter :=
  ((Filter.new.author wallet).kind (.fromU16 walletConnectResponseKind)).event calls.externals request.id

/-- `sent` is the event of the request, or why it was not sent; `stream` is what the relays
deliver for the filter until the timeout. -/
def sendRequest (wallet : PublicKey) (sent : Except NwcError Event)
    (stream : List (RelayUrl × Except NwcError Event)) : Except NwcError (Response Result) := do
  let _ ← sent
  match stream.head? with
  | none => .error .noResponse
  | some (_, received) => do
      let received ← received
      (Response.fromEvent calls wallet received).mapError .protocol

/-! ## What a response answers -/

/-- One of the event's `e` tags is the ID. -/
def HasETag (externals : Externals) (event : Event) (id : EventId) : Prop :=
  ∃ tag ∈ event.tags, tag.singleLetterTag = some .lowercaseE ∧
    tag.content = some (externals.hexEncode id.val)

/-- The response was read from a wallet's event for the request. -/
structure AnsweredBy (wallet : PublicKey) (request : Event) (method : Method) (received : Event)
    (response : Response Result) : Prop where
  read : Response.fromEvent calls wallet received = .ok response
  author : received.pubkey = wallet
  request : HasETag calls.externals received request.id
  method : response.resultType.asStr = method.asStr

variable {calls}

theorem validateWalletEvent_ok {wallet : PublicKey} {event : Event} {kinds : List UInt16}
    (valid : validateWalletEvent calls wallet event kinds = .ok ()) :
    event.pubkey = wallet ∧ event.kind.asU16 ∈ kinds ∧ event.Verified calls.externals calls.crypto := by
  unfold validateWalletEvent at valid
  split at valid
  next => cases valid
  next author =>
    split at valid
    next => cases valid
    next kind =>
      split at valid
      next => cases valid
      next id =>
        split at valid
        next => cases valid
        next signature =>
          exact ⟨of_not_not author, List.contains_iff_mem.mp (of_not_not kind), of_not_not id,
            of_not_not signature⟩

theorem validated_of_fromEvent {wallet : PublicKey} {event : Event} {response : Response Result}
    (read : Response.fromEvent calls wallet event = .ok response) :
    validateWalletEvent calls wallet event [walletConnectResponseKind] = .ok () := by
  unfold Response.fromEvent at read
  cases valid : validateWalletEvent calls wallet event [walletConnectResponseKind] with
  | ok => rfl
  | error error =>
      rw [valid] at read
      cases read

/-- An event that is valid otherwise matches the filter by its `e` tag. -/
theorem matchEvent_responseFilter_iff {wallet : PublicKey} {request received : Event}
    (author : received.pubkey = wallet) (kind : received.kind.asU16 = walletConnectResponseKind) :
    (responseFilter calls wallet request).matchEvent received {} = true ↔
      HasETag calls.externals received request.id := by
  let filter := responseFilter calls wallet request
  have authors : filter.authors = some (SortedSet.insert .empty wallet) := rfl
  have kinds : filter.kinds = some (SortedSet.insert .empty walletConnectResponseKind) := rfl
  have tags : filter.genericTags.entries =
      [(.lowercaseE, SortedSet.insert .empty (calls.externals.hexEncode request.id.val))] := rfl
  have authored : filter.authorsMatch received = true := by
    have elems : (SortedSet.insert .empty wallet).elems = [wallet] := rfl
    rw [Filter.authorsMatch, authors, Filter.setMatch, author, elems]
    simp
  have ofKind : filter.kindMatch received = true := by
    have elems : (SortedSet.insert .empty walletConnectResponseKind).elems = [walletConnectResponseKind] := rfl
    rw [Filter.kindMatch, kinds, Filter.setMatch, kind, elems]
    simp
  have tagged : filter.tagMatch received = true ↔ HasETag calls.externals received request.id := by
    have elems : (SortedSet.insert .empty (calls.externals.hexEncode request.id.val)).elems =
        [calls.externals.hexEncode request.id.val] := rfl
    rw [Filter.tagMatch_iff]
    simp only [SortedTable.get?_eq_some, tags, List.mem_singleton, Prod.mk.injEq, HasETag]
    constructor
    · intro each
      obtain ⟨value, member, found⟩ := each .lowercaseE _ ⟨rfl, rfl⟩
      rw [elems, List.mem_singleton] at member
      obtain ⟨tag, listed, index⟩ := List.mem_filterMap.mp found
      obtain ⟨name, letter, index⟩ := Option.bind_eq_some_iff.mp index
      obtain ⟨content, text, same⟩ := Option.map_eq_some_iff.mp index
      cases same
      subst member
      exact ⟨tag, listed, letter, text⟩
    · intro carried name values named
      obtain ⟨tag, listed, letter, text⟩ := carried
      obtain ⟨sameName, sameValues⟩ := named
      subst sameName sameValues
      refine ⟨calls.externals.hexEncode request.id.val, by rw [elems]; exact List.mem_singleton.mpr rfl, ?_⟩
      exact List.mem_filterMap.mpr ⟨tag, listed, by rw [letter, text]; rfl⟩
  have wants : filter.matchEvent received {} =
      (filter.authorsMatch received && filter.kindMatch received && filter.tagMatch received) := by
    simp [filter, Filter.matchEvent, Filter.idsMatch, Filter.searchMatch, Filter.setMatch, responseFilter,
      Filter.event, Filter.customTag, Filter.kind, Filter.author, Filter.new]
  change filter.matchEvent received {} = true ↔ _
  rw [wants, authored, ofKind, Bool.true_and, Bool.true_and, tagged]

theorem sendRequest_ok_iff {wallet : PublicKey} {request : Event}
    {stream : List (RelayUrl × Except NwcError Event)} {response : Response Result} :
    sendRequest calls wallet (.ok request) stream = .ok response ↔
      ∃ relay received rest, stream = (relay, .ok received) :: rest ∧
        Response.fromEvent calls wallet received = .ok response := by
  cases stream with
  | nil => simp [sendRequest, bind, Except.bind]
  | cons first rest =>
      obtain ⟨relay, received⟩ := first
      cases received with
      | error error => simp [sendRequest, bind, Except.bind]
      | ok received =>
          cases read : Response.fromEvent calls wallet received with
          | error error => simp [sendRequest, bind, Except.bind, read, Except.mapError]
          | ok response' => simp [sendRequest, bind, Except.bind, read, Except.mapError]

/-- A response that is returned answers its request if and only if the first event of the
stream, where it can be read as a response of the wallet, matches the filter and has the
method of the request. -/
theorem sendRequest_answers_iff (wallet : PublicKey) (request : Event) (method : Method)
    (stream : List (RelayUrl × Except NwcError Event)) :
    (∀ response, sendRequest calls wallet (.ok request) stream = .ok response →
        ∃ relay received rest, stream = (relay, .ok received) :: rest ∧
          AnsweredBy calls wallet request method received response) ↔
      ∀ relay received rest, stream = (relay, .ok received) :: rest →
        ∀ response, Response.fromEvent calls wallet received = .ok response →
          (responseFilter calls wallet request).matchEvent received {} = true ∧
            response.resultType.asStr = method.asStr := by
  constructor
  · intro answers relay received rest first response read
    obtain ⟨_, _, _, same, answered⟩ :=
      answers response (sendRequest_ok_iff.mpr ⟨relay, received, rest, first, read⟩)
    rw [first] at same
    cases same
    have kind := (validateWalletEvent_ok (validated_of_fromEvent read)).2.1
    exact ⟨(matchEvent_responseFilter_iff answered.author (List.mem_singleton.mp kind)).mpr answered.request,
      answered.method⟩
  · intro delivered response returned
    obtain ⟨relay, received, rest, first, read⟩ := sendRequest_ok_iff.mp returned
    obtain ⟨matched, sameMethod⟩ := delivered relay received rest first response read
    obtain ⟨author, kind, _⟩ := validateWalletEvent_ok (validated_of_fromEvent read)
    exact ⟨relay, received, rest, first, {
      read := read
      author := author
      request := (matchEvent_responseFilter_iff author (List.mem_singleton.mp kind)).mp matched
      method := sameMethod }⟩

/-! ## A response that is replayed -/

/-- The content of a response without a result. -/
def sampleResponse : String :=
  Json.object [("result_type", Json.string "get_balance"), ("error", "null"), ("result", "null")]

/-- Reads the one response. -/
def sampleCalls : Calls Unit where
  externals := hexExternals
  crypto := { sha256 := fun _ => .replicate 32 2, verifySchnorr := fun _ _ _ => true }
  decrypt _ content := .ok content
  valueFromJson text :=
    if text = sampleResponse then
      .ok (.object [("result_type", .string "get_balance"), ("error", .null), ("result", .null)])
    else .error .invalidRequest
  templateFromValue
    | .object _ => .ok ⟨.getBalance, none, none⟩
    | _ => .error .invalidRequest
  resultFromValue _ _ := .error .invalidRequest

def sampleWallet : PublicKey := .replicate 32 1

def requestWithId (id : EventId) : Event where
  id := id
  pubkey := .replicate 32 4
  createdAt := 1700000000
  kind := .fromU16 23194
  tags := []
  content := ""
  sig := .replicate 64 3

/-- The wallet's response to the request with the ID of sevens. -/
def staleEvent : Event where
  id := .replicate 32 2
  pubkey := sampleWallet
  createdAt := 1700000000
  kind := .fromU16 walletConnectResponseKind
  tags := [⟨["e", hexExternals.hexEncode (requestWithId (.replicate 32 7)).id.val], List.cons_ne_nil _ _⟩]
  content := sampleResponse
  sig := .replicate 64 3

/-- A relay that replays the response to an earlier request answers the next one with it. -/
theorem sendRequest_stale :
    ¬ ∀ response, sendRequest sampleCalls sampleWallet (.ok (requestWithId (.replicate 32 8)))
        [(⟨"wss://relay.example"⟩, .ok staleEvent)] = .ok response →
      ∃ relay received rest,
        [(⟨"wss://relay.example"⟩, .ok staleEvent)] = ((relay, .ok received) :: rest :
          List (RelayUrl × Except NwcError Event)) ∧
          AnsweredBy sampleCalls sampleWallet (requestWithId (.replicate 32 8)) .getBalance received
            response := by
  intro answers
  have valid : validateWalletEvent sampleCalls sampleWallet staleEvent [walletConnectResponseKind] =
      .ok () := by
    simp [validateWalletEvent, staleEvent, sampleCalls, walletConnectResponseKind, Event.verifyId,
      Event.verifySignature, EventId.compute, Kind.asU16, Kind.fromU16]
  have read : Response.fromEvent sampleCalls sampleWallet staleEvent =
      .ok ⟨.getBalance, none, none⟩ := by
    rw [Response.fromEvent, valid]
    simp [sampleCalls, staleEvent, Response.fromValue, bind, Except.bind]
  obtain ⟨_, _, _, same, answered⟩ := answers _ (sendRequest_ok_iff.mpr ⟨_, _, _, rfl, read⟩)
  cases same
  obtain ⟨tag, listed, _, text⟩ := answered.request
  rw [staleEvent, List.mem_singleton] at listed
  subst listed
  exact absurd text (by decide +kernel)

end WalletConnect

end RustNostr
