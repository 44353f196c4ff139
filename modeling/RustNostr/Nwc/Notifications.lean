import Mathlib
import RustNostr.NostrConnect.Client
import RustNostr.Nwc.WalletResponses

/-!
# Notifications of wallets

What the Wallet Connect client subscribes to and the stream that it makes of the
notifications of its client (`nwc/src/lib.rs`), and how a notification is read from its
event (`nostr/src/nips/nip47.rs`).
-/

set_option autoImplicit false

namespace RustNostr.WalletConnect

open Library

inductive NotificationType where
  | paymentReceived
  | paymentSent
  | holdInvoiceAccepted
  deriving DecidableEq

structure NotificationTemplate where
  notificationType : NotificationType
  notification : JsonValue

inductive NotificationResult (Payment Hold : Type) where
  | paymentReceived (payment : Payment)
  | paymentSent (payment : Payment)
  | holdInvoiceAccepted (hold : Hold)

structure Notification (Payment Hold : Type) where
  notificationType : NotificationType
  notification : NotificationResult Payment Hold

/-- What is called to read a notification: the decryptions with the secret of the URI, the
deserializers, and `serde::de::Error::custom`. -/
structure NotificationCalls (Payment Hold : Type) where
  nip04Decrypt : PublicKey → String → Except Error String
  nip44Decrypt : PublicKey → String → Except Error String
  templateFromValue : JsonValue → Except Error NotificationTemplate
  paymentFromValue : JsonValue → Except Error Payment
  holdFromValue : JsonValue → Except Error Hold
  custom : Error → Error

def walletConnectNotificationKind : UInt16 := 23196

def walletConnectNotificationNip44V2Kind : UInt16 := 23197

/-- The kinds that the client subscribes to and that a notification may have. -/
def notificationKinds : List UInt16 := [walletConnectNotificationKind, walletConnectNotificationNip44V2Kind]

variable {Result Payment Hold : Type} (calls : Calls Result) (readers : NotificationCalls Payment Hold)

namespace Notification

def fromValue (value : JsonValue) : Except Error (Notification Payment Hold) := do
  let template ← readers.templateFromValue value
  let result ←
    match template.notificationType with
    | .paymentReceived => .paymentReceived <$> readers.paymentFromValue template.notification
    | .paymentSent => .paymentSent <$> readers.paymentFromValue template.notification
    | .holdInvoiceAccepted => .holdInvoiceAccepted <$> readers.holdFromValue template.notification
  return ⟨template.notificationType, result⟩

def fromJson (text : String) : Except Error (Notification Payment Hold) := do
  let value ← calls.valueFromJson text
  (fromValue readers value).mapError readers.custom

def fromEvent (wallet : PublicKey) (event : Event) : Except Error (Notification Payment Hold) := do
  validateWalletEvent calls wallet event notificationKinds
  let text ←
    if event.kind.asU16 = walletConnectNotificationNip44V2Kind then
      readers.nip44Decrypt event.pubkey event.content
    else readers.nip04Decrypt event.pubkey event.content
  fromJson calls readers text

end Notification

/-! ## The client -/

def notificationsId : SubscriptionId := "nwc-notifications"

/-- The filter that is subscribed to, under `notificationsId`. -/
def notificationFilter (wallet client : PublicKey) (now : Timestamp) : Filter :=
  { (((Filter.new.author wallet).pubkey calls.externals client).kind
      (.fromU16 walletConnectNotificationKind)).kind (.fromU16 walletConnectNotificationNip44V2Kind) with
    since := some now }

/-- What the stream yields for a notification of the client, if anything. -/
def onNotification (wallet : PublicKey) :
    ClientNotification → Option (Except NwcError (Notification Payment Hold))
  | .event _ subscriptionId event =>
      if subscriptionId ≠ notificationsId then none
      else if event.kind.asU16 ≠ walletConnectNotificationKind ∨
          event.kind.asU16 ≠ walletConnectNotificationNip44V2Kind then none
      else some ((Notification.fromEvent calls readers wallet event).mapError .protocol)
  | _ => none

/-- The stream that is made of what the client has notified so far. -/
def notifications (wallet : PublicKey) (notified : List ClientNotification) :
    List (Except NwcError (Notification Payment Hold)) :=
  notified.filterMap (onNotification calls readers wallet)

/-! ## What the stream is for -/

/-- The event that a notification delivers for the subscription, of a kind subscribed to. -/
def subscribedEvent? : ClientNotification → Option Event
  | .event _ subscriptionId event =>
      if subscriptionId = notificationsId ∧ event.kind.asU16 ∈ notificationKinds then some event else none
  | _ => none

/-- One outcome for every event of the subscription, in order. -/
def outcomes (wallet : PublicKey) (notified : List ClientNotification) :
    List (Except NwcError (Notification Payment Hold)) :=
  (notified.filterMap subscribedEvent?).map fun event =>
    (Notification.fromEvent calls readers wallet event).mapError .protocol

variable {calls readers}

theorem kinds_notificationFilter (wallet client : PublicKey) (now : Timestamp) :
    (notificationFilter calls wallet client now).kinds.map SortedSet.elems = some notificationKinds := rfl

/-- No kind is both of the two, so the second check lets no event through. -/
theorem onNotification_eq_none (wallet : PublicKey) (notification : ClientNotification) :
    onNotification calls readers wallet notification = none := by
  cases notification with
  | event relayUrl subscriptionId event =>
      have differs : event.kind.asU16 ≠ walletConnectNotificationKind ∨
          event.kind.asU16 ≠ walletConnectNotificationNip44V2Kind := by
        by_cases first : event.kind.asU16 = walletConnectNotificationKind
        · right
          rw [first]
          decide
        · exact .inl first
      rw [onNotification, if_pos differs, ite_self]
  | message relayUrl message => rfl
  | shutdown => rfl

theorem notifications_eq_nil (wallet : PublicKey) (notified : List ClientNotification) :
    notifications calls readers wallet notified = [] :=
  List.filterMap_eq_nil_iff.mpr fun notification _ => onNotification_eq_none wallet notification

/-- The stream is complete only where there is nothing to yield. -/
theorem notifications_complete_iff (wallet : PublicKey) (notified : List ClientNotification) :
    notifications calls readers wallet notified = outcomes calls readers wallet notified ↔
      ∀ relayUrl event, .event relayUrl notificationsId event ∈ notified →
        event.kind.asU16 ∉ notificationKinds := by
  rw [notifications_eq_nil, outcomes, eq_comm, List.map_eq_nil_iff, List.filterMap_eq_nil_iff]
  constructor
  · intro none relayUrl event member kind
    have found := none _ member
    rw [subscribedEvent?, if_pos ⟨rfl, kind⟩] at found
    cases found
  · intro others notification member
    cases notification with
    | event relayUrl subscriptionId event =>
        refine if_neg fun subscribed => ?_
        obtain ⟨rfl, kind⟩ := subscribed
        exact others relayUrl event member kind
    | message relayUrl message => rfl
    | shutdown => rfl

/-- Reads every notification as a payment received. -/
def sampleReaders : NotificationCalls Unit Unit where
  nip04Decrypt _ content := .ok content
  nip44Decrypt _ content := .ok content
  templateFromValue _ := .ok ⟨.paymentReceived, .null⟩
  paymentFromValue _ := .ok ()
  holdFromValue _ := .error .invalidRequest
  custom error := error

def notificationEvent : Event := { staleEvent with kind := .fromU16 walletConnectNotificationKind }

/-- The wallet notifies a payment, and the stream does not yield it. -/
theorem notifications_incomplete :
    let notified : List ClientNotification := [.event ⟨"wss://relay.example"⟩ notificationsId notificationEvent]
    notifications sampleCalls sampleReaders sampleWallet notified = [] ∧
      outcomes sampleCalls sampleReaders sampleWallet notified =
        [.ok ⟨.paymentReceived, .paymentReceived ()⟩] := by
  have valid : validateWalletEvent sampleCalls sampleWallet notificationEvent notificationKinds = .ok () := by
    simp [validateWalletEvent, notificationEvent, staleEvent, sampleCalls, notificationKinds,
      walletConnectNotificationKind, Event.verifyId, Event.verifySignature, EventId.compute, Kind.asU16,
      Kind.fromU16]
  have read : Notification.fromEvent sampleCalls sampleReaders sampleWallet notificationEvent =
      .ok ⟨.paymentReceived, .paymentReceived ()⟩ := by
    rw [Notification.fromEvent, valid]
    rfl
  refine ⟨notifications_eq_nil _ _, ?_⟩
  change [Except.mapError _ (Notification.fromEvent _ _ _ notificationEvent)] = _
  rw [read]
  rfl

end RustNostr.WalletConnect
