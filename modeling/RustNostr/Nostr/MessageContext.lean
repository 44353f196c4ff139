import Mathlib
import RustNostr.Nostr.MessageRoundTrip

/-!
# Relay messages that are lost

`RelayMessage::from_json` and `RelayMessage::from_json_with_context` on the bytes of a
message (`nostr/src/message/relay.rs`). The visitor is the same for both; the context that
it leaves behind says for which subscription an event was lost.
-/

set_option autoImplicit false

namespace RustNostr

open Library JsonValue SeqReader

/-- The array that `serde_json` finds in a text: its elements, up to where it breaks off if
it does, and what `Deserializer::end` says of the text behind it. An element that no type
but `IgnoredAny` accepts, such as a string of unpaired surrogates, stands as a value that
no reader takes. -/
structure JsonArrayText where
  elements : Elements JsonValue MessageError
  ended : Except MessageError Unit

namespace RelayMessage

variable (externals : Externals) (forms : MessageForms)
/- How `serde_json` begins to read a sequence. -/
variable (deserializeSeq : Bytes → Except MessageError JsonArrayText)

/-- The visit of the elements, with the bracket that must close them. -/
def visitArray (elements : Elements JsonValue MessageError) :
    RelayMessageContext × Except MessageError RelayMessage :=
  match visitSeq externals forms elements with
  | (context, .error error) => (context, .error error)
  | (context, .ok (message, later)) =>
      (context, if later.values.isEmpty then .ok message else .error .trailingCharacters)

def fromSlice (json : Bytes) : Except MessageError RelayMessage := do
  let text ← deserializeSeq json
  let message ← (visitArray externals forms text.elements).2
  text.ended
  return message

/-- The context as it is afterwards; what it was before is cleared first. -/
def fromJsonWithContext (json : Bytes) : RelayMessageContext × Except MessageError RelayMessage :=
  match deserializeSeq json with
  | .error error => (.unknown, .error error)
  | .ok text =>
      match visitArray externals forms text.elements with
      | (context, .error error) => (context, .error error)
      | (context, .ok message) =>
          match text.ended with
          | .error error =>
              match message with
              | .event subscriptionId _ => (.event (some subscriptionId), .error error)
              | _ => (context, .error error)
          | .ok () => (.unknown, .ok message)

variable {externals forms deserializeSeq}

/-- A text that is one whole array is read as its value is. -/
theorem fromSlice_whole {json : Bytes} {elements : List JsonValue}
    (whole : deserializeSeq json = .ok ⟨⟨elements, none⟩, .ok ()⟩) :
    fromSlice externals forms deserializeSeq json = fromJson externals forms (array elements) := by
  rw [fromSlice, whole, fromJson, wholeArray]
  simp only [visitArray, bind, Except.bind]
  rcases visitSeq externals forms ⟨elements, none⟩ with ⟨context, result⟩
  cases result with
  | error error => rfl
  | ok outcome =>
      obtain ⟨message, later⟩ := outcome
      obtain ⟨values, broken⟩ := later
      cases values with
      | nil => rfl
      | cons _ _ => rfl

theorem fromJsonWithContext_eq (json : Bytes) :
    (fromJsonWithContext externals forms deserializeSeq json).2 =
      fromSlice externals forms deserializeSeq json := by
  unfold fromJsonWithContext fromSlice
  cases deserializeSeq json with
  | error error => rfl
  | ok text =>
      cases visited : visitArray externals forms text.elements with
      | mk context result =>
          cases result with
          | error error => simp [visited, bind, Except.bind]
          | ok message =>
              cases ended : text.ended with
              | ok => simp [visited, ended, bind, Except.bind, pure, Except.pure]
              | error error => cases message <;> simp [visited, ended, bind, Except.bind]

/-- The input is the beginning of an event for a subscription: an array whose first two
elements are the word and the ID. -/
def BeginsEvent (deserializeSeq : Bytes → Except MessageError JsonArrayText) (json : Bytes)
    (subscriptionId : SubscriptionId) : Prop :=
  ∃ text rest, deserializeSeq json = .ok text ∧
    text.elements.values = string "EVENT" :: string subscriptionId :: rest

theorem visitSeq_event {elements : Elements JsonValue MessageError} {subscriptionId : SubscriptionId}
    {rest : List JsonValue} (begins : elements.values = string "EVENT" :: string subscriptionId :: rest) :
    (∃ error, visitSeq externals forms elements = (.event (some subscriptionId), .error error)) ∨
      ∃ event broken, visitSeq externals forms elements =
        (.event none, .ok (.event subscriptionId event, ⟨[], broken⟩)) := by
  obtain ⟨values, broken⟩ := elements
  cases begins
  have first : nextRequired deserializeText ⟨string "EVENT" :: string subscriptionId :: rest, broken⟩ =
      .ok ("EVENT", ⟨string subscriptionId :: rest, broken⟩) :=
    Reads.next (show deserializeText (string "EVENT") = .ok "EVENT" from rfl) _ broken
  have second : nextRequired SubscriptionId.deserialize ⟨string subscriptionId :: rest, broken⟩ =
      .ok (subscriptionId, ⟨rest, broken⟩) :=
    Reads.next (show SubscriptionId.deserialize (string subscriptionId) = .ok subscriptionId from rfl) rest broken
  rw [visitSeq_of_first first, if_pos rfl, visitEvent, second]
  dsimp only
  cases third : leading (eventFor externals forms subscriptionId) ⟨rest, broken⟩ with
  | error error => exact .inl ⟨error, rfl⟩
  | ok outcome =>
      obtain ⟨message, later⟩ := outcome
      obtain ⟨between, read, _, rfl⟩ := leading_ok.mp third
      obtain ⟨event, _, _, made⟩ := exists_of_bind_ok read
      cases made
      exact .inr ⟨event, _, rfl⟩

/-- An event that is lost is attributed to its subscription. -/
theorem context_of_error {json : Bytes} {subscriptionId : SubscriptionId} {error : MessageError}
    (begins : BeginsEvent deserializeSeq json subscriptionId)
    (failed : (fromJsonWithContext externals forms deserializeSeq json).2 = .error error) :
    (fromJsonWithContext externals forms deserializeSeq json).1 = .event (some subscriptionId) := by
  obtain ⟨text, rest, read, begins⟩ := begins
  unfold fromJsonWithContext at failed ⊢
  rw [read] at failed ⊢
  cases @visitSeq_event externals forms _ _ _ begins with
  | inl lost =>
      obtain ⟨cause, visited⟩ := lost
      simp only [visitArray, visited]
  | inr complete =>
      obtain ⟨event, broken, visited⟩ := complete
      cases ended : text.ended with
      | error cause => simp [visitArray, visited, ended]
      | ok _ => simp [visitArray, visited, ended] at failed

/-- With the context the same messages are accepted as without, and every event that is lost
is attributed to its subscription. -/
theorem fromJsonWithContext_faithful (externals : Externals) (forms : MessageForms)
    (deserializeSeq : Bytes → Except MessageError JsonArrayText) (json : Bytes) :
    (∀ message, (fromJsonWithContext externals forms deserializeSeq json).2 = .ok message ↔
        fromSlice externals forms deserializeSeq json = .ok message) ∧
      ∀ subscriptionId error, BeginsEvent deserializeSeq json subscriptionId →
        (fromJsonWithContext externals forms deserializeSeq json).2 = .error error →
          (fromJsonWithContext externals forms deserializeSeq json).1 = .event (some subscriptionId) := by
  constructor
  · intro message
    rw [fromJsonWithContext_eq]
  · exact fun _ _ begins failed => context_of_error begins failed

/-- What `serde_json` finds in the one text that is cut off behind the ID. -/
def cutOff (_ : Bytes) : Except MessageError JsonArrayText :=
  .ok ⟨⟨[string "EVENT", string "request"], some (.custom "EOF while parsing a list")⟩, .ok ()⟩

theorem fromJsonWithContext_cutOff :
    let json := utf8 "[\"EVENT\",\"request\""
    (fromJsonWithContext hexExternals hexForms cutOff json).2 =
        .error (.custom "EOF while parsing a list") ∧
      (fromJsonWithContext hexExternals hexForms cutOff json).1 = .event (some "request") :=
  ⟨rfl, (fromJsonWithContext_faithful hexExternals hexForms cutOff _).2 "request" _ ⟨_, [], rfl, rfl⟩ rfl⟩

end RelayMessage

end RustNostr
