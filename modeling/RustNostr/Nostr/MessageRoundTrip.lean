import Mathlib
import RustNostr.Nostr.MessageJson

/-!
# Messages are read back

Each element of a message is read back as it was written, so the message is. What
follows the elements of a message with a fixed number of them does not matter.
-/

set_option autoImplicit false

namespace RustNostr

open Library JsonValue SeqReader

/-- Hexadecimal digits are read back, those of a signature too. -/
structure MessageCodec (externals : Externals) (forms : MessageForms) : Prop extends HexCodec externals where
  signature : ∀ sig : Signature, forms.hexDecodeSignature (Json.lowercaseHex sig.val) = some sig

/-! ## Events -/

theorem requiredField_of_filter {α : Type} {entries : List (String × JsonValue)} {name : String}
    {read : JsonValue → Except JsonError α} {value : JsonValue} {given : α}
    (own : entries.filter (fun entry => entry.1 = name) = [(name, value)]) (reads : read value = .ok given) :
    requiredField entries name read = .ok given := by
  rw [requiredField, own]
  dsimp only
  rw [reads]
  rfl

theorem Tag.deserialize_serialize (tag : Tag) : Tag.deserialize tag.serialize = .ok tag := by
  have read : asList asString tag.serialize = .ok tag.buf :=
    mapM_of_each (fun text => (rfl : asString (string text) = .ok text)) tag.buf
  have parsed : Tag.parse tag.buf = .ok tag := dif_pos tag.notEmpty
  rw [Tag.deserialize, read]
  exact parsed

theorem Tags.deserialize_serialize (tags : List Tag) : Tags.deserialize (Tags.serialize tags) = .ok tags :=
  mapM_of_each Tag.deserialize_serialize tags

theorem Kind.deserializeKind_number (kind : Kind) :
    Kind.deserializeKind (number kind.asU16.toNat) = .ok (Kind.fromU16 kind.asU16) := by
  rw [Kind.deserializeKind, Filter.asUnsigned_number kind.asU16.toNat_lt]
  exact congrArg (fun number => Except.ok (Kind.fromU16 number)) UInt16.ofNat_toNat

/-- The kind as it is read back. -/
def Event.readBack (event : Event) : Event := { event with kind := Kind.fromU16 event.kind.asU16 }

theorem Event.readBack_eq (event : Event) : event.readBack.eq event = true := by
  have kinds : (Kind.fromU16 event.kind.asU16 == event.kind) = true :=
    Kind.beq_iff.mpr (Kind.asU16_fromU16 _)
  simp [Event.eq, Event.readBack, kinds]

section RoundTrip

variable {externals : Externals} {forms : MessageForms} (codec : MessageCodec externals forms)
include codec

theorem Signature.deserialize_written (sig : Signature) :
    Signature.deserialize forms (string (externals.hexEncode sig.val)) = .ok sig := by
  change (forms.hexDecodeSignature (externals.hexEncode sig.val)).elim _ _ = _
  rw [codec.encode, codec.signature]
  rfl

theorem Event.deserialize_serialize (event : Event) :
    Event.deserialize externals forms (event.serialize externals) = .ok event.readBack := by
  have id := EventId.deserialize_written codec.toHexCodec forms.toNostrForms event.id
  have pubkey := PublicKey.deserialize_written codec.toHexCodec forms.toNostrForms event.pubkey
  have createdAt := Filter.timestamp_written event.createdAt
  have kind := Kind.deserializeKind_number event.kind
  have tags := Tags.deserialize_serialize event.tags
  have content : asString (string event.content) = .ok event.content := rfl
  have sig := Signature.deserialize_written codec event.sig
  rw [Event.serialize, Event.deserialize, Event.visitMap, requiredField_of_filter (by simp) id,
    requiredField_of_filter (by simp) pubkey, requiredField_of_filter (by simp) createdAt,
    requiredField_of_filter (by simp) kind, requiredField_of_filter (by simp) tags,
    requiredField_of_filter (by simp) content, requiredField_of_filter (by simp) sig]
  rfl

theorem Filter.deserializeValue_serialize {filter : Filter}
    (usize : ∀ limit, filter.limit = some limit → limit < 18446744073709551616) :
    Filter.deserializeValue externals forms (object (filter.serialize externals)) = .ok filter := by
  rw [Filter.deserializeValue, Filter.deserialize_serialize codec.toHexCodec forms.toNostrForms filter usize]
  rfl

end RoundTrip

theorem wholeArray_ok {α : Type} {reader : MessageReader α} {elements : List JsonValue} {value : α} :
    wholeArray reader elements = .ok value ↔
      ∃ later, reader ⟨elements, none⟩ = .ok (value, later) ∧ later.values = [] := by
  unfold wholeArray
  cases reader ⟨elements, none⟩ with
  | error error => simp
  | ok outcome =>
      obtain ⟨found, later⟩ := outcome
      cases empty : later.values with
      | nil => simp [empty]
      | cons _ _ => simp [empty]

theorem nextRequired_stable {α : Type} (read : JsonValue → Except MessageError α) :
    Stable (nextRequired read) := .next _ _

/-! ## Client messages -/

namespace ClientMessage

/-- The filters that a message carries. -/
def filters : ClientMessage → List Filter
  | .req _ given => given
  | .count _ filter => [filter]
  | .negOpen _ filter _ => [filter]
  | _ => []

/-- The limits are of type `usize`. -/
def Representable (message : ClientMessage) : Prop :=
  ∀ filter ∈ message.filters, ∀ limit, filter.limit = some limit → limit < 18446744073709551616

/-- The message as it is read back. -/
def readBack : ClientMessage → ClientMessage
  | .event given => .event given.readBack
  | .auth given => .auth given.readBack
  | other => other

theorem readBack_same (message : ClientMessage) : message.readBack.Same message := by
  cases message with
  | event given | auth given => exact given.readBack_eq
  | close _ | negClose _ => rfl
  | req _ _ | count _ _ | negMsg _ _ => exact ⟨rfl, rfl⟩
  | negOpen _ _ _ => exact ⟨rfl, rfl, rfl⟩

theorem length_elements (externals : Externals) (message : ClientMessage) :
    (message.elements externals).length = message.len := by
  cases message with
  | req _ given =>
      rw [elements, len, List.length_cons, List.length_cons, List.length_map]
      omega
  | _ => rfl

section Codec

variable {externals : Externals} {forms : MessageForms}

theorem visitSeq_of_variant {messageType : String} (other : messageType ≠ "REQ") {written : List JsonValue}
    {message : ClientMessage} (reads : Reads (visitVariant externals forms messageType) written message) :
    visitSeq externals forms ⟨string messageType :: written, none⟩ = .ok (message, ⟨[], none⟩) := by
  have first : nextRequired deserializeText ⟨string messageType :: written, none⟩ =
      .ok (messageType, ⟨written, none⟩) :=
    Reads.next (show deserializeText (string messageType) = .ok messageType from rfl) written none
  rw [visitSeq, bind_of_ok first, if_neg other]
  exact reads.leading

theorem filtersOf_written {given : List Filter} {written : Filter → JsonValue}
    (each : ∀ filter ∈ given, Filter.deserializeValue externals forms (written filter) = .ok filter) :
    filtersOf externals forms none (given.map written) = .ok given := by
  induction given with
  | nil => rfl
  | cons filter rest ih =>
      obtain ⟨first, others⟩ := List.forall_mem_cons.mp each
      rw [List.map_cons, filtersOf, first, ih others]
      rfl

theorem readsText (text : String) : deserializeText (string text) = .ok text := rfl

theorem readsSubscriptionId (text : String) : SubscriptionId.deserialize (string text) = .ok text := rfl

theorem visitVariant_stable (messageType : String) : Stable (visitVariant externals forms messageType) := by
  unfold visitVariant
  split
  next => exact .bind (.next _ _) fun _ => .pure _
  next => exact .bind (.next _ _) fun _ => .bind (.next _ _) fun _ => .pure _
  next => exact .bind (.next _ _) fun _ => .pure _
  next => exact .bind (.next _ _) fun _ => .pure _
  next => exact .bind (.next _ _) fun _ => .bind (.next _ _) fun _ => .bind (.next _ _) fun _ => .pure _
  next => exact .bind (.next _ _) fun _ => .bind (.next _ _) fun _ => .pure _
  next => exact .bind (.next _ _) fun _ => .pure _
  next => exact .throw _

theorem isReq_of_visitReq {elements later : Elements JsonValue MessageError} {message : ClientMessage}
    (ran : visitReq externals forms elements = .ok (message, later)) : message.isReq = true := by
  obtain ⟨subscriptionId, between, _, ran⟩ := exists_of_bind_ok ran
  obtain ⟨filters, last, _, ran⟩ := exists_of_bind_ok ran
  split at ran
  next => cases ran
  next =>
    cases ran
    rfl

theorem visitSeq_extend {elements later : Elements JsonValue MessageError} {message : ClientMessage}
    (ran : visitSeq externals forms elements = .ok (message, later)) (other : message.isReq = false)
    (more : List JsonValue) :
    visitSeq externals forms (elements.extend more) = .ok (message, later) := by
  obtain ⟨messageType, between, first, ran⟩ := exists_of_bind_ok ran
  rw [visitSeq, bind_of_ok (nextRequired_stable _ elements messageType between first more)]
  split at ran
  next =>
    rw [isReq_of_visitReq ran] at other
    cases other
  next fixed =>
    rw [if_neg fixed]
    exact (visitVariant_stable messageType).leading ran more

end Codec

section RoundTrip

variable {externals : Externals} {forms : MessageForms} (codec : MessageCodec externals forms)
include codec

theorem visitSeq_elements (message : ClientMessage) (representable : message.Representable)
    (filtered : ∀ subscriptionId given, message = .req subscriptionId given → given ≠ []) :
    visitSeq externals forms ⟨message.elements externals, none⟩ = .ok (message.readBack, ⟨[], none⟩) := by
  cases message with
  | event given =>
      apply visitSeq_of_variant (by decide)
      simp only [visitVariant]
      exact .next_bind (Event.deserialize_serialize codec given) (.pure _)
  | auth given =>
      apply visitSeq_of_variant (by decide)
      simp only [visitVariant]
      exact .next_bind (Event.deserialize_serialize codec given) (.pure _)
  | close subscriptionId =>
      apply visitSeq_of_variant (by decide)
      simp only [visitVariant]
      exact .next_bind (readsSubscriptionId subscriptionId) (.pure _)
  | negClose subscriptionId =>
      apply visitSeq_of_variant (by decide)
      simp only [visitVariant]
      exact .next_bind (readsSubscriptionId subscriptionId) (.pure _)
  | count subscriptionId filter =>
      apply visitSeq_of_variant (by decide)
      simp only [visitVariant]
      have usize := representable filter List.mem_cons_self
      exact .next_bind (readsSubscriptionId subscriptionId)
        (.next_bind (Filter.deserializeValue_serialize codec usize) (.pure _))
  | negMsg subscriptionId message =>
      apply visitSeq_of_variant (by decide)
      simp only [visitVariant]
      exact .next_bind (readsSubscriptionId subscriptionId) (.next_bind (readsText message) (.pure _))
  | negOpen subscriptionId filter initialMessage =>
      apply visitSeq_of_variant (by decide)
      simp only [visitVariant]
      have usize := representable filter List.mem_cons_self
      exact .next_bind (readsSubscriptionId subscriptionId)
        (.next_bind (Filter.deserializeValue_serialize codec usize)
          (.next_bind (readsText initialMessage) (.pure _)))
  | req subscriptionId given =>
      have each : ∀ filter ∈ given, Filter.deserializeValue externals forms
          (object (filter.serialize externals)) = .ok filter :=
        fun filter member => Filter.deserializeValue_serialize codec (representable filter member)
      have first : nextRequired deserializeText ⟨(req subscriptionId given).elements externals, none⟩ =
          .ok ("REQ", ⟨((req subscriptionId given).elements externals).tail, none⟩) :=
        Reads.next (readsText "REQ") _ none
      have second : nextRequired SubscriptionId.deserialize
          ⟨((req subscriptionId given).elements externals).tail, none⟩ = .ok (subscriptionId,
            ⟨given.map fun filter => object (filter.serialize externals), none⟩) :=
        Reads.next (readsSubscriptionId subscriptionId) _ none
      have third : readFilters externals forms
          ⟨given.map fun filter => object (filter.serialize externals), none⟩ =
            .ok (given, ⟨[], none⟩) := by
        rw [readFilters, filtersOf_written each]
        rfl
      have nonempty : ¬ given.isEmpty = true :=
        fun empty => filtered subscriptionId given rfl (List.isEmpty_iff.mp empty)
      rw [visitSeq, bind_of_ok first, if_pos rfl, visitReq, bind_of_ok second, bind_of_ok third,
        if_neg nonempty]
      rfl

end RoundTrip

end ClientMessage

/-! ## Relay messages -/

namespace RelayMessage

/-- A count is of type `usize`. -/
def Representable (message : RelayMessage) : Prop :=
  ∀ subscriptionId total, message = .count subscriptionId total → total < 18446744073709551616

def readBack : RelayMessage → RelayMessage
  | .event subscriptionId given => .event subscriptionId given.readBack
  | other => other

theorem readBack_same (message : RelayMessage) : message.readBack.Same message := by
  cases message with
  | event subscriptionId given => exact ⟨rfl, given.readBack_eq⟩
  | _ => rfl

theorem length_elements (externals : Externals) (message : RelayMessage) :
    (message.elements externals).length = message.len := by
  cases message <;> rfl

section Codec

variable {externals : Externals} {forms : MessageForms}

theorem visitVariant_stable (messageType : String) : Stable (visitVariant externals forms messageType) := by
  unfold visitVariant
  split
  next => exact .bind (.next _ _) fun _ => .bind (.next _ _) fun _ => .bind (.next _ _) fun _ => .pure _
  next => exact .bind (.next _ _) fun _ => .pure _
  next => exact .bind (.next _ _) fun _ => .pure _
  next => exact .bind (.next _ _) fun _ => .bind (.next _ _) fun _ => .pure _
  next => exact .bind (.next _ _) fun _ => .pure _
  next => exact .bind (.next _ _) fun _ => .bind (.next _ _) fun _ => .pure _
  next => exact .bind (.next _ _) fun _ => .bind (.next _ _) fun _ => .pure _
  next => exact .bind (.next _ _) fun _ => .bind (.next _ _) fun _ => .pure _
  next => exact .throw _

theorem visitSeq_of_first {elements between : Elements JsonValue MessageError} {messageType : String}
    (first : nextRequired deserializeText elements = .ok (messageType, between)) :
    visitSeq externals forms elements =
      if messageType = "EVENT" then visitEvent externals forms between
      else (.nonEvent, leading (visitVariant externals forms messageType) between) := by
  rw [visitSeq, first]

theorem visitEvent_ok {elements later : Elements JsonValue MessageError} {message : RelayMessage} :
    (visitEvent externals forms elements).2 = .ok (message, later) ↔
      ∃ subscriptionId between, nextRequired SubscriptionId.deserialize elements = .ok (subscriptionId, between) ∧
        leading (eventFor externals forms subscriptionId) between = .ok (message, later) := by
  rw [visitEvent]
  cases nextRequired SubscriptionId.deserialize elements with
  | error error => simp
  | ok outcome =>
      obtain ⟨subscriptionId, between⟩ := outcome
      simp only [Except.ok.injEq, Prod.mk.injEq]
      cases ran : leading (eventFor externals forms subscriptionId) between with
      | error error => simp [ran]
      | ok outcome => simp [ran]

/-- Whatever is accepted is accepted with more behind it. -/
theorem visitSeq_extend {elements later : Elements JsonValue MessageError} {message : RelayMessage}
    (ran : (visitSeq externals forms elements).2 = .ok (message, later)) (more : List JsonValue) :
    (visitSeq externals forms (elements.extend more)).2 = .ok (message, later) := by
  cases first : nextRequired deserializeText elements with
  | error error =>
      rw [visitSeq, first] at ran
      cases ran
  | ok outcome =>
      obtain ⟨messageType, between⟩ := outcome
      rw [visitSeq_of_first first] at ran
      rw [visitSeq_of_first (nextRequired_stable _ elements messageType between first more)]
      split at ran
      next eventType =>
        obtain ⟨subscriptionId, last, second, third⟩ := visitEvent_ok.mp ran
        rw [if_pos eventType, visitEvent_ok]
        have stable : Stable (eventFor externals forms subscriptionId) := .bind (.next _ _) fun _ => .pure _
        exact ⟨subscriptionId, last.extend more, nextRequired_stable _ between subscriptionId last second more,
          stable.leading third more⟩
      next other =>
        rw [if_neg other]
        exact (visitVariant_stable messageType).leading ran more

theorem visitSeq_of_variant {messageType : String} (other : messageType ≠ "EVENT") {written : List JsonValue}
    {message : RelayMessage} (reads : Reads (visitVariant externals forms messageType) written message) :
    (visitSeq externals forms ⟨string messageType :: written, none⟩).2 = .ok (message, ⟨[], none⟩) := by
  have first : nextRequired deserializeText ⟨string messageType :: written, none⟩ =
      .ok (messageType, ⟨written, none⟩) :=
    Reads.next (show deserializeText (string messageType) = .ok messageType from rfl) written none
  rw [visitSeq_of_first first, if_neg other]
  exact reads.leading

end Codec

theorem Count.deserialize_serialize {total : Nat} (usize : total < 18446744073709551616) :
    Count.deserialize (Count.serialize total) = .ok total := by
  rw [Count.serialize, Count.deserialize]
  exact requiredField_of_filter (by simp) (Filter.asUnsigned_number usize)

section RoundTrip

variable {externals : Externals} {forms : MessageForms} (codec : MessageCodec externals forms)
include codec

theorem visitSeq_elements (message : RelayMessage) (representable : message.Representable) :
    (visitSeq externals forms ⟨message.elements externals, none⟩).2 =
      .ok (message.readBack, ⟨[], none⟩) := by
  have readsText := fun text : String => (rfl : deserializeText (string text) = .ok text)
  have readsSubscriptionId := fun text : String =>
    (rfl : SubscriptionId.deserialize (string text) = .ok text)
  cases message with
  | event subscriptionId given =>
      have first : nextRequired deserializeText ⟨(event subscriptionId given).elements externals, none⟩ =
          .ok ("EVENT", ⟨((event subscriptionId given).elements externals).tail, none⟩) :=
        Reads.next (readsText "EVENT") _ none
      have second : nextRequired SubscriptionId.deserialize
          ⟨((event subscriptionId given).elements externals).tail, none⟩ =
            .ok (subscriptionId, ⟨[given.serialize externals], none⟩) :=
        Reads.next (readsSubscriptionId subscriptionId) _ none
      rw [visitSeq_of_first first, if_pos rfl, visitEvent_ok]
      have third : Reads (eventFor externals forms subscriptionId) [given.serialize externals]
          (event subscriptionId given.readBack) :=
        .next_bind (Event.deserialize_serialize codec given) (.pure _)
      exact ⟨subscriptionId, _, second, third.leading⟩
  | ok eventId status message =>
      apply visitSeq_of_variant (by decide)
      simp only [visitVariant]
      have id := EventId.deserialize_written codec.toHexCodec forms.toNostrForms eventId
      exact .next_bind (by rw [id]; rfl) (.next_bind rfl (.next_bind (readsText message) (.pure _)))
  | endOfStoredEvents subscriptionId =>
      apply visitSeq_of_variant (by decide)
      simp only [visitVariant]
      exact .next_bind (readsSubscriptionId subscriptionId) (.pure _)
  | notice message =>
      apply visitSeq_of_variant (by decide)
      simp only [visitVariant]
      exact .next_bind (readsText message) (.pure _)
  | auth challenge =>
      apply visitSeq_of_variant (by decide)
      simp only [visitVariant]
      exact .next_bind (readsText challenge) (.pure _)
  | count subscriptionId total =>
      apply visitSeq_of_variant (by decide)
      simp only [visitVariant]
      exact .next_bind (readsSubscriptionId subscriptionId)
        (.next_bind (Count.deserialize_serialize (representable subscriptionId total rfl)) (.pure _))
  | closed subscriptionId message | negMsg subscriptionId message | negErr subscriptionId message =>
      apply visitSeq_of_variant (by decide)
      simp only [visitVariant]
      exact .next_bind (readsSubscriptionId subscriptionId) (.next_bind (readsText message) (.pure _))

end RoundTrip

theorem fromJson_array_ok {externals : Externals} {forms : MessageForms} {elements : List JsonValue}
    {message : RelayMessage} :
    fromJson externals forms (array elements) = .ok message ↔
      ∃ later, (visitSeq externals forms ⟨elements, none⟩).2 = .ok (message, later) ∧ later.values = [] :=
  @wholeArray_ok _ (fun elements => (visitSeq externals forms elements).2) _ _

end RelayMessage

/-- Every message is read back, and further elements behind a message that is no `REQ`
do not change what is read. -/
theorem fromJson_asJson (externals : Externals) (forms : MessageForms)
    (codec : MessageCodec externals forms) :
    (∀ message : ClientMessage, message.Representable →
      (∀ subscriptionId filters, message = .req subscriptionId filters → filters ≠ []) →
        (message.elements externals).length = message.len ∧
          ∃ back, ClientMessage.fromJson externals forms (message.asJson externals) = .ok back ∧
            back.Same message) ∧
    (∀ message : RelayMessage, message.Representable →
      (message.elements externals).length = message.len ∧
        ∃ back, RelayMessage.fromJson externals forms (message.asJson externals) = .ok back ∧
          back.Same message) ∧
    (∀ elements message, ClientMessage.fromJson externals forms (array elements) = .ok message →
      message.isReq = false → ∀ more,
        ClientMessage.fromJson externals forms (array (elements ++ more)) = .ok message) ∧
    ∀ elements message, RelayMessage.fromJson externals forms (array elements) = .ok message →
      ∀ more, RelayMessage.fromJson externals forms (array (elements ++ more)) = .ok message := by
  refine ⟨?_, ?_, ?_, ?_⟩
  · intro message representable filtered
    refine ⟨message.length_elements externals, message.readBack, ?_, message.readBack_same⟩
    exact wholeArray_ok.mpr ⟨_, message.visitSeq_elements codec representable filtered, rfl⟩
  · intro message representable
    refine ⟨message.length_elements externals, message.readBack, ?_, message.readBack_same⟩
    exact RelayMessage.fromJson_array_ok.mpr ⟨_, message.visitSeq_elements codec representable, rfl⟩
  · intro elements message accepted fixed more
    obtain ⟨later, ran, empty⟩ := wholeArray_ok.mp accepted
    exact wholeArray_ok.mpr ⟨later, ClientMessage.visitSeq_extend ran fixed more, empty⟩
  · intro elements message accepted more
    obtain ⟨later, ran, empty⟩ := RelayMessage.fromJson_array_ok.mp accepted
    exact RelayMessage.fromJson_array_ok.mpr ⟨later, RelayMessage.visitSeq_extend ran more, empty⟩

/-- No text is bech32 or a URI, and signatures are read by their digits. -/
def hexForms : MessageForms where
  toNostrForms := Filter.noForms
  hexDecodeSignature text := (hexBytes text.toList).bind fun bytes =>
    if whole : bytes.length = 64 then some ⟨bytes, whole⟩ else none

theorem hexForms_messageCodec : MessageCodec hexExternals hexForms where
  toHexCodec := hexExternals_hexCodec
  signature sig := by
    have read : hexBytes (Json.lowercaseHex sig.val).toList = some sig.val := by
      simp only [Json.lowercaseHex, String.toList_ofList, ← hexOf_eq]
      exact hexBytes_written sig.val
    simp [hexForms, read, sig.property]

theorem fromJson_asJson_close :
    (∃ back, ClientMessage.fromJson hexExternals hexForms
      ((ClientMessage.close "a").asJson hexExternals) = .ok back ∧ back.Same (.close "a")) ∧
    (∃ back, RelayMessage.fromJson hexExternals hexForms
      ((RelayMessage.count "a" 5).asJson hexExternals) = .ok back ∧ back.Same (.count "a" 5)) ∧
    ClientMessage.fromJson hexExternals hexForms (array ([string "CLOSE", string "a"] ++ [null])) =
      .ok (.close "a") ∧
    RelayMessage.fromJson hexExternals hexForms (array ([string "NOTICE", string "a"] ++ [null])) =
      .ok (.notice "a") := by
  have codec := fromJson_asJson hexExternals hexForms hexForms_messageCodec
  refine ⟨?_, ?_, ?_, ?_⟩
  · apply (codec.1 (.close "a") (fun filter impossible => ?_) fun subscriptionId filters impossible => ?_).2
    · cases impossible
    · cases impossible
  · apply (codec.2.1 (.count "a" 5) fun subscriptionId total same => ?_).2
    cases same
    decide
  · exact codec.2.2.1 _ (.close "a") rfl rfl [null]
  · exact codec.2.2.2 _ (.notice "a") rfl [null]

end RustNostr
