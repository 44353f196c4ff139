import Mathlib
import RustNostr.Nostr.MessageRoundTrip
import RustNostr.Nostr.Nip60

/-!
# Cashu wallets come back

What is read of the events that are built for wallets, tokens, spending histories and
quotes, and when it is what was stored.
-/

set_option autoImplicit false

namespace RustNostr

open Library JsonValue SeqReader Nip60

variable {SecretKey : Type} {calls : KeyCalls SecretKey} {texts : JsonTexts} {crate : UrlCrate}

namespace Nip60

/-- Encryption, signatures, digits and URLs are read back. -/
structure Standard (calls : KeyCalls SecretKey) (crate : UrlCrate) : Prop where
  decrypts : Decrypts calls
  signs : ∀ secretKey aux id,
    calls.crypto.verifySchnorr (calls.signSchnorr secretKey aux id) id (calls.publicKey secretKey) = true
  hex : HexCodec calls.externals
  url : crate.RoundTrips

/-- The text can be encrypted for the wallet itself. -/
def Encrypts (calls : KeyCalls SecretKey) (draws : StorageDraws) (secretKey : SecretKey) (text : String) : Prop :=
  ∃ cipher, calls.encrypt secretKey (calls.publicKey secretKey) draws.nonce text = .ok cipher

/-! ## Events of the wallet -/

/-- The event that is finalised. -/
def finalized (calls : KeyCalls SecretKey) (draws : StorageDraws) (secretKey : SecretKey)
    (builder : EventBuilder) : Event :=
  let unsigned := builder.finalizeUnsigned draws.finalizedAt (calls.publicKey secretKey)
  { id := unsigned.computeId calls
    pubkey := unsigned.pubkey
    createdAt := unsigned.createdAt
    kind := unsigned.kind
    tags := unsigned.tags
    content := unsigned.content
    sig := calls.signSchnorr secretKey draws.aux (unsigned.computeId calls) }

section Standard

variable (standard : Standard calls crate) (draws : StorageDraws) (secretKey : SecretKey)
include standard

theorem finalize_eq (builder : EventBuilder) :
    draws.finalize calls secretKey builder = .ok (finalized calls draws secretKey builder) := by
  have signed : (finalized calls draws secretKey builder).verifySignature calls.crypto = true :=
    standard.signs secretKey draws.aux _
  rw [StorageDraws.finalize, EventBuilder.finalize, signEvent, UnsignedEvent.addSignature]
  change (if (false && _) = true then _ else if (!(finalized calls draws secretKey builder).verifySignature
    calls.crypto) = true then _ else Except.ok (finalized calls draws secretKey builder)) = _
  rw [signed]
  rfl

theorem openContent_finalized (builder : EventBuilder) {text : String}
    (encrypted : calls.encrypt secretKey (calls.publicKey secretKey) draws.nonce text = .ok builder.content) :
    openContent calls secretKey (calls.publicKey secretKey) (finalized calls draws secretKey builder)
      builder.kind = .ok text := by
  have signed : (finalized calls draws secretKey builder).verifySignature calls.crypto = true :=
    standard.signs secretKey draws.aux _
  have identified : (finalized calls draws secretKey builder).verifyId calls.externals calls.crypto = true :=
    beq_self_eq_true (finalized calls draws secretKey builder).id
  have kind : ((finalized calls draws secretKey builder).kind == builder.kind) = true := Kind.beq_iff.mpr rfl
  have valid : validateWalletEvent calls (calls.publicKey secretKey) (finalized calls draws secretKey builder)
      builder.kind = .ok () := by
    have author : ¬ (finalized calls draws secretKey builder).pubkey ≠ calls.publicKey secretKey :=
      not_not.mpr rfl
    rw [validateWalletEvent, if_neg author, kind, identified, signed]
    rfl
  rw [openContent, valid]
  exact standard.decrypts _ _ _ _ _ encrypted

/-- What is stored is read from the event of its cipher. -/
theorem exists_stored_iff {text : String} {store : Except Error Event} (builder : String → EventBuilder)
    {Reads : Event → Prop} {Expected : Prop}
    (stored : store = (calls.encrypt secretKey (calls.publicKey secretKey) draws.nonce text >>= fun cipher =>
      draws.finalize calls secretKey (builder cipher)))
    (reads : ∀ cipher, calls.encrypt secretKey (calls.publicKey secretKey) draws.nonce text = .ok cipher →
      (Reads (finalized calls draws secretKey (builder cipher)) ↔ Expected)) :
    (∃ event, store = .ok event ∧ Reads event) ↔ Encrypts calls draws secretKey text ∧ Expected := by
  subst stored
  constructor
  · intro ⟨event, built, read⟩
    obtain ⟨cipher, encrypted, finalized⟩ := bind_ok.mp built
    rw [finalize_eq standard] at finalized
    cases finalized
    exact ⟨⟨cipher, encrypted⟩, (reads cipher encrypted).mp read⟩
  · intro ⟨encrypts, expected⟩
    obtain ⟨cipher, encrypted⟩ := encrypts
    refine ⟨_, bind_ok.mpr ⟨cipher, encrypted, finalize_eq standard draws secretKey _⟩, ?_⟩
    exact (reads cipher encrypted).mpr expected

/-- What is read of every such event is read when it can be encrypted. -/
theorem exists_stored_iff_encrypts {text : String} {store : Except Error Event} (builder : String → EventBuilder)
    {Reads : Event → Prop}
    (stored : store = (calls.encrypt secretKey (calls.publicKey secretKey) draws.nonce text >>= fun cipher =>
      draws.finalize calls secretKey (builder cipher)))
    (reads : ∀ cipher, calls.encrypt secretKey (calls.publicKey secretKey) draws.nonce text = .ok cipher →
      Reads (finalized calls draws secretKey (builder cipher))) :
    (∃ event, store = .ok event ∧ Reads event) ↔ Encrypts calls draws secretKey text :=
  (exists_stored_iff standard draws secretKey builder stored fun cipher encrypted =>
    iff_true_intro (reads cipher encrypted)).trans (and_iff_left trivial)

end Standard

/-- A loop that takes one written value after another takes them all. -/
theorem foldlM_written {α β γ : Type} {step : β → γ → Except Error β} {written : α → γ} (add : β → List α → β)
    (start : ∀ state, add state [] = state) (each : ∀ state value, step state (written value) = .ok (add state [value]))
    (more : ∀ state value rest, add (add state [value]) rest = add state (value :: rest)) (values : List α)
    (state : β) : (values.map written).foldlM step state = .ok (add state values) := by
  induction values generalizing state with
  | nil =>
      rw [start]
      rfl
  | cons value rest ih =>
      rw [List.map_cons, List.foldlM_cons, each]
      exact (ih (add state [value])).trans (congrArg Except.ok (more state value rest))

theorem itemsOf_ofItems (items : List (List String)) : itemsOf (ofItems items) = .ok items := by
  have texts (item : List String) : asList asString (array (item.map string)) = .ok item :=
    mapM_of_each (fun text => (rfl : asString (string text) = .ok text)) item
  have lists : asList (asList asString) (ofItems items) = .ok items := mapM_of_each texts items
  rw [itemsOf, lists]
  rfl

theorem parseJson_write {α : Type} {deserialize : JsonValue → Except MessageError α} {value : JsonValue} {given : α}
    (reads : texts.Reads value) (read : deserialize value = .ok given) :
    parseJson texts deserialize (texts.write value) = .ok given := by
  have text : texts.read (texts.write value) = .ok value := reads
  rw [parseJson, text]
  change (deserialize value).mapError texts.error = _
  rw [read]
  rfl

end Nip60

/-! ## Wallets -/

namespace WalletEvent

theorem foldlM_mints (law : crate.RoundTrips) (mints : List (Url crate)) (wallet : WalletEvent crate) :
    (mints.map fun url => [Nip60.mint, url.serialization]).foldlM readItem wallet =
      .ok { wallet with mints := wallet.mints ++ mints } := by
  refine foldlM_written (fun wallet mints => { wallet with mints := wallet.mints ++ mints })
    (fun state => ?_) (fun state mint => ?_) (fun state mint rest => ?_) mints wallet
  · rw [List.append_nil]
  · rw [readItem, if_neg (by decide), if_pos rfl, Url.parse_serialization law]
  · rw [List.append_assoc]
    rfl

theorem foldlM_walletData (law : crate.RoundTrips) (wallet : WalletEvent crate) :
    ([Nip60.privkey, wallet.privkey] :: wallet.mints.map fun url => [Nip60.mint, url.serialization]).foldlM
      readItem (⟨"", []⟩ : WalletEvent crate) = .ok wallet := by
  have read : readItem (⟨"", []⟩ : WalletEvent crate) [Nip60.privkey, wallet.privkey] =
      .ok ⟨wallet.privkey, []⟩ := rfl
  rw [List.foldlM_cons, read]
  exact foldlM_mints law wallet.mints ⟨wallet.privkey, []⟩

theorem fromWalletEvent_finalized (standard : Standard calls crate) {draws : StorageDraws} {secretKey : SecretKey}
    {wallet : WalletEvent crate} (owned : wallet.privkey ≠ "") (minted : wallet.mints ≠ [])
    (reads : texts.Reads wallet.walletData) {cipher : String}
    (encrypted : calls.encrypt secretKey (calls.publicKey secretKey) draws.nonce
      (texts.write wallet.walletData) = .ok cipher) :
    fromWalletEvent calls texts crate secretKey (calls.publicKey secretKey)
      (finalized calls draws secretKey (PreparedWalletEvent.intoEventBuilder ⟨cipher⟩)) = .ok wallet := by
  have opened : openContent calls secretKey (calls.publicKey secretKey)
      (finalized calls draws secretKey (PreparedWalletEvent.intoEventBuilder ⟨cipher⟩)) cashuWallet = _ :=
    openContent_finalized standard draws secretKey _ encrypted
  have items := parseJson_write reads (itemsOf_ofItems _)
  have folded := foldlM_walletData standard.url wallet
  refine bind_ok.mpr ⟨_, opened, bind_ok.mpr ⟨_, items, bind_ok.mpr ⟨wallet, folded, ?_⟩⟩⟩
  rw [if_neg owned, if_neg minted]

end WalletEvent

/-! ## Tokens -/

theorem CashuProof.deserialize_serialize (proof : CashuProof) :
    CashuProof.deserialize proof.serialize = .ok proof := by
  have text (given : String) : asString (string given) = .ok given := rfl
  have amount : asAmount (number proof.amount.toNat) = .ok proof.amount := by
    rw [asAmount, Filter.asUnsigned_number proof.amount.toNat_lt]
    exact congrArg Except.ok UInt64.ofNat_toNat
  rw [serialize, deserialize, visitMap, requiredField_of_filter (by simp) (text proof.id),
    requiredField_of_filter (by simp) amount, requiredField_of_filter (by simp) (text proof.secret),
    requiredField_of_filter (by simp) (text proof.c)]
  rfl

namespace TokenEvent

theorem field_of_filter {α : Type} {entries : List (String × JsonValue)} {name : String}
    {read : JsonValue → Except MessageError α} {value : JsonValue} {given : α}
    (own : entries.filter (fun entry => entry.1 = name) = [(name, value)]) (reads : read value = .ok given) :
    field entries name read = .ok given :=
  bind_ok.mpr ⟨value, requiredField_of_filter own rfl, reads⟩

theorem deserialize_serialize (law : crate.RoundTrips) (token : TokenEvent crate) :
    deserialize crate token.serialize = .ok token := by
  have mint : deserializeMint crate (string token.mint.serialization) = .ok token.mint := by
    refine bind_ok.mpr ⟨token.mint.serialization, rfl, ?_⟩
    rw [Url.parse_serialization law]
    rfl
  have proofs : deserializeProofs (array (token.proofs.map CashuProof.serialize)) = .ok token.proofs :=
    mapM_of_each CashuProof.deserialize_serialize token.proofs
  have del : deserializeDel (array (token.del.map string)) = .ok token.del := by
    have texts : asList asString (array (token.del.map string)) = .ok token.del :=
      mapM_of_each (fun text => (rfl : asString (string text) = .ok text)) token.del
    rw [deserializeDel, texts]
    rfl
  rw [serialize, deserialize, visitMap, field_of_filter (by simp) mint, field_of_filter (by simp) proofs,
    field_of_filter (by simp) del]
  rfl

theorem fromTokenEvent_finalized (standard : Standard calls crate) {draws : StorageDraws} {secretKey : SecretKey}
    {token : TokenEvent crate} (reads : texts.Reads token.serialize) {cipher : String}
    (encrypted : calls.encrypt secretKey (calls.publicKey secretKey) draws.nonce
      (texts.write token.serialize) = .ok cipher) :
    fromTokenEvent calls texts crate secretKey (calls.publicKey secretKey)
      (finalized calls draws secretKey (PreparedTokenEvent.intoEventBuilder ⟨cipher⟩)) = .ok token := by
  have opened : openContent calls secretKey (calls.publicKey secretKey)
      (finalized calls draws secretKey (PreparedTokenEvent.intoEventBuilder ⟨cipher⟩))
        cashuWalletUnspentProof = _ :=
    openContent_finalized standard draws secretKey _ encrypted
  exact bind_ok.mpr ⟨_, opened, parseJson_write reads (deserialize_serialize standard.url token)⟩

end TokenEvent

/-! ## Spending history -/

namespace SpendingHistory

theorem parseAmount_toString (amount : UInt64) : parseAmount (toString amount.toNat) = .ok amount := by
  rw [parseAmount, parseUnsigned_toString amount.toNat_lt]
  simp

theorem fromStr_asStr (direction : TransactionDirection) :
    TransactionDirection.fromStr direction.asStr = .ok direction := by
  cases direction <;> rfl

section Items

variable {externals : Externals} (codec : HexCodec externals)
include codec

theorem readItem_event (items : HistoryItems) (marker : String) (eventId : EventId) :
    readItem externals items (eventItem externals marker eventId) =
      if marker = Nip60.created then .ok { items with created := items.created ++ [eventId] }
      else if marker = Nip60.destroyed then .ok { items with destroyed := items.destroyed ++ [eventId] }
      else .ok items := by
  rw [eventItem, readItem, if_neg (by decide), if_neg (by decide), if_pos rfl, readEventItem,
    EventId.fromHex_hexEncode codec]
  rfl

theorem foldlM_created (created : List EventId) (items : HistoryItems) :
    (created.map (eventItem externals Nip60.created)).foldlM (readItem externals) items =
      .ok { items with created := items.created ++ created } := by
  refine foldlM_written (fun items created => { items with created := items.created ++ created })
    (fun state => ?_) (fun state eventId => ?_) (fun state eventId rest => ?_) created items
  · rw [List.append_nil]
  · rw [readItem_event codec, if_pos rfl]
  · rw [List.append_assoc]
    rfl

theorem foldlM_destroyed (destroyed : List EventId) (items : HistoryItems) :
    (destroyed.map (eventItem externals Nip60.destroyed)).foldlM (readItem externals) items =
      .ok { items with destroyed := items.destroyed ++ destroyed } := by
  refine foldlM_written (fun items destroyed => { items with destroyed := items.destroyed ++ destroyed })
    (fun state => ?_) (fun state eventId => ?_) (fun state eventId rest => ?_) destroyed items
  · rw [List.append_nil]
  · rw [readItem_event codec, if_neg (by decide), if_pos rfl]
  · rw [List.append_assoc]
    rfl

theorem foldlM_redeemed (eventIds redeemed : List EventId) :
    (eventIds.map (Tag.redeemed externals)).foldlM (readTag externals) redeemed =
      .ok (redeemed ++ eventIds) := by
  refine foldlM_written List.append List.append_nil (fun state eventId => ?_) (fun state eventId rest => ?_) eventIds redeemed
  · simp only [readTag, Tag.redeemed, eventItem, and_self, if_true, EventId.fromHex_hexEncode codec]
    rfl
  · exact List.append_assoc state [eventId] rest

/-- The items that are written for a history. -/
theorem foldlM_data (history : SpendingHistory) :
    ([Nip60.direction, history.direction.asStr] :: [Nip60.amount, toString history.amount.toNat] ::
      (history.created.map (eventItem externals Nip60.created) ++
        history.destroyed.map (eventItem externals Nip60.destroyed))).foldlM (readItem externals) {} =
      .ok ⟨some history.direction, some history.amount, history.created, history.destroyed⟩ := by
  have direction : readItem externals {} [Nip60.direction, history.direction.asStr] =
      .ok { direction := some history.direction } := by
    rw [readItem, if_pos rfl, fromStr_asStr]
    rfl
  have amount : readItem externals { direction := some history.direction }
      [Nip60.amount, toString history.amount.toNat] =
        .ok { direction := some history.direction, amount := some history.amount } := by
    rw [readItem, if_neg (by decide), if_pos rfl, parseAmount_toString]
    rfl
  refine bind_ok.mpr ⟨_, direction, bind_ok.mpr ⟨_, amount, ?_⟩⟩
  rw [List.foldlM_append]
  exact bind_ok.mpr ⟨_, foldlM_created codec _ _, foldlM_destroyed codec _ _⟩

end Items

theorem fromSpendingHistoryEvent_finalized (standard : Standard calls crate) {draws : StorageDraws}
    {secretKey : SecretKey} {history : SpendingHistory} (reads : texts.Reads (history.data calls.externals))
    {cipher : String} (encrypted : calls.encrypt secretKey (calls.publicKey secretKey) draws.nonce
      (texts.write (history.data calls.externals)) = .ok cipher) :
    fromSpendingHistoryEvent calls texts secretKey (calls.publicKey secretKey)
      (finalized calls draws secretKey
        (PreparedSpendingHistoryEvent.intoEventBuilder calls.externals ⟨cipher, history.redeemed⟩)) =
      .ok history := by
  have opened : openContent calls secretKey (calls.publicKey secretKey) (finalized calls draws secretKey
      (PreparedSpendingHistoryEvent.intoEventBuilder calls.externals ⟨cipher, history.redeemed⟩))
        cashuWalletSpendingHistory = _ :=
    openContent_finalized standard draws secretKey _ encrypted
  have items := parseJson_write reads (itemsOf_ofItems _)
  have redeemed := foldlM_redeemed standard.hex history.redeemed []
  refine bind_ok.mpr ⟨_, opened, bind_ok.mpr ⟨_, items, bind_ok.mpr ⟨_, foldlM_data standard.hex history,
    bind_ok.mpr ⟨_, redeemed, ?_⟩⟩⟩⟩
  rfl

end SpendingHistory

/-! ## Quotes -/

namespace QuoteEvent

theorem Tags.expiration_quote (mint : Url crate) (expiration : Timestamp) :
    Tags.expiration [Tag.mint mint, Tag.expiration expiration] = some expiration := by
  have written : Timestamp.fromStr (toString expiration.toNat).toList = some expiration := by
    rw [Timestamp.fromStr, parseUnsigned_toString expiration.toNat_lt]
    exact congrArg some UInt64.ofNat_toNat
  exact written

/-- What comes back expires two weeks after the builder was made. -/
theorem fromQuoteEvent_finalized (standard : Standard calls crate) {draws : StorageDraws} {secretKey : SecretKey}
    {quote : QuoteEvent crate} {cipher : String}
    (encrypted : calls.encrypt secretKey (calls.publicKey secretKey) draws.nonce quote.quoteId = .ok cipher) :
    fromQuoteEvent calls crate secretKey (calls.publicKey secretKey)
      (finalized calls draws secretKey (PreparedQuoteEvent.intoEventBuilder draws.builtAt ⟨cipher, quote.mint⟩)) =
      .ok { quote with expiration := some (draws.builtAt.saturatingAdd quoteLifetime) } := by
  have opened : openContent calls secretKey (calls.publicKey secretKey) (finalized calls draws secretKey
      (PreparedQuoteEvent.intoEventBuilder draws.builtAt ⟨cipher, quote.mint⟩)) cashuWalletQuote = _ :=
    openContent_finalized standard draws secretKey _ encrypted
  refine bind_ok.mpr ⟨_, opened, bind_ok.mpr ⟨quote.mint.serialization, rfl, bind_ok.mpr ⟨quote.mint, ?_, ?_⟩⟩⟩
  · rw [Url.parse_serialization standard.url]
    rfl
  · have expiration := Tags.expiration_quote quote.mint (draws.builtAt.saturatingAdd quoteLifetime)
    exact congrArg (fun expiration => Except.ok (⟨quote.quoteId, quote.mint, expiration⟩ : QuoteEvent crate))
      expiration

end QuoteEvent

/-! ## Storage -/

section Storage

variable (calls : KeyCalls SecretKey) (texts : JsonTexts) (draws : StorageDraws) (secretKey : SecretKey)

/-- The wallet is stored in an event that it is decoded from. -/
def WalletEvent.Survives (wallet : WalletEvent crate) : Prop :=
  ∃ event, wallet.store calls texts draws secretKey = .ok event ∧
    fromWalletEvent calls texts crate secretKey (calls.publicKey secretKey) event = .ok wallet

def TokenEvent.Survives (token : TokenEvent crate) : Prop :=
  ∃ event, token.store calls texts draws secretKey = .ok event ∧
    fromTokenEvent calls texts crate secretKey (calls.publicKey secretKey) event = .ok token

def SpendingHistory.Survives (history : SpendingHistory) : Prop :=
  ∃ event, history.store calls texts draws secretKey = .ok event ∧
    fromSpendingHistoryEvent calls texts secretKey (calls.publicKey secretKey) event = .ok history

def QuoteEvent.Survives (quote : QuoteEvent crate) : Prop :=
  ∃ event, quote.store calls draws secretKey = .ok event ∧
    fromQuoteEvent calls crate secretKey (calls.publicKey secretKey) event = .ok quote

end Storage

section Survival

variable (standard : Standard calls crate) (draws : StorageDraws) (secretKey : SecretKey)
include standard

theorem WalletEvent.survives_iff {wallet : WalletEvent crate} (owned : wallet.privkey ≠ "")
    (minted : wallet.mints ≠ []) (reads : texts.Reads wallet.walletData) :
    wallet.Survives calls texts draws secretKey ↔
      Encrypts calls draws secretKey (texts.write wallet.walletData) :=
  exists_stored_iff_encrypts standard draws secretKey
    (fun cipher => PreparedWalletEvent.intoEventBuilder ⟨cipher⟩) (bind_assoc _ _ _)
    fun _ encrypted => fromWalletEvent_finalized standard owned minted reads encrypted

theorem TokenEvent.survives_iff {token : TokenEvent crate} (reads : texts.Reads token.serialize) :
    token.Survives calls texts draws secretKey ↔
      Encrypts calls draws secretKey (texts.write token.serialize) :=
  exists_stored_iff_encrypts standard draws secretKey
    (fun cipher => PreparedTokenEvent.intoEventBuilder ⟨cipher⟩) (bind_assoc _ _ _)
    fun _ encrypted => fromTokenEvent_finalized standard reads encrypted

theorem SpendingHistory.survives_iff {history : SpendingHistory} (reads : texts.Reads (history.data calls.externals)) :
    history.Survives calls texts draws secretKey ↔
      Encrypts calls draws secretKey (texts.write (history.data calls.externals)) :=
  exists_stored_iff_encrypts standard draws secretKey
    (fun cipher => PreparedSpendingHistoryEvent.intoEventBuilder calls.externals ⟨cipher, history.redeemed⟩)
    (bind_assoc _ _ _) fun _ encrypted => fromSpendingHistoryEvent_finalized standard reads encrypted

theorem QuoteEvent.survives_iff (quote : QuoteEvent crate) : quote.Survives calls draws secretKey ↔
    Encrypts calls draws secretKey quote.quoteId ∧
      quote.expiration = some (draws.builtAt.saturatingAdd quoteLifetime) := by
  refine exists_stored_iff standard draws secretKey
    (fun cipher => PreparedQuoteEvent.intoEventBuilder draws.builtAt ⟨cipher, quote.mint⟩) (bind_assoc _ _ _)
    fun cipher encrypted => ?_
  rw [fromQuoteEvent_finalized standard encrypted]
  obtain ⟨quoteId, mint, expiration⟩ := quote
  simp only [Except.ok.injEq, QuoteEvent.mk.injEq, true_and, eq_comm]

end Survival

/-- A wallet, a token and a history come back whenever they can be encrypted, a quote only
when it expires two weeks after its builder was made. -/
theorem walletData_survives_iff (calls : KeyCalls SecretKey) (texts : JsonTexts) (crate : UrlCrate)
    (standard : Standard calls crate) (draws : StorageDraws) (secretKey : SecretKey) :
    (∀ wallet : WalletEvent crate, wallet.privkey ≠ "" → wallet.mints ≠ [] → texts.Reads wallet.walletData →
      (wallet.Survives calls texts draws secretKey ↔
        Encrypts calls draws secretKey (texts.write wallet.walletData))) ∧
    (∀ token : TokenEvent crate, texts.Reads token.serialize →
      (token.Survives calls texts draws secretKey ↔
        Encrypts calls draws secretKey (texts.write token.serialize))) ∧
    (∀ history : SpendingHistory, texts.Reads (history.data calls.externals) →
      (history.Survives calls texts draws secretKey ↔
        Encrypts calls draws secretKey (texts.write (history.data calls.externals)))) ∧
    ∀ quote : QuoteEvent crate, quote.Survives calls draws secretKey ↔
      Encrypts calls draws secretKey quote.quoteId ∧
        quote.expiration = some (draws.builtAt.saturatingAdd quoteLifetime) := by
  refine ⟨?_, ?_, ?_, ?_⟩
  · intro wallet owned minted reads
    exact WalletEvent.survives_iff standard draws secretKey owned minted reads
  · intro token reads
    exact TokenEvent.survives_iff standard draws secretKey reads
  · intro history reads
    exact SpendingHistory.survives_iff standard draws secretKey reads
  · intro quote
    exact QuoteEvent.survives_iff standard draws secretKey quote

/-! ## A quote without an expiration -/

namespace Nip60

mutual

/-- The compact text of a value. -/
def textOf : JsonValue → String
  | .null => "null"
  | .bool value => toString value
  | .number value => toString value
  | .decimal text => text
  | .string text => Json.string text
  | .array elements => Json.array (textsOf elements)
  | .object entries => Json.object (fieldsOf entries)

def textsOf : List JsonValue → List String
  | [] => []
  | value :: rest => textOf value :: textsOf rest

def fieldsOf : List (String × JsonValue) → List (String × String)
  | [] => []
  | (name, value) :: rest => (name, textOf value) :: fieldsOf rest

end

/-- Three values are read, by their texts. -/
def textsFor (first second third : JsonValue) : JsonTexts where
  write := textOf
  read text :=
    if text = textOf first then .ok first
    else if text = textOf second then .ok second
    else if text = textOf third then .ok third
    else .error ⟨.malformed, "expected value"⟩
  error _ := ⟨.malformed, "invalid type"⟩

theorem textsFor_reads {first second third : JsonValue} (secondOther : textOf second ≠ textOf first)
    (thirdOther : textOf third ≠ textOf first ∧ textOf third ≠ textOf second) :
    (textsFor first second third).Reads first ∧ (textsFor first second third).Reads second ∧
      (textsFor first second third).Reads third := by
  refine ⟨?_, ?_, ?_⟩
  · simp [JsonTexts.Reads, textsFor]
  · simp [JsonTexts.Reads, textsFor, secondOther]
  · simp [JsonTexts.Reads, textsFor, thirdOther]

def sampleCalls : KeyCalls PublicKey := plainCalls sampleSeal sampleNote

theorem sampleCalls_standard : Standard sampleCalls ExternalContentId.sampleUrls where
  decrypts := plainCalls_decrypts sampleSeal sampleNote
  signs _ _ _ := rfl
  hex := hexExternals_hexCodec
  url := ExternalContentId.sampleUrls_roundTrips

def sampleStorage : StorageDraws := ⟨[], 1700000000, 1700000001, []⟩

def sampleWallet : WalletEvent ExternalContentId.sampleUrls := ⟨"k", [ExternalContentId.sampleUrl]⟩

def sampleToken : TokenEvent ExternalContentId.sampleUrls :=
  ⟨ExternalContentId.sampleUrl, [⟨"a", 100, "s", "c"⟩], ["d"]⟩

def sampleHistory : SpendingHistory := ⟨.sent, 50, [.replicate 32 1], [.replicate 32 2], [.replicate 32 3]⟩

def sampleQuote : QuoteEvent ExternalContentId.sampleUrls := ⟨"q", ExternalContentId.sampleUrl, none⟩

def sampleTexts : JsonTexts :=
  textsFor sampleWallet.walletData sampleToken.serialize (sampleHistory.data hexExternals)

end Nip60

theorem walletData_survives_iff_samples :
    sampleWallet.Survives sampleCalls sampleTexts sampleStorage (.replicate 32 1) ∧
    sampleToken.Survives sampleCalls sampleTexts sampleStorage (.replicate 32 1) ∧
    sampleHistory.Survives sampleCalls sampleTexts sampleStorage (.replicate 32 1) ∧
    ({ sampleQuote with expiration := some 1701209600 } : QuoteEvent ExternalContentId.sampleUrls).Survives
      sampleCalls sampleStorage (.replicate 32 1) := by
  have survives := walletData_survives_iff sampleCalls sampleTexts ExternalContentId.sampleUrls
    sampleCalls_standard sampleStorage (.replicate 32 1)
  have encrypts (text : String) : Encrypts sampleCalls sampleStorage (.replicate 32 1) text := ⟨text, rfl⟩
  have reads : sampleTexts.Reads sampleWallet.walletData ∧ sampleTexts.Reads sampleToken.serialize ∧
      sampleTexts.Reads (sampleHistory.data hexExternals) :=
    textsFor_reads (by decide +kernel) ⟨by decide +kernel, by decide +kernel⟩
  exact ⟨(survives.1 sampleWallet (by decide) (by decide) reads.1).mpr (encrypts _),
    (survives.2.1 sampleToken reads.2.1).mpr (encrypts _),
    (survives.2.2.1 sampleHistory reads.2.2).mpr (encrypts _),
    (survives.2.2.2 _).mpr ⟨encrypts _, by decide⟩⟩

/-- The quote can be encrypted, but comes back with an expiration. -/
theorem quote_not_survives :
    ¬ ∀ quote : QuoteEvent ExternalContentId.sampleUrls,
      Encrypts sampleCalls sampleStorage (.replicate 32 1) quote.quoteId →
        quote.Survives sampleCalls sampleStorage (.replicate 32 1) := by
  intro survives
  have expires := (QuoteEvent.survives_iff sampleCalls_standard sampleStorage (.replicate 32 1) sampleQuote).mp
    (survives sampleQuote ⟨"q", rfl⟩)
  cases expires.2

end RustNostr
