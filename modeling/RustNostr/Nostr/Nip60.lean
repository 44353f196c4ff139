import Mathlib
import RustNostr.Nostr.MessageJson
import RustNostr.Nostr.TagValues

/-!
# Cashu wallets

Wallets, tokens, spending histories and quotes as events and back
(`nostr/src/nips/nip60.rs`).
-/

set_option autoImplicit false

namespace RustNostr

open Library JsonValue SeqReader

namespace Error

def foundMultiplePrivKeys : Error := ⟨.invalid, "found multiple private keys"⟩

def missingField (field : String) : Error := ⟨.missing, field⟩

end Error

/-- `serde_json` on texts: what it writes and reads, and its errors. -/
structure JsonTexts where
  write : JsonValue → String
  read : String → Except Error JsonValue
  error : MessageError → Error

/-- The text of a value is read as the value. -/
def JsonTexts.Reads (texts : JsonTexts) (value : JsonValue) : Prop :=
  texts.read (texts.write value) = .ok value

namespace Nip60

def privkey : String := "privkey"

def mint : String := "mint"

def direction : String := "direction"

def amount : String := "amount"

def eTag : String := "e"

def created : String := "created"

def destroyed : String := "destroyed"

def redeemed : String := "redeemed"

def cashuWallet : Kind := .fromU16 17375

def cashuWalletUnspentProof : Kind := .fromU16 7375

def cashuWalletSpendingHistory : Kind := .fromU16 7376

def cashuWalletQuote : Kind := .fromU16 7374

/-- `Vec<Vec<String>>` -/
def itemsOf (value : JsonValue) : Except MessageError (List (List String)) :=
  (asList (asList asString) value).mapError .json

def ofItems (items : List (List String)) : JsonValue := array (items.map fun item => array (item.map string))

section Decoding

variable {SecretKey : Type} (calls : KeyCalls SecretKey) (texts : JsonTexts)

def validateWalletEvent (walletPublicKey : PublicKey) (event : Event) (expectedKind : Kind) : Except Error Unit :=
  if event.pubkey ≠ walletPublicKey then .error ⟨.invalid, "wallet event author mismatch"⟩
  else if !(event.kind == expectedKind) then .error ⟨.invalid, "invalid wallet event kind"⟩
  else if !event.verifyId calls.externals calls.crypto then .error ⟨.invalid, "invalid wallet event ID"⟩
  else if !event.verifySignature calls.crypto then .error ⟨.invalid, "invalid wallet event signature"⟩
  else .ok ()

/-- The content of a wallet event. -/
def openContent (secretKey : SecretKey) (walletPublicKey : PublicKey) (event : Event) (expectedKind : Kind) :
    Except Error String := do
  validateWalletEvent calls walletPublicKey event expectedKind
  calls.decrypt secretKey walletPublicKey event.content

/-- `parse_json` -/
def parseJson {α : Type} (deserialize : JsonValue → Except MessageError α) (text : String) : Except Error α := do
  let value ← texts.read text
  (deserialize value).mapError texts.error

end Decoding

/-- The tag of an event, or the item for it, with its role. -/
def eventItem (externals : Externals) (marker : String) (eventId : EventId) : List String :=
  [eTag, externals.hexEncode eventId.val, "", marker]

end Nip60

open Nip60

variable {SecretKey : Type} (calls : KeyCalls SecretKey) (texts : JsonTexts) {crate : UrlCrate}

/-! ## Wallets -/

structure WalletEvent (crate : UrlCrate) where
  privkey : String
  mints : List (Url crate)
  deriving DecidableEq

structure PreparedWalletEvent where
  content : String

namespace WalletEvent

/-- One turn of the loop in `from_wallet_event`. -/
def readItem (wallet : WalletEvent crate) (item : List String) : Except Error (WalletEvent crate) :=
  match item with
  | key :: value :: _ =>
      if key = Nip60.privkey then
        if wallet.privkey = "" then .ok { wallet with privkey := value } else .error .foundMultiplePrivKeys
      else if key = Nip60.mint then
        match Url.parse crate value with
        | .ok url => .ok { wallet with mints := wallet.mints ++ [url] }
        | .error _ => .ok wallet
      else .ok wallet
  | _ => .ok wallet

def fromWalletEvent (crate : UrlCrate) (secretKey : SecretKey) (walletPublicKey : PublicKey) (event : Event) :
    Except Error (WalletEvent crate) := do
  let decrypted ← openContent calls secretKey walletPublicKey event cashuWallet
  let walletData ← parseJson texts itemsOf decrypted
  let wallet ← walletData.foldlM readItem ⟨"", []⟩
  if wallet.privkey = "" then .error (.missingField Nip60.privkey)
  else if wallet.mints = [] then .error (.missingField Nip60.mint)
  else .ok wallet

def walletData (wallet : WalletEvent crate) : JsonValue :=
  ofItems ([Nip60.privkey, wallet.privkey] :: wallet.mints.map fun url => [Nip60.mint, url.serialization])

def prepare (secretKey : SecretKey) (publicKey : PublicKey) (nonce : Bytes) (wallet : WalletEvent crate) :
    Except Error PreparedWalletEvent := do
  let content ← calls.encrypt secretKey publicKey nonce (texts.write wallet.walletData)
  .ok ⟨content⟩

end WalletEvent

def PreparedWalletEvent.intoEventBuilder (prepared : PreparedWalletEvent) : EventBuilder where
  kind := cashuWallet
  content := prepared.content

/-! ## Tokens -/

structure CashuProof where
  id : String
  amount : UInt64
  secret : String
  c : String
  deriving DecidableEq

structure TokenEvent (crate : UrlCrate) where
  mint : Url crate
  proofs : List CashuProof
  del : List String
  deriving DecidableEq

structure PreparedTokenEvent where
  content : String

namespace CashuProof

def serialize (proof : CashuProof) : JsonValue :=
  object [("id", string proof.id), ("amount", number proof.amount.toNat), ("secret", string proof.secret),
    ("c", string proof.c)]

def asAmount (value : JsonValue) : Except JsonError UInt64 := (asUnsigned (2 ^ 64) value).map UInt64.ofNat

def visitMap (entries : List (String × JsonValue)) : Except MessageError CashuProof := do
  let id ← requiredField entries "id" asString
  let amount ← requiredField entries "amount" asAmount
  let secret ← requiredField entries "secret" asString
  let c ← requiredField entries "c" asString
  .ok { id, amount, secret, c }

def visitSeq : MessageReader CashuProof := do
  let id ← positionalField 0 asString
  let amount ← positionalField 1 asAmount
  let secret ← positionalField 2 asString
  let c ← positionalField 3 asString
  pure { id, amount, secret, c }

def deserialize : JsonValue → Except MessageError CashuProof
  | object entries => visitMap entries
  | array elements => wholeArray visitSeq elements
  | _ => .error (.json .invalidType)

end CashuProof

namespace TokenEvent

def serialize (token : TokenEvent crate) : JsonValue :=
  object [("mint", string token.mint.serialization), ("proofs", array (token.proofs.map CashuProof.serialize)),
    ("del", array (token.del.map string))]

def deserializeMint (crate : UrlCrate) (value : JsonValue) : Except MessageError (Url crate) := do
  let text ← (asString value).mapError .json
  (Url.parse crate text).mapError fun error => .custom error.message

def deserializeProofs : JsonValue → Except MessageError (List CashuProof)
  | array elements => elements.mapM CashuProof.deserialize
  | _ => .error (.json .invalidType)

def deserializeDel (value : JsonValue) : Except MessageError (List String) :=
  (asList asString value).mapError .json

/-- A field whose reader has errors of its own. -/
def field {α : Type} (entries : List (String × JsonValue)) (name : String)
    (read : JsonValue → Except MessageError α) : Except MessageError α := do
  let value ← requiredField entries name .ok
  read value

def visitMap (crate : UrlCrate) (entries : List (String × JsonValue)) : Except MessageError (TokenEvent crate) := do
  let mint ← field entries "mint" (deserializeMint crate)
  let proofs ← field entries "proofs" deserializeProofs
  let del ← field entries "del" deserializeDel
  .ok { mint, proofs, del }

def visitSeq (crate : UrlCrate) : MessageReader (TokenEvent crate) := do
  let mint ← next (.invalidLength 0) (deserializeMint crate)
  let proofs ← next (.invalidLength 1) deserializeProofs
  let del ← next (.invalidLength 2) deserializeDel
  pure { mint, proofs, del }

def deserialize (crate : UrlCrate) : JsonValue → Except MessageError (TokenEvent crate)
  | object entries => visitMap crate entries
  | array elements => wholeArray (visitSeq crate) elements
  | _ => .error (.json .invalidType)

def fromTokenEvent (crate : UrlCrate) (secretKey : SecretKey) (walletPublicKey : PublicKey) (event : Event) :
    Except Error (TokenEvent crate) := do
  let decrypted ← openContent calls secretKey walletPublicKey event cashuWalletUnspentProof
  parseJson texts (deserialize crate) decrypted

def prepare (secretKey : SecretKey) (publicKey : PublicKey) (nonce : Bytes) (token : TokenEvent crate) :
    Except Error PreparedTokenEvent := do
  let content ← calls.encrypt secretKey publicKey nonce (texts.write token.serialize)
  .ok ⟨content⟩

end TokenEvent

def PreparedTokenEvent.intoEventBuilder (prepared : PreparedTokenEvent) : EventBuilder where
  kind := cashuWalletUnspentProof
  content := prepared.content

/-! ## Spending history -/

/-- `In` and `Out` -/
inductive TransactionDirection where
  | received
  | sent
  deriving DecidableEq

namespace TransactionDirection

def asStr : TransactionDirection → String
  | received => "in"
  | sent => "out"

def fromStr (text : String) : Except Error TransactionDirection :=
  if text = "in" then .ok received
  else if text = "out" then .ok sent
  else .error ⟨.invalid, "invalid direction"⟩

end TransactionDirection

structure SpendingHistory where
  direction : TransactionDirection
  amount : UInt64
  created : List EventId
  destroyed : List EventId
  redeemed : List EventId
  deriving DecidableEq

structure PreparedSpendingHistoryEvent where
  content : String
  redeemed : List EventId

/-- What the loops in `from_spending_history_event` have found. -/
structure HistoryItems where
  direction : Option TransactionDirection := none
  amount : Option UInt64 := none
  created : List EventId := []
  destroyed : List EventId := []
  deriving DecidableEq

namespace SpendingHistory

def parseAmount (text : String) : Except Error UInt64 :=
  match parseUnsigned (2 ^ 64) text.toList with
  | some sats => .ok (.ofNat sats)
  | none => .error ⟨.invalid, "invalid amount"⟩

/-- An item for an event goes where its marker says. -/
def readEventItem (externals : Externals) (items : HistoryItems) (id : String) (behind : List String) :
    Except Error HistoryItems :=
  match behind with
  | _ :: marker :: _ => do
      let eventId ← EventId.fromHex externals id
      if marker = Nip60.created then .ok { items with created := items.created ++ [eventId] }
      else if marker = Nip60.destroyed then .ok { items with destroyed := items.destroyed ++ [eventId] }
      else .ok items
  | _ => .ok items

def readItem (externals : Externals) (items : HistoryItems) (item : List String) : Except Error HistoryItems :=
  match item with
  | key :: value :: behind =>
      if key = Nip60.direction then do
        let direction ← TransactionDirection.fromStr value
        .ok { items with direction := some direction }
      else if key = Nip60.amount then do
        let amount ← parseAmount value
        .ok { items with amount := some amount }
      else if key = eTag then readEventItem externals items value behind
      else .ok items
  | _ => .ok items

/-- A tag for an event that was redeemed. -/
def readTag (externals : Externals) (redeemed : List EventId) (tag : Tag) : Except Error (List EventId) :=
  match tag.buf with
  | key :: id :: _ :: marker :: _ =>
      if key = eTag ∧ marker = Nip60.redeemed then do
        let eventId ← EventId.fromHex externals id
        .ok (redeemed ++ [eventId])
      else .ok redeemed
  | _ => .ok redeemed

def fromSpendingHistoryEvent (secretKey : SecretKey) (walletPublicKey : PublicKey) (event : Event) :
    Except Error SpendingHistory := do
  let decrypted ← openContent calls secretKey walletPublicKey event cashuWalletSpendingHistory
  let data ← parseJson texts itemsOf decrypted
  let items ← data.foldlM (readItem calls.externals) {}
  let redeemed ← event.tags.foldlM (readTag calls.externals) []
  let direction ← items.direction.elim (.error (.missingField Nip60.direction)) .ok
  let amount ← items.amount.elim (.error (.missingField Nip60.amount)) .ok
  .ok { direction, amount, created := items.created, destroyed := items.destroyed, redeemed }

def data (externals : Externals) (history : SpendingHistory) : JsonValue :=
  ofItems ([Nip60.direction, history.direction.asStr] :: [Nip60.amount, toString history.amount.toNat] ::
    (history.created.map (eventItem externals Nip60.created) ++
      history.destroyed.map (eventItem externals Nip60.destroyed)))

def prepare (secretKey : SecretKey) (publicKey : PublicKey) (nonce : Bytes) (history : SpendingHistory) :
    Except Error PreparedSpendingHistoryEvent := do
  let content ← calls.encrypt secretKey publicKey nonce (texts.write (history.data calls.externals))
  .ok ⟨content, history.redeemed⟩

end SpendingHistory

/-- `Tag::custom("e", …)` -/
def Tag.redeemed (externals : Externals) (eventId : EventId) : Tag :=
  ⟨eventItem externals Nip60.redeemed eventId, List.cons_ne_nil _ _⟩

def PreparedSpendingHistoryEvent.intoEventBuilder (externals : Externals)
    (prepared : PreparedSpendingHistoryEvent) : EventBuilder where
  kind := cashuWalletSpendingHistory
  content := prepared.content
  tags := prepared.redeemed.map (Tag.redeemed externals)

/-! ## Quotes -/

structure QuoteEvent (crate : UrlCrate) where
  quoteId : String
  mint : Url crate
  expiration : Option Timestamp
  deriving DecidableEq

structure PreparedQuoteEvent (crate : UrlCrate) where
  content : String
  mint : Url crate

namespace QuoteEvent

def fromQuoteEvent (crate : UrlCrate) (secretKey : SecretKey) (walletPublicKey : PublicKey) (event : Event) :
    Except Error (QuoteEvent crate) := do
  let quoteId ← openContent calls secretKey walletPublicKey event cashuWalletQuote
  let text ← ((event.tags.find? fun tag => tag.kind = Nip60.mint).bind Tag.content).elim
    (.error ⟨.missing, "missing mint tag"⟩) .ok
  let mint ← (Url.parse crate text).mapError fun _ => ⟨.invalid, "invalid mint URL"⟩
  .ok { quoteId, mint, expiration := Tags.expiration event.tags }

/-- The expiration is not taken along. -/
def prepare (secretKey : SecretKey) (publicKey : PublicKey) (nonce : Bytes) (quote : QuoteEvent crate) :
    Except Error (PreparedQuoteEvent crate) := do
  let content ← calls.encrypt secretKey publicKey nonce quote.quoteId
  .ok ⟨content, quote.mint⟩

end QuoteEvent

/-- `14 * 24 * 60 * 60` -/
def Nip60.quoteLifetime : Timestamp := 14 * 24 * 60 * 60

/-- `Tag::custom(MINT, …)` -/
def Tag.mint (url : Url crate) : Tag := ⟨[Nip60.mint, url.serialization], List.cons_ne_nil _ _⟩

def PreparedQuoteEvent.intoEventBuilder (now : Timestamp) (prepared : PreparedQuoteEvent crate) :
    EventBuilder where
  kind := cashuWalletQuote
  content := prepared.content
  tags := [Tag.mint prepared.mint, Tag.expiration (now.saturatingAdd quoteLifetime)]

/-! ## Storage -/

/-- The nonce of the encryption, the times at which the builder is made and the event
is finalised, and the randomness of the signature. -/
structure Nip60.StorageDraws where
  nonce : Bytes
  builtAt : Timestamp
  finalizedAt : Timestamp
  aux : Bytes

variable (draws : Nip60.StorageDraws) (secretKey : SecretKey)

def Nip60.StorageDraws.finalize (builder : EventBuilder) : Except Error Event :=
  builder.finalize calls draws.finalizedAt draws.aux secretKey

def WalletEvent.store (wallet : WalletEvent crate) : Except Error Event := do
  let prepared ← wallet.prepare calls texts secretKey (calls.publicKey secretKey) draws.nonce
  draws.finalize calls secretKey prepared.intoEventBuilder

def TokenEvent.store (token : TokenEvent crate) : Except Error Event := do
  let prepared ← token.prepare calls texts secretKey (calls.publicKey secretKey) draws.nonce
  draws.finalize calls secretKey prepared.intoEventBuilder

def SpendingHistory.store (history : SpendingHistory) : Except Error Event := do
  let prepared ← history.prepare calls texts secretKey (calls.publicKey secretKey) draws.nonce
  draws.finalize calls secretKey (prepared.intoEventBuilder calls.externals)

def QuoteEvent.store (quote : QuoteEvent crate) : Except Error Event := do
  let prepared ← quote.prepare calls secretKey (calls.publicKey secretKey) draws.nonce
  draws.finalize calls secretKey (prepared.intoEventBuilder draws.builtAt)

end RustNostr
