import Mathlib
import RustNostr.Library.Fallible
import RustNostr.Nostr.NostrConnect

/-!
# Gift wraps

Rumors in seals in gift wraps (`nostr/src/nips/nip59.rs`), with what builds and signs
events on the way (`nostr/src/event`, `nostr/src/key`). What the code draws at random is
given to it.
-/

set_option autoImplicit false

namespace RustNostr

open Library

namespace Error

def invalidEventId : Error := ⟨.invalid, "invalid event ID"⟩

def invalidSignature : Error := ⟨.invalid, "invalid signature"⟩

def notGiftWrap : Error := ⟨.invalid, "not a gift wrap"⟩

def senderMismatch : Error := ⟨.invalid, "sender mismatch"⟩

/-- `Error::crypto` of another error. -/
def crypto (error : Error) : Error := ⟨.crypto, error.message⟩

end Error

def VerifyError.toError (error : VerifyError) : Error := ⟨.invalid, error.message⟩

/-- Keys, signatures and encryption for a public key, with what is drawn at random for
them, and the reading of JSON. -/
structure KeyCalls (SecretKey : Type) where
  externals : Externals
  crypto : Crypto
  serde : EventSerde
  publicKey : SecretKey → PublicKey
  signSchnorr : SecretKey → Bytes → EventId → Signature
  encrypt : SecretKey → PublicKey → Bytes → String → Except Error String
  decrypt : SecretKey → PublicKey → String → Except Error String

variable {SecretKey : Type} (calls : KeyCalls SecretKey)

/-! ## Events -/

namespace UnsignedEvent

def computeId (unsigned : UnsignedEvent) : EventId :=
  EventId.compute calls.externals calls.crypto unsigned.pubkey unsigned.createdAt unsigned.kind unsigned.tags
    unsigned.content

def ensureId (unsigned : UnsignedEvent) : UnsignedEvent :=
  { unsigned with id := some (unsigned.id.getD (unsigned.computeId calls)) }

/-- `verify_id` of an unsigned event: the ID, when present, is the hash of the fields. -/
def verifyId (unsigned : UnsignedEvent) : Bool :=
  unsigned.id.all fun id => id == unsigned.computeId calls

def addSignature (unsigned : UnsignedEvent) (sig : Signature) : Except Error Event :=
  let event : Event := {
    id := unsigned.id.getD (unsigned.computeId calls)
    pubkey := unsigned.pubkey
    createdAt := unsigned.createdAt
    kind := unsigned.kind
    tags := unsigned.tags
    content := unsigned.content
    sig := sig }
  if unsigned.id.isSome && !event.verifyId calls.externals calls.crypto then .error .invalidEventId
  else if !event.verifySignature calls.crypto then .error .invalidSignature
  else .ok event

end UnsignedEvent

/-- `sign_event` of `Keys` -/
def signEvent (secretKey : SecretKey) (aux : Bytes) (unsigned : UnsignedEvent) : Except Error Event :=
  unsigned.addSignature calls
    (calls.signSchnorr secretKey aux (unsigned.id.getD (unsigned.computeId calls)))

structure EventBuilder where
  kind : Kind
  tags : List Tag := []
  content : String
  createdAt : Option Timestamp := none

namespace EventBuilder

def finalizeUnsigned (now : Timestamp) (builder : EventBuilder) (publicKey : PublicKey) : UnsignedEvent where
  id := none
  pubkey := publicKey
  createdAt := builder.createdAt.getD now
  kind := builder.kind
  tags := builder.tags
  content := builder.content

def finalize (now : Timestamp) (aux : Bytes) (builder : EventBuilder) (secretKey : SecretKey) :
    Except Error Event :=
  signEvent calls secretKey aux (builder.finalizeUnsigned now (calls.publicKey secretKey))

end EventBuilder

/-! ## Wrapping -/

/-- The clock and the numbers that are drawn for one layer. -/
structure Draws where
  now : Timestamp
  tweak : Timestamp
  nonce : Bytes
  aux : Bytes

/-- Up to two days back. -/
def tweakedTimestamp (draws : Draws) : Timestamp :=
  if draws.tweak ≤ draws.now then draws.now - draws.tweak else 0

def sealKind : UInt16 := 13

def giftWrapKind : UInt16 := 1059

structure GiftWrapSealBuilder where
  rumor : UnsignedEvent
  receiver : PublicKey

def GiftWrapSealBuilder.finalize (draws : Draws) (builder : GiftWrapSealBuilder) (secretKey : SecretKey) :
    Except Error Event := do
  let rumor := builder.rumor.ensureId calls
  let content ← (calls.encrypt secretKey builder.receiver draws.nonce
    (rumor.asJson calls.externals)).mapError .crypto
  let sealBuilder : EventBuilder := {
    kind := .fromU16 sealKind
    content := content
    createdAt := some (tweakedTimestamp draws) }
  sealBuilder.finalize calls draws.now draws.aux secretKey

structure GiftWrapBuilder where
  receiver : PublicKey
  rumor : UnsignedEvent
  extraTags : List Tag := []
  /-- The seconds of the duration. -/
  expiration : Option Timestamp := none

/-- `Timestamp + Duration`, which does not overflow. -/
def Timestamp.saturatingAdd (timestamp seconds : Timestamp) : Timestamp :=
  if timestamp.toNat + seconds.toNat < 2 ^ 64 then timestamp + seconds else UInt64.ofNat (2 ^ 64 - 1)

def Tag.publicKey (externals : Externals) (publicKey : PublicKey) : Tag :=
  ⟨["p", publicKey.toHex externals], List.cons_ne_nil _ _⟩

def Tag.expiration (timestamp : Timestamp) : Tag :=
  ⟨["expiration", toString timestamp.toNat], List.cons_ne_nil _ _⟩

/-- The keys are drawn as well. -/
def makeGiftWrap (draws : Draws) (keys : SecretKey) (sealed : Event) (receiver : PublicKey)
    (extraTags : List Tag) (expiration : Option Timestamp) : Except Error Event := do
  let content ← (calls.encrypt keys receiver draws.nonce (sealed.asJson calls.externals)).mapError .crypto
  let createdAt := tweakedTimestamp draws
  let expires := expiration.toList.map fun seconds => Tag.expiration (createdAt.saturatingAdd seconds)
  let builder : EventBuilder := {
    kind := .giftWrap
    tags := extraTags ++ [Tag.publicKey calls.externals receiver] ++ expires
    content := content
    createdAt := some createdAt }
  builder.finalize calls draws.now draws.aux keys

def GiftWrapBuilder.finalize (sealDraws wrapDraws : Draws) (wrapKeys : SecretKey) (builder : GiftWrapBuilder)
    (secretKey : SecretKey) : Except Error Event := do
  let sealed ← GiftWrapSealBuilder.finalize calls sealDraws ⟨builder.rumor, builder.receiver⟩ secretKey
  makeGiftWrap calls wrapDraws wrapKeys sealed builder.receiver builder.extraTags builder.expiration

/-! ## Unwrapping -/

structure UnwrappedGift where
  sender : PublicKey
  rumor : UnsignedEvent
  deriving DecidableEq

def parseAndVerifySeal (sealed : String) : Except Error Event := do
  let sealed ← calls.serde.eventFromJson sealed
  (sealed.verify calls.externals calls.crypto).mapError VerifyError.toError
  .ok sealed

def parseUnwrappedGift (sealed : Event) (rumor : String) : Except Error UnwrappedGift := do
  let rumor ← calls.serde.unsignedFromJson rumor
  if rumor.pubkey ≠ sealed.pubkey then .error .senderMismatch
  else .ok ⟨sealed.pubkey, rumor⟩

/-- `from_gift_wrap`, with the decryption of the signer. -/
def UnwrappedGift.fromGiftWrap (decrypt : PublicKey → String → Except Error String) (giftWrap : Event) :
    Except Error UnwrappedGift :=
  if giftWrap.kind.asU16 ≠ giftWrapKind then .error .notGiftWrap
  else do
    (giftWrap.verify calls.externals calls.crypto).mapError VerifyError.toError
    let sealed ← (decrypt giftWrap.pubkey giftWrap.content).mapError .crypto
    let sealed ← parseAndVerifySeal calls sealed
    let rumor ← (decrypt sealed.pubkey sealed.content).mapError .crypto
    parseUnwrappedGift calls sealed rumor

/-! ## What is accepted -/

/-- The layers of an accepted gift wrap, and what is checked of them. -/
structure Accepted (decrypt : PublicKey → String → Except Error String) (giftWrap : Event)
    (gift : UnwrappedGift) (sealed : Event) (sealText rumorText : String) : Prop where
  kind : giftWrap.kind.asU16 = giftWrapKind
  wrap : giftWrap.Verified calls.externals calls.crypto
  opened : decrypt giftWrap.pubkey giftWrap.content = .ok sealText
  read : calls.serde.eventFromJson sealText = .ok sealed
  verified : sealed.Verified calls.externals calls.crypto
  unsealed : decrypt sealed.pubkey sealed.content = .ok rumorText
  rumor : calls.serde.unsignedFromJson rumorText = .ok gift.rumor
  sender : gift.sender = sealed.pubkey
  author : gift.rumor.pubkey = sealed.pubkey

variable {calls}

theorem parseAndVerifySeal_ok_iff {text : String} {sealed : Event} :
    parseAndVerifySeal calls text = .ok sealed ↔
      calls.serde.eventFromJson text = .ok sealed ∧ sealed.Verified calls.externals calls.crypto := by
  simp only [parseAndVerifySeal, bind_ok, mapError_ok]
  constructor
  · intro ⟨read, found, (), verifies, same⟩
    cases same
    exact ⟨found, Event.verify_ok_iff.mp verifies⟩
  · intro ⟨found, verified⟩
    exact ⟨sealed, found, (), Event.verify_ok_iff.mpr verified, rfl⟩

theorem parseUnwrappedGift_ok_iff {sealed : Event} {text : String} {gift : UnwrappedGift} :
    parseUnwrappedGift calls sealed text = .ok gift ↔
      calls.serde.unsignedFromJson text = .ok gift.rumor ∧ gift.sender = sealed.pubkey ∧
        gift.rumor.pubkey = sealed.pubkey := by
  rw [parseUnwrappedGift, bind_ok]
  constructor
  · intro ⟨rumor, read, checked⟩
    split at checked
    next => cases checked
    next same =>
      cases checked
      exact ⟨read, rfl, of_not_not same⟩
  · intro ⟨read, sender, author⟩
    refine ⟨gift.rumor, read, ?_⟩
    rw [if_neg (not_not.mpr author), ← sender]

theorem fromGiftWrap_ok_iff {decrypt : PublicKey → String → Except Error String} {giftWrap : Event}
    {gift : UnwrappedGift} : UnwrappedGift.fromGiftWrap calls decrypt giftWrap = .ok gift ↔
      ∃ sealed sealText rumorText, Accepted calls decrypt giftWrap gift sealed sealText rumorText := by
  unfold UnwrappedGift.fromGiftWrap
  split
  next other =>
    constructor
    · exact nofun
    · intro ⟨_, _, _, accepted⟩
      exact absurd accepted.kind other
  next kind =>
    simp only [bind_ok, mapError_ok, parseAndVerifySeal_ok_iff, parseUnwrappedGift_ok_iff]
    constructor
    · intro ⟨(), wrap, sealText, opened, sealed, ⟨read, verified⟩, rumorText, unsealed, rumor, sender, author⟩
      exact ⟨sealed, sealText, rumorText, of_not_not kind, Event.verify_ok_iff.mp wrap, opened, read, verified,
        unsealed, rumor, sender, author⟩
    · intro ⟨sealed, sealText, rumorText, accepted⟩
      exact ⟨(), Event.verify_ok_iff.mpr accepted.wrap, sealText, accepted.opened, sealed,
        ⟨accepted.read, accepted.verified⟩, rumorText, accepted.unsealed, accepted.rumor, accepted.sender,
        accepted.author⟩

/-! ## What is wrapped -/

theorem verified_canonical {event : Event} :
    event.canonical.Verified calls.externals calls.crypto ↔ event.Verified calls.externals calls.crypto := by
  simp [Event.Verified, Event.verifyId, Event.verifySignature, Event.canonical, EventId.compute]

/-- A signed event has the fields of the unsigned one. -/
structure Signed (unsigned : UnsignedEvent) (event : Event) : Prop where
  pubkey : event.pubkey = unsigned.pubkey
  kind : event.kind = unsigned.kind
  content : event.content = unsigned.content

theorem addSignature_ok {unsigned : UnsignedEvent} {sig : Signature} {event : Event}
    (added : unsigned.addSignature calls sig = .ok event) :
    event.Verified calls.externals calls.crypto ∧ Signed unsigned event := by
  unfold UnsignedEvent.addSignature at added
  dsimp only at added
  split at added
  next => cases added
  next identified =>
    split at added
    next => cases added
    next signature =>
      cases added
      refine ⟨⟨?_, by simpa using signature⟩, rfl, rfl, rfl⟩
      cases given : unsigned.id with
      | none => simp [Event.verifyId, UnsignedEvent.computeId]
      | some id => simpa [given] using identified

theorem finalize_ok {now : Timestamp} {aux : Bytes} {builder : EventBuilder} {secretKey : SecretKey}
    {event : Event} (built : builder.finalize calls now aux secretKey = .ok event) :
    event.Verified calls.externals calls.crypto ∧ event.pubkey = calls.publicKey secretKey ∧
      event.kind = builder.kind ∧ event.content = builder.content := by
  rw [EventBuilder.finalize, signEvent] at built
  obtain ⟨verified, signed⟩ := addSignature_ok built
  exact ⟨verified, signed.pubkey, signed.kind, signed.content⟩

/-- The layers of a gift wrap that was built. -/
structure Wrapped (calls : KeyCalls SecretKey) (builder : GiftWrapBuilder) (sealDraws wrapDraws : Draws)
    (wrapKeys secretKey : SecretKey) (sealed giftWrap : Event) : Prop where
  sealedRumor : calls.encrypt secretKey builder.receiver sealDraws.nonce
    ((builder.rumor.ensureId calls).asJson calls.externals) = .ok sealed.content
  verified : sealed.Verified calls.externals calls.crypto
  sender : sealed.pubkey = calls.publicKey secretKey
  sealKind : sealed.kind = .fromU16 sealKind
  wrappedSeal : calls.encrypt wrapKeys builder.receiver wrapDraws.nonce (sealed.asJson calls.externals) =
    .ok giftWrap.content
  wrap : giftWrap.Verified calls.externals calls.crypto
  author : giftWrap.pubkey = calls.publicKey wrapKeys
  kind : giftWrap.kind = .giftWrap

theorem wrapped_of_finalize {builder : GiftWrapBuilder} {sealDraws wrapDraws : Draws}
    {wrapKeys secretKey : SecretKey} {giftWrap : Event}
    (built : builder.finalize calls sealDraws wrapDraws wrapKeys secretKey = .ok giftWrap) :
    ∃ sealed, GiftWrapSealBuilder.finalize calls sealDraws ⟨builder.rumor, builder.receiver⟩ secretKey =
        .ok sealed ∧
      Wrapped calls builder sealDraws wrapDraws wrapKeys secretKey sealed giftWrap := by
  obtain ⟨sealed, sealing, wrapping⟩ := bind_ok.mp built
  obtain ⟨rumorCipher, rumorEncrypted, sealBuilt⟩ := bind_ok.mp sealing
  obtain ⟨sealCipher, sealEncrypted, wrapBuilt⟩ := bind_ok.mp wrapping
  obtain ⟨verified, sender, sealKind, sealContent⟩ := finalize_ok sealBuilt
  obtain ⟨wrap, author, kind, content⟩ := finalize_ok wrapBuilt
  rw [mapError_ok] at rumorEncrypted sealEncrypted
  dsimp only at sealContent content
  refine ⟨sealed, sealing, ?_, verified, sender, sealKind, ?_, wrap, author, kind⟩
  · rw [sealContent]
    exact rumorEncrypted
  · rw [content]
    exact sealEncrypted

/-- The receiver decrypts what was encrypted for it. -/
def Decrypts (calls : KeyCalls SecretKey) : Prop :=
  ∀ sender receiver nonce text cipher,
    calls.encrypt sender (calls.publicKey receiver) nonce text = .ok cipher →
    calls.decrypt receiver (calls.publicKey sender) cipher = .ok text

theorem fromGiftWrap_of_wrapped {builder : GiftWrapBuilder} {sealDraws wrapDraws : Draws}
    {wrapKeys sender receiver : SecretKey} {sealed giftWrap : Event} (decrypts : Decrypts calls)
    (received : builder.receiver = calls.publicKey receiver)
    (wrapped : Wrapped calls builder sealDraws wrapDraws wrapKeys sender sealed giftWrap)
    (readsSeal : calls.serde.ReadsEvent calls.externals sealed)
    (readsRumor : calls.serde.ReadsUnsigned calls.externals (builder.rumor.ensureId calls)) :
    UnwrappedGift.fromGiftWrap calls (calls.decrypt receiver) giftWrap =
      if builder.rumor.pubkey = calls.publicKey sender then
        .ok ⟨calls.publicKey sender, (builder.rumor.ensureId calls).canonical⟩
      else .error .senderMismatch := by
  have opened : calls.decrypt receiver giftWrap.pubkey giftWrap.content =
      .ok (sealed.asJson calls.externals) := by
    rw [wrapped.author]
    exact decrypts _ _ _ _ _ (received ▸ wrapped.wrappedSeal)
  have unsealed : calls.decrypt receiver sealed.canonical.pubkey sealed.canonical.content =
      .ok ((builder.rumor.ensureId calls).asJson calls.externals) := by
    change calls.decrypt receiver sealed.pubkey sealed.content = _
    rw [wrapped.sender]
    exact decrypts _ _ _ _ _ (received ▸ wrapped.sealedRumor)
  have sealRead : parseAndVerifySeal calls (sealed.asJson calls.externals) = .ok sealed.canonical :=
    parseAndVerifySeal_ok_iff.mpr ⟨readsSeal, verified_canonical.mpr wrapped.verified⟩
  have kind : ¬ giftWrap.kind.asU16 ≠ giftWrapKind := by
    rw [wrapped.kind]
    exact not_not.mpr rfl
  have rumorRead : calls.serde.unsignedFromJson ((builder.rumor.ensureId calls).asJson calls.externals) =
      .ok (builder.rumor.ensureId calls).canonical := readsRumor
  rw [UnwrappedGift.fromGiftWrap, if_neg kind, Event.verify_ok_iff.mpr wrapped.wrap]
  simp only [opened, sealRead, unsealed, bind, Except.bind, Except.mapError, parseUnwrappedGift, rumorRead]
  have author : (builder.rumor.ensureId calls).canonical.pubkey = builder.rumor.pubkey := rfl
  have sealAuthor : sealed.canonical.pubkey = calls.publicKey sender := wrapped.sender
  rw [author, sealAuthor]
  by_cases own : builder.rumor.pubkey = calls.publicKey sender
  · rw [if_pos own, if_neg (not_not.mpr own)]
  · rw [if_neg own, if_pos own]

/-- What an accepted gift wrap was checked for, and what comes back of a rumor that was
wrapped: the rumor with its ID, if it is the sender's own. -/
theorem giftWrap_authentic (calls : KeyCalls SecretKey) :
    (∀ decrypt giftWrap gift, UnwrappedGift.fromGiftWrap calls decrypt giftWrap = .ok gift ↔
      ∃ sealed sealText rumorText, Accepted calls decrypt giftWrap gift sealed sealText rumorText) ∧
    ∀ (builder : GiftWrapBuilder) (sealDraws wrapDraws : Draws) (wrapKeys sender receiver : SecretKey)
      (giftWrap : Event), Decrypts calls → builder.receiver = calls.publicKey receiver →
      calls.serde.ReadsUnsigned calls.externals (builder.rumor.ensureId calls) →
      (∀ sealed, GiftWrapSealBuilder.finalize calls sealDraws ⟨builder.rumor, builder.receiver⟩ sender =
        .ok sealed → calls.serde.ReadsEvent calls.externals sealed) →
      builder.finalize calls sealDraws wrapDraws wrapKeys sender = .ok giftWrap →
      UnwrappedGift.fromGiftWrap calls (calls.decrypt receiver) giftWrap =
        if builder.rumor.pubkey = calls.publicKey sender then
          .ok ⟨calls.publicKey sender, (builder.rumor.ensureId calls).canonical⟩
        else .error .senderMismatch := by
  refine ⟨fun _ _ _ => fromGiftWrap_ok_iff, ?_⟩
  intro builder sealDraws wrapDraws wrapKeys sender receiver giftWrap decrypts received readsRumor readsSeal
    built
  obtain ⟨sealed, sealing, wrapped⟩ := wrapped_of_finalize built
  exact fromGiftWrap_of_wrapped decrypts received wrapped (readsSeal sealed sealing) readsRumor

/-! ## Two gifts -/

/-- A cipher that changes nothing, a hash and a signature that are always the same, and
the reading of one event and one rumor. -/
def plainCalls (sealed : Event) (rumor : UnsignedEvent) : KeyCalls PublicKey where
  externals := hexExternals
  crypto := { sha256 _ := .replicate 32 2, verifySchnorr _ _ _ := true }
  serde := {
    eventFromJson text :=
      if text = sealed.asJson hexExternals then .ok sealed.canonical else .error .invalidRequest
    unsignedFromJson text :=
      if text = rumor.asJson hexExternals then .ok rumor.canonical else .error .invalidRequest }
  publicKey key := key
  signSchnorr _ _ _ := .replicate 64 3
  encrypt _ _ _ text := .ok text
  decrypt _ _ text := .ok text

theorem plainCalls_decrypts (sealed : Event) (rumor : UnsignedEvent) : Decrypts (plainCalls sealed rumor) := by
  intro sender receiver nonce text cipher encrypted
  cases encrypted
  rfl

theorem plainCalls_readsEvent (sealed : Event) (rumor : UnsignedEvent) :
    (plainCalls sealed rumor).serde.ReadsEvent hexExternals sealed := by
  simp [EventSerde.ReadsEvent, plainCalls]

theorem plainCalls_readsUnsigned (sealed : Event) (rumor : UnsignedEvent) :
    (plainCalls sealed rumor).serde.ReadsUnsigned hexExternals rumor := by
  simp [EventSerde.ReadsUnsigned, plainCalls]

/-- The sample with the hash of every event. -/
def sampleNoteWithId : UnsignedEvent := { sampleNote with id := some (.replicate 32 2) }

def sampleDraws : Draws := ⟨1700000000, 3600, [], []⟩

def sampleSeal : Event where
  id := .replicate 32 2
  pubkey := .replicate 32 1
  createdAt := 1699996400
  kind := .fromU16 sealKind
  tags := []
  content := sampleNoteWithId.asJson hexExternals
  sig := .replicate 64 3

def noteGift : GiftWrapBuilder where
  receiver := .replicate 32 4
  rumor := sampleNote

def sampleGiftWrap : Event where
  id := .replicate 32 2
  pubkey := .replicate 32 5
  createdAt := 1699996400
  kind := .giftWrap
  tags := [Tag.publicKey hexExternals (.replicate 32 4)]
  content := sampleSeal.asJson hexExternals
  sig := .replicate 64 3

theorem noteGift_finalize :
    noteGift.finalize (plainCalls sampleSeal sampleNoteWithId) sampleDraws sampleDraws (.replicate 32 5)
      (.replicate 32 1) = .ok sampleGiftWrap := by
  rfl

/-- The note of the sample, wrapped and unwrapped. -/
theorem giftWrap_authentic_note :
    UnwrappedGift.fromGiftWrap (plainCalls sampleSeal sampleNoteWithId)
        ((plainCalls sampleSeal sampleNoteWithId).decrypt (.replicate 32 4)) sampleGiftWrap =
      .ok ⟨.replicate 32 1, sampleNoteWithId.canonical⟩ := by
  have unwrapped := (giftWrap_authentic (plainCalls sampleSeal sampleNoteWithId)).2 noteGift sampleDraws
    sampleDraws (.replicate 32 5) (.replicate 32 1) (.replicate 32 4) sampleGiftWrap
    (plainCalls_decrypts _ _) rfl (plainCalls_readsUnsigned sampleSeal sampleNoteWithId)
    (by
      intro sealed sealing
      have same : Except.ok sampleSeal = Except.ok sealed := sealing
      cases same
      exact plainCalls_readsEvent sampleSeal sampleNoteWithId)
    noteGift_finalize
  exact unwrapped.trans (if_pos rfl)

/-! ## What is not checked -/

/-- An ID that is not the hash. -/
def strayNote : UnsignedEvent := { sampleNote with id := some (.replicate 32 9) }

/-- A note with an encrypted content, in the place of a seal. -/
def noteForSeal : Event :=
  { sampleSeal with kind := .fromU16 1, content := strayNote.asJson hexExternals }

def strayGiftWrap : Event := { sampleGiftWrap with content := noteForSeal.asJson hexExternals }

/-- A note that is no seal is opened, to a rumor with an ID that is not its hash; and a
rumor that is wrapped without its ID comes back with it. -/
theorem giftWrap_unchecked :
    (¬ ∀ gift sealed sealText rumorText,
      Accepted (plainCalls noteForSeal strayNote) (fun _ text => .ok text) strayGiftWrap gift sealed sealText
        rumorText →
      sealed.kind.asU16 = sealKind ∧ gift.rumor.verifyId (plainCalls noteForSeal strayNote) = true) ∧
    ¬ ∀ gift, UnwrappedGift.fromGiftWrap (plainCalls sampleSeal sampleNoteWithId) (fun _ text => .ok text)
      sampleGiftWrap = .ok gift → gift.rumor = noteGift.rumor := by
  constructor
  · intro checked
    have accepted : Accepted (plainCalls noteForSeal strayNote) (fun _ text => .ok text) strayGiftWrap
        ⟨.replicate 32 1, strayNote.canonical⟩ noteForSeal.canonical (noteForSeal.asJson hexExternals)
        (strayNote.asJson hexExternals) := {
      kind := rfl
      wrap := by decide
      opened := rfl
      read := plainCalls_readsEvent noteForSeal strayNote
      verified := by decide
      unsealed := rfl
      rumor := plainCalls_readsUnsigned noteForSeal strayNote
      sender := rfl
      author := rfl }
    exact absurd (checked _ _ _ _ accepted).1 (by decide)
  · intro same
    have rumor := same ⟨.replicate 32 1, sampleNoteWithId.canonical⟩ giftWrap_authentic_note
    have id : some (FixedBytes.replicate 32 2) = none := congrArg UnsignedEvent.id rumor
    cases id

end RustNostr
