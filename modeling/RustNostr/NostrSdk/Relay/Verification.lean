import Mathlib
import RustNostr.NostrSdk.Relay.HandleEvent

/-!
# Verified events

What the relays of a client hand out of the EVENT messages they receive, in any
order, while they share one verification cache.
-/

set_option autoImplicit false

namespace RustNostr.NostrSdk

open Library Transaction

/-- One relay handles one message, and the cache is left for the next. -/
def Receive (externals : Externals) (crypto : Crypto) (cache : LruCache EventId)
    (label : Received × Handled) (cache' : LruCache EventId) : Prop :=
  label.2 = label.1.handle externals crypto cache ∧ cache' = label.2.cache

theorem receive_handle (externals : Externals) (crypto : Crypto) (cache : LruCache EventId)
    (received : Received) :
    Receive externals crypto cache (received, received.handle externals crypto cache)
      (received.handle externals crypto cache).cache :=
  ⟨rfl, rfl⟩

/-- The call hands the event on, or has handed it to the policy, the database,
the notification receivers or gossip. -/
def Handled.Delivers (handled : Handled) (event : Event) : Prop :=
  handled.outcome = .ok event ∨ ∃ effect ∈ handled.effects, effect.event? = some event

namespace Received

variable (externals : Externals) (crypto : Crypto) (received : Received)

/-- The event of the message, once it has passed verification. -/
def Accepted (cache : LruCache EventId) (event : Event) : Prop :=
  event = received.event ∧
    (cache.contains event.id = true ∨ event.Verified externals crypto)

def Emits (allowed : Event → Prop) (handling : Handling) : Prop :=
  ∀ effect ∈ handling.effects, ∀ event, effect.event? = some event → allowed event

/-- What holds while the cache is as given. -/
def Emitting (allowed : Event → Prop) (cache : LruCache EventId) (handling : Handling) : Prop :=
  handling.cache = cache ∧ Emits allowed handling

variable {received} {allowed : Event → Prop} {cache : LruCache EventId}

theorem Emitting.add {handling : Handling} {effect : Effect}
    (may : ∀ event, effect.event? = some event → allowed event)
    (emitting : Emitting allowed cache handling) :
    Emitting allowed cache (handling.add effect) := by
  obtain ⟨same, emits⟩ := emitting
  constructor
  · exact same
  · intro other member event carries
    cases List.mem_append.mp member with
    | inl before => exact emits other before event carries
    | inr here =>
        cases List.mem_singleton.mp here
        exact may event carries

theorem Emitting.add_silent {handling : Handling} {effect : Effect} (silent : effect.event? = none)
    (emitting : Emitting allowed cache handling) :
    Emitting allowed cache (handling.add effect) :=
  emitting.add fun event carries => by simp [silent] at carries

theorem Emitting.add_event {handling : Handling} {effect : Effect} {event : Event}
    (may : allowed event) (carries : effect.event? = some event)
    (emitting : Emitting allowed cache handling) :
    Emitting allowed cache (handling.add effect) :=
  emitting.add fun other same => by
    cases carries.symm.trans same
    exact may

theorem attributeRaw_emits : Preserves (Emitting allowed cache) received.attributeRaw := by
  unfold attributeRaw
  apply Preserves.ite
  · split
    · exact Preserves.throw _
    · split
      · exact Preserves.pure _
      · exact Preserves.bind (emit_preserves fun _ => Emitting.add_silent rfl) fun _ =>
          Preserves.ite (Preserves.pure _) (Preserves.throw _)
  · exact Preserves.pure none

variable (received) in
/-- How a call stands when it ends: nothing but the accepted event has gone
out, and the cache is untouched or the one verification left behind. -/
def Ended (cache : LruCache EventId) (outcome : Except Exit Event) (handling : Handling) : Prop :=
  Emits (received.Accepted externals crypto cache) handling ∧
  (∀ event, outcome = .ok event → received.Accepted externals crypto cache event) ∧
  (handling.cache = cache ∨ handling.cache =
    ((SharedState.verifyAndCache externals crypto received.event).run cache).2)

theorem Ended.of_error {error : Exit} {handling : Handling}
    (emits : Emits (received.Accepted externals crypto cache) handling)
    (left : handling.cache = cache ∨ handling.cache =
      ((SharedState.verifyAndCache externals crypto received.event).run cache).2) :
    received.Ended externals crypto cache (.error error) handling :=
  ⟨emits, fun _ returned => (by cases returned), left⟩

theorem verify_emits :
    Triple (Emitting (received.Accepted externals crypto cache) cache)
      (received.verify externals crypto) fun outcome handling =>
        Emitting (received.Accepted externals crypto cache)
          ((SharedState.verifyAndCache externals crypto received.event).run cache).2 handling ∧
        (outcome = .ok () → received.Accepted externals crypto cache received.event) := by
  intro handling emitting
  obtain ⟨same, emits⟩ := emitting
  subst same
  refine ⟨⟨rfl, emits⟩, fun passed => ⟨rfl, ?_⟩⟩
  apply (SharedState.verifyAndCache_ok_iff externals crypto).mp
  have passed : ((SharedState.verifyAndCache externals crypto received.event).run
      handling.cache).1.mapError Exit.failed = .ok () := passed
  revert passed
  cases ((SharedState.verifyAndCache externals crypto received.event).run handling.cache).1 with
  | ok _ => exact fun _ => rfl
  | error error => exact fun passed => by cases passed

/-- Once the event is accepted, the rest of the call may hand it out. -/
theorem deliver_emits {after : LruCache EventId} {isAcquisition : Bool} {raw : Option Ref}
    (accepted : received.Accepted externals crypto cache received.event)
    (left : after = ((SharedState.verifyAndCache externals crypto received.event).run cache).2) :
    Triple (Emitting (received.Accepted externals crypto cache) after)
      (received.deliver raw isAcquisition) (received.Ended externals crypto cache) := by
  have failed : ∀ error handling,
      Emitting (received.Accepted externals crypto cache) after handling →
        received.Ended externals crypto cache (.error error) handling := by
    intro error handling emitting
    exact .of_error externals crypto emitting.2 (.inr (emitting.1.trans left))
  unfold deliver
  apply Preserves.then_triple
      (received.admit_preserves fun _ => Emitting.add_event accepted rfl) failed
  intro _
  apply Preserves.then_triple
      (received.save_preserves isAcquisition (fun _ => Emitting.add_event accepted rfl)
        fun _ => Emitting.add_event accepted rfl) failed
  intro _
  apply Preserves.then_triple
      (received.route_preserves isAcquisition fun _ => Emitting.add_event accepted rfl) failed
  intro _
  apply Preserves.then_triple
      (forwardRaw_preserves raw fun _ _ => Emitting.add_silent rfl) failed
  intro _ handling emitting
  refine ⟨emitting.2, ?_, .inr (emitting.1.trans left)⟩
  intro event returned
  cases returned
  exact accepted

theorem judge_emits (raw : Option Ref) :
    Triple (Emitting (received.Accepted externals crypto cache) cache)
      (received.judge externals crypto raw) (received.Ended externals crypto cache) := by
  have failed : ∀ error handling,
      Emitting (received.Accepted externals crypto cache) cache handling →
        received.Ended externals crypto cache (.error error) handling := by
    intro error handling emitting
    exact .of_error externals crypto emitting.2 (.inl emitting.1)
  unfold judge
  apply Preserves.then_triple (received.checkEventSize_preserves externals) failed
  intro _
  apply Preserves.then_triple received.checkTagsLimit_preserves failed
  intro _
  apply Preserves.then_triple
      (received.checkSubscription_preserves (fun _ => Emitting.add_silent rfl)
        fun _ => Emitting.add_silent rfl) failed
  intro isAcquisition
  apply Preserves.then_triple received.checkExpiration_preserves failed
  intro _
  refine Triple.bind (fun _ handling => Emitting (received.Accepted externals crypto cache)
    ((SharedState.verifyAndCache externals crypto received.event).run cache).2 handling ∧
      received.Accepted externals crypto cache received.event) ?_ ?_
  · refine (verify_emits externals crypto).consequence (fun _ => id) ?_
    intro outcome handling ended
    cases outcome with
    | ok _ => exact ⟨ended.1, ended.2 rfl⟩
    | error error => exact .of_error externals crypto ended.1.2 (.inr ended.1.1)
  · intro _ handling reached
    exact deliver_emits externals crypto reached.2 rfl handling reached.1

theorem handleEventMsg_emits :
    Triple (Emitting (received.Accepted externals crypto cache) cache)
      (received.handleEventMsg externals crypto) (received.Ended externals crypto cache) := by
  unfold handleEventMsg
  refine Preserves.then_triple attributeRaw_emits ?_ ?_
  · intro error handling emitting
    exact .of_error externals crypto emitting.2 (.inl emitting.1)
  · intro raw handling emitting
    have ended := judge_emits externals crypto raw handling emitting
    cases raw with
    | none => exact ended
    | some raw =>
        obtain ⟨emits, accepted, left⟩ := ended
        exact ⟨(Emitting.add_silent rfl ⟨rfl, emits⟩).2, accepted, left⟩

/-- What a call hands out is its own event, accepted under the cache it found;
and what the cache holds afterwards it held before, or the event is verified. -/
theorem handle_ended (received : Received) (cache : LruCache EventId) :
    (∀ event, (received.handle externals crypto cache).Delivers event →
      received.Accepted externals crypto cache event) ∧
    ∀ id, (received.handle externals crypto cache).cache.contains id = true →
      cache.contains id = true ∨
        (id = received.event.id ∧ received.event.Verified externals crypto) := by
  obtain ⟨emits, accepted, left⟩ := @handleEventMsg_emits externals crypto received cache
    { cache } ⟨rfl, fun _ member => by cases member⟩
  constructor
  · intro event delivered
    cases delivered with
    | inl returned => exact accepted event returned
    | inr emitted =>
        obtain ⟨effect, member, carries⟩ := emitted
        exact emits effect member event carries
  · intro id holds
    cases left with
    | inl same =>
        have same : (received.handle externals crypto cache).cache = cache := same
        exact .inl (same ▸ holds)
    | inr verified =>
        have verified : (received.handle externals crypto cache).cache =
          ((SharedState.verifyAndCache externals crypto received.event).run cache).2 := verified
        rw [verified] at holds
        exact SharedState.contains_verifyAndCache externals crypto holds

end Received

/-! ## Runs -/

variable {externals : Externals} {crypto : Crypto}

variable (externals crypto) in
/-- The cache holds the IDs of events that were received and verified. -/
def CachedVerified (history : List (Received × Handled)) (cache : LruCache EventId) : Prop :=
  ∀ id, cache.contains id = true → ∃ label ∈ history,
    label.1.event.id = id ∧ label.1.event.Verified externals crypto

theorem run_cachedVerified {cap : Nat} {cap_pos : 0 < cap} {history : List (Received × Handled)}
    {cache : LruCache EventId}
    (run : Run (Receive externals crypto) (.new cap cap_pos) history cache) :
    CachedVerified externals crypto history cache := by
  apply run.invariant
  · intro id holds
    cases LruCache.not_contains_new id ▸ holds
  · intro history cache label cache' before step id holds
    obtain ⟨handled, same⟩ := step
    rw [same, handled] at holds
    cases (Received.handle_ended externals crypto label.1 cache).2 id holds with
    | inl earlier =>
        obtain ⟨witness, member, verified⟩ := before id earlier
        exact ⟨witness, List.mem_append_left _ member, verified⟩
    | inr here => exact ⟨label, by simp, here.1.symm, here.2⟩

variable (externals crypto) in
/-- Runs in which no message is an altered replay when it arrives. -/
def ReceiveUnaltered (cache : LruCache EventId) (label : Received × Handled)
    (cache' : LruCache EventId) : Prop :=
  Receive externals crypto cache label cache' ∧
    ¬ SharedState.AlteredReplay externals crypto cache label.1.event

variable (externals crypto) in
def DeliversVerified (label : Received × Handled) : Prop :=
  ∀ event, label.2.Delivers event → event = label.1.event ∧ event.Verified externals crypto

theorem receiveUnaltered_verified (cache : LruCache EventId) (label : Received × Handled)
    (cache' : LruCache EventId) (step : ReceiveUnaltered externals crypto cache label cache') :
    DeliversVerified externals crypto label := by
  obtain ⟨⟨handled, _⟩, unaltered⟩ := step
  intro event delivers
  rw [handled] at delivers
  obtain ⟨same, accepted⟩ := (Received.handle_ended externals crypto label.1 cache).1 event delivers
  subst same
  refine ⟨rfl, ?_⟩
  cases accepted with
  | inl cached => exact not_not.mp fun fails => unaltered ⟨cached, fails⟩
  | inr verified => exact verified

/-- In every run, verification accepts only verified events exactly when it is
not given an altered replay, whose ID is that of an earlier verified event; and
in a run without altered replays only verified events are handed out. -/
theorem run_acceptsVerified (externals : Externals) (crypto : Crypto) (cap : Nat)
    (cap_pos : 0 < cap) :
    (∀ history cache, Run (Receive externals crypto) (.new cap cap_pos) history cache →
      CachedVerified externals crypto history cache ∧
      ∀ event, (((SharedState.verifyAndCache externals crypto event).run cache).1 = .ok () →
          event.Verified externals crypto) ↔
        ¬ SharedState.AlteredReplay externals crypto cache event) ∧
    ∀ history cache, Run (ReceiveUnaltered externals crypto) (.new cap cap_pos) history cache →
      ∀ label ∈ history, DeliversVerified externals crypto label := by
  constructor
  · intro history cache run
    refine ⟨run_cachedVerified run, fun event => ?_⟩
    rw [SharedState.verifyAndCache_ok_iff, SharedState.AlteredReplay]
    tauto
  · intro history cache run
    exact run.label_of_step receiveUnaltered_verified

/-! ## A replay -/

def sampleExternals : Externals := ⟨fun _ => none, Json.lowercaseHex, fun _ => none⟩

def samplePublicKey : PublicKey := ⟨[
    0xf8, 0x6c, 0x44, 0xa2, 0xde, 0x95, 0xd9, 0x14, 0x9b, 0x51, 0xc6, 0xa2, 0x9a, 0xfe, 0xab, 0xba,
    0x26, 0x4c, 0x18, 0xe2, 0xfa, 0x7c, 0x49, 0xde, 0x93, 0x42, 0x4a, 0x0c, 0x56, 0x94, 0x77, 0x85], rfl⟩

def sampleId : EventId := ⟨[
    0x2b, 0xe1, 0x7a, 0xa3, 0x03, 0x1b, 0xdc, 0xb0, 0x06, 0xf0, 0xfc, 0xe8, 0x0c, 0x14, 0x6d, 0xea,
    0x9c, 0x1c, 0x02, 0x68, 0xb0, 0xaf, 0x23, 0x98, 0xbb, 0x67, 0x33, 0x65, 0xc6, 0x44, 0x4d, 0x45], rfl⟩

/-- An event that verifies, also in the benchmarks of `nostr/src/event/mod.rs`. -/
def sampleEvent : Event where
  id := sampleId
  pubkey := samplePublicKey
  createdAt := 1640839235
  kind := .custom 4
  tags := [⟨["p", "13adc511de7e1cfcf1c6b7f6365fb5a03442d7bcacf565ea57fa7770912c023d"], by simp⟩]
  content := "uRuvYr585B80L6rSJiHocw==?iv=oh6LVqdsYYol3JfFnXTbPA=="
  sig := ⟨[
    0xa5, 0xd9, 0x29, 0x0e, 0xf9, 0x65, 0x90, 0x83, 0xc4, 0x90, 0xb3, 0x03, 0xeb, 0x7e, 0xe4, 0x13,
    0x56, 0xd8, 0x77, 0x8f, 0xf1, 0x9f, 0x2f, 0x91, 0x77, 0x6c, 0x8d, 0xc4, 0x44, 0x33, 0x88, 0xa6,
    0x4f, 0xfc, 0xf3, 0x36, 0xe6, 0x1a, 0xf4, 0xc2, 0x5c, 0x05, 0xac, 0x3a, 0xe9, 0x52, 0xd1, 0xce,
    0xd8, 0x89, 0xed, 0x65, 0x5b, 0x67, 0x79, 0x08, 0x91, 0x22, 0x2a, 0xaa, 0x15, 0xb9, 0x9f, 0xdd], rfl⟩

def alteredEvent : Event := { sampleEvent with content := "altered" }

/-- The text whose SHA-256 is the ID of the event. -/
def sampleText : String :=
  "[0,\"f86c44a2de95d9149b51c6a29afeabba264c18e2fa7c49de93424a0c56947785\",1640839235,4," ++
  "[[\"p\",\"13adc511de7e1cfcf1c6b7f6365fb5a03442d7bcacf565ea57fa7770912c023d\"]]," ++
  "\"uRuvYr585B80L6rSJiHocw==?iv=oh6LVqdsYYol3JfFnXTbPA==\"]"

def alteredHash : EventId := ⟨[
    0x59, 0x4e, 0xc6, 0x27, 0xe8, 0x5e, 0x42, 0x29, 0x69, 0xc9, 0x5e, 0xbb, 0x5f, 0x7a, 0x98, 0x4b,
    0x37, 0xcd, 0xcb, 0x36, 0xd7, 0x43, 0x87, 0xc7, 0xec, 0x77, 0x91, 0x8a, 0x30, 0xfd, 0x95, 0x41], rfl⟩

/-- SHA-256 of the texts of the two events, and the signature that is valid. -/
def sampleCrypto : Crypto where
  sha256 text := if text = utf8 sampleText then sampleId else alteredHash
  verifySchnorr sig id publicKey :=
    sig = sampleEvent.sig ∧ id = sampleId ∧ publicKey = samplePublicKey

/-- An EVENT that nothing outside stands in the way of. -/
def sampleReceived (event : Event) : Received where
  opts := {}
  acquisitionNamespace := "a0"
  answers := ⟨none, false, none, 1700000000, none, .ok .notExistent, .ok .success, none⟩
  subscriptionId := "live"
  event := event

/-- The genuine event arrives first, then the altered one. -/
def sampleHandled : Handled :=
  (sampleReceived sampleEvent).handle sampleExternals sampleCrypto SharedState.verificationCache

def alteredHandled : Handled :=
  (sampleReceived alteredEvent).handle sampleExternals sampleCrypto sampleHandled.cache

theorem run_sampleEvent :
    Run (Receive sampleExternals sampleCrypto) SharedState.verificationCache
      [(sampleReceived sampleEvent, sampleHandled)] sampleHandled.cache :=
  Run.nil.snoc (receive_handle ..)

theorem run_acceptsVerified_sampleEvent :
    DeliversVerified sampleExternals sampleCrypto (sampleReceived sampleEvent, sampleHandled) :=
  (run_acceptsVerified sampleExternals sampleCrypto SharedState.maxVerificationCacheSize
    (by decide)).2 _ _ (Run.nil.snoc ⟨receive_handle .., by decide +kernel⟩) _ (List.mem_singleton_self _)

/-- The altered event passes, and is saved and handed on. -/
theorem run_delivers_alteredEvent :
    Run (Receive sampleExternals sampleCrypto) SharedState.verificationCache
        [(sampleReceived sampleEvent, sampleHandled), (sampleReceived alteredEvent, alteredHandled)]
        alteredHandled.cache ∧
      ((SharedState.verifyAndCache sampleExternals sampleCrypto alteredEvent).run
        sampleHandled.cache).1 = .ok () ∧
      alteredHandled.outcome = .ok alteredEvent ∧
      .saveEvent alteredEvent ∈ alteredHandled.effects ∧
      ¬ alteredEvent.Verified sampleExternals sampleCrypto := by
  refine ⟨run_sampleEvent.snoc (receive_handle ..), ?_⟩
  decide +kernel

end RustNostr.NostrSdk
