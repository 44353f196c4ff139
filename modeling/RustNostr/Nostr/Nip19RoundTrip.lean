import Mathlib
import RustNostr.Nostr.Nip19

/-!
# Reading back bech32 entities

Every entity that has a text is read back from it up to the relay URLs that are
not read back from their own texts.
-/

set_option autoImplicit false

namespace RustNostr

open Library Nip19

/-! ## Entries -/

namespace Nip19

theorem pushTlvs_eq_ok {entries : List (UInt8 × Bytes)} {bytes : Bytes}
    (pushed : pushTlvs entries = .ok bytes) :
    (∀ entry ∈ entries, entry.2.length < 256) ∧
      bytes = entries.flatMap fun entry => Tlv.entry entry.1 entry.2 := by
  have general : ∀ (entries : List (UInt8 × Bytes)) (start : Bytes),
      entries.foldlM (fun bytes entry => pushTlv bytes entry.1 entry.2) start = .ok bytes →
      (∀ entry ∈ entries, entry.2.length < 256) ∧
        bytes = start ++ entries.flatMap fun entry => Tlv.entry entry.1 entry.2 := by
    intro entries
    induction entries with
    | nil =>
        intro start pushed
        cases pushed
        simp
    | cons entry entries ih =>
        intro start pushed
        rw [List.foldlM_cons, pushTlv] at pushed
        by_cases fits : entry.2.length < 256
        · rw [if_pos fits] at pushed
          obtain ⟨others, shape⟩ := ih _ pushed
          rw [List.append_assoc] at shape
          exact ⟨List.forall_mem_cons.mpr ⟨fits, others⟩, shape⟩
        · rw [if_neg fits] at pushed
          cases pushed
  exact general entries [] pushed

/-- What was pushed is visited in its order. -/
theorem fold_pushed {State : Type} {visit : State → UInt8 → Bytes → Except Error State}
    {entries : List (UInt8 × Bytes)} {bytes : Bytes} (pushed : pushTlvs entries = .ok bytes)
    (state : State) : Tlv.fold invalidTlv visit state bytes =
      entries.foldlM (fun state entry => visit state entry.1 entry.2) state := by
  obtain ⟨fits, shape⟩ := pushTlvs_eq_ok pushed
  rw [shape, Tlv.fold_entries fits]

theorem readKind_kindValue (kind : Kind) :
    readKind (kindValue kind) = .ok (.fromU16 kind.asU16) := by
  have bound := kind.asU16.toNat_lt
  have read : ofBigEndian (kindValue kind) = kind.asU16.toNat :=
    ofBigEndian_bigEndian (by norm_num; omega)
  have whole : (kindValue kind).length = 4 := bigEndian_length 4 _
  rw [readKind, if_neg (not_not.mpr whole), read, if_pos bound, UInt16.ofNat_toNat]

section Relays

variable {crate : UrlCrate}

theorem readRelay_asStr (relay : FullRelayUrl crate) :
    readRelay crate (utf8 relay.asStr) = FullRelayUrl.parse crate relay.asStr := by
  rw [readRelay, utf8, fromUtf8Lossy_toUTF8, String.ofList_toList]

/-- The texts are short if they fit into entries. -/
theorem short_of_fits {entries : List (UInt8 × Bytes)} {relays : List (FullRelayUrl crate)}
    (fits : ∀ entry ∈ entries ++ relays.map relayEntry, entry.2.length < 256) :
    ∀ relay ∈ relays, (utf8 relay.asStr).length ≤ FullRelayUrl.maxRelayUrlLen := by
  intro relay member
  have fit := fits (relayEntry relay) (List.mem_append_right _ (List.mem_map_of_mem member))
  exact le_trans (le_of_lt fit) (by decide)

variable {relays : List (FullRelayUrl crate)}

theorem readFrom_asStr_iff (law : crate.RoundTrips)
    (short : ∀ relay ∈ relays, (utf8 relay.asStr).length ≤ FullRelayUrl.maxRelayUrlLen) :
    (∀ relay ∈ relays, relay.ReadFrom relay.asStr) ↔ ∀ relay ∈ relays, relay.ReadBack := by
  refine forall₂_congr fun relay member => ?_
  rw [← FullRelayUrl.parse_iff]
  exact FullRelayUrl.parse_asStr law relay (short relay member)

/-- Reading that fails on the first bad relay. -/
theorem mapM_parse_iff (law : crate.RoundTrips)
    (short : ∀ relay ∈ relays, (utf8 relay.asStr).length ≤ FullRelayUrl.maxRelayUrlLen) :
    (∃ back, relays.mapM (fun relay => FullRelayUrl.parse crate relay.asStr) = .ok back ∧
      (back == relays) = true) ↔ ∀ relay ∈ relays, relay.ReadBack :=
  (FullRelayUrl.mapM_parse_iff FullRelayUrl.asStr).trans (readFrom_asStr_iff law short)

/-- Reading that leaves bad relays out. -/
theorem filterMap_parse_iff (law : crate.RoundTrips)
    (short : ∀ relay ∈ relays, (utf8 relay.asStr).length ≤ FullRelayUrl.maxRelayUrlLen) :
    ((relays.filterMap fun relay => (FullRelayUrl.parse crate relay.asStr).toOption) == relays) =
      true ↔ ∀ relay ∈ relays, relay.ReadBack :=
  (FullRelayUrl.filterMap_parse_iff FullRelayUrl.asStr).trans (readFrom_asStr_iff law short)

/-- The visits of the relay entries, for the reader that fails. -/
theorem foldlM_relays {Found : Type} (visit : Found → UInt8 → Bytes → Except Error Found)
    (add : Found → List (FullRelayUrl crate) → Found) (none : ∀ found, add found [] = found)
    (more : ∀ found first rest, add (add found first) rest = add found (first ++ rest))
    (visits : ∀ found bytes, visit found relayType bytes =
      (readRelay crate bytes).map fun url => add found [url])
    (relays : List (FullRelayUrl crate)) (found : Found) :
    (relays.map relayEntry).foldlM (fun found entry => visit found entry.1 entry.2) found =
      (relays.mapM fun relay => FullRelayUrl.parse crate relay.asStr).map (add found) := by
  induction relays generalizing found with
  | nil => exact congrArg Except.ok (none found).symm
  | cons relay relays ih =>
      rw [List.map_cons, List.foldlM_cons, List.mapM_cons]
      simp only [relayEntry, visits, readRelay_asStr]
      cases FullRelayUrl.parse crate relay.asStr with
      | error error => rfl
      | ok url =>
          change (relays.map relayEntry).foldlM _ (add found [url]) = _
          rw [ih]
          cases relays.mapM fun relay => FullRelayUrl.parse crate relay.asStr with
          | error error => rfl
          | ok urls => exact congrArg Except.ok (more found [url] urls)

/-- The visits of the relay entries, for the readers that leave bad ones out. -/
theorem foldlM_relays_lenient {Found : Type} (visit : Found → UInt8 → Bytes → Except Error Found)
    (add : Found → List (FullRelayUrl crate) → Found) (none : ∀ found, add found [] = found)
    (more : ∀ found first rest, add (add found first) rest = add found (first ++ rest))
    (visits : ∀ found bytes, visit found relayType bytes =
      .ok (add found (readRelay crate bytes).toOption.toList))
    (relays : List (FullRelayUrl crate)) (found : Found) :
    (relays.map relayEntry).foldlM (fun found entry => visit found entry.1 entry.2) found =
      .ok (add found (relays.filterMap fun relay =>
        (FullRelayUrl.parse crate relay.asStr).toOption)) := by
  induction relays generalizing found with
  | nil => exact congrArg Except.ok (none found).symm
  | cons relay relays ih =>
      rw [List.map_cons, List.foldlM_cons, List.filterMap_cons]
      simp only [relayEntry, visits, readRelay_asStr]
      change (relays.map relayEntry).foldlM _ (add found _) = _
      rw [ih, more]
      cases FullRelayUrl.parse crate relay.asStr <;> rfl

end Relays

end Nip19

/-! ## Entities -/

section Entities

variable {crates : Crates}

theorem Crates.decode_encode (law : crates.RoundTrip) {hrp : String} {data : Bytes} {text : String}
    (encoded : crates.encode hrp data = .ok text) : crates.decode text = .ok (hrp, data) := by
  have written : crates.bech32Encode hrp data = .ok text := by
    unfold Crates.encode at encoded
    cases outcome : crates.bech32Encode hrp data with
    | error error =>
        rw [outcome] at encoded
        cases encoded
    | ok found =>
        rw [outcome] at encoded
        cases encoded
        rfl
  rw [Crates.decode, law.bech32 hrp data text written]
  rfl

/-- What `to_bech32` of an entity with entries has written. -/
theorem pushed_of_encoded {hrp : String} {entries : List (UInt8 × Bytes)} {text : String}
    (encoded : (do crates.encode hrp (← pushTlvs entries)) = Except.ok text) :
    ∃ bytes, pushTlvs entries = .ok bytes ∧ crates.encode hrp bytes = .ok text := by
  cases pushed : pushTlvs entries with
  | error error =>
      rw [pushed] at encoded
      cases encoded
  | ok bytes =>
      rw [pushed] at encoded
      exact ⟨bytes, rfl, encoded⟩

@[simp] theorem PublicKey.fromSlice_val (publicKey : PublicKey) :
    fromSlice publicKey.val = .ok publicKey := RustNostr.fromSlice_val _ publicKey

@[simp] theorem EventId.fromSlice_val (eventId : EventId) : fromSlice eventId.val = .ok eventId :=
  RustNostr.fromSlice_val _ eventId

theorem Kind.fromU16_beq (kind : Kind) : (fromU16 kind.asU16 == kind) = true :=
  beq_iff.mpr (asU16_fromU16 kind.asU16)

namespace Nip19Event

/-- The kind of the same number that a reader yields. -/
def readBack (event : Nip19Event crates) (relays : List (FullRelayUrl crates.url)) :
    Nip19Event crates :=
  { event with kind := event.kind.map fun kind => .fromU16 kind.asU16, relays := relays }

theorem readBack_beq (event : Nip19Event crates) (relays : List (FullRelayUrl crates.url)) :
    (event.readBack relays == event) = (relays == event.relays) := by
  have kinds : ((event.kind.map fun kind => Kind.fromU16 kind.asU16) == event.kind) = true := by
    cases event.kind with
    | none => rfl
    | some kind => exact Kind.fromU16_beq kind
  change (event.eventId == event.eventId && event.author == event.author &&
    ((event.kind.map fun kind => Kind.fromU16 kind.asU16) == event.kind) && relays == event.relays) = _
  rw [kinds, beq_self_eq_true, beq_self_eq_true, Bool.true_and, Bool.true_and, Bool.true_and]

theorem fromBech32Data_pushed {event : Nip19Event crates} {bytes : Bytes}
    (pushed : pushTlvs event.entries = .ok bytes) : fromBech32Data bytes =
      (event.relays.mapM fun relay => FullRelayUrl.parse crates.url relay.asStr).map event.readBack := by
  have fields : ([(specialType, event.eventId.val)] ++
      (event.author.map fun key => (authorType, key.val)).toList ++
      (event.kind.map fun number => (kindType, kindValue number)).toList).foldlM
        (fun found entry => visit found entry.1 entry.2) ({} : Found crates) = .ok {
      eventId := some event.eventId
      author := event.author
      kind := event.kind.map fun kind => .fromU16 kind.asU16
      relays := [] } := by
    cases event.author <;> cases event.kind <;>
      simp [visit, specialType, authorType, relayType, kindType, Bind.bind, Except.bind, pure,
        Except.pure, Except.map, Except.toOption, readKind_kindValue]
  have relays := foldlM_relays visit
    (fun (found : Found crates) relays => { found with relays := found.relays ++ relays })
    (fun _ => by simp) (fun _ _ _ => by simp) (fun _ _ => rfl)
  unfold fromBech32Data
  rw [fold_pushed pushed, entries, List.foldlM_append, fields]
  change ((event.relays.map relayEntry).foldlM _ _ >>= _) = _
  rw [relays]
  cases event.relays.mapM fun relay => FullRelayUrl.parse crates.url relay.asStr <;> rfl

/-- The data of an entity with a text, and when the entity is read back from it. -/
theorem toBech32_eq_ok (law : crates.RoundTrip) {event : Nip19Event crates} {text : String}
    (encoded : event.toBech32 = .ok text) : ∃ data, crates.decode text = .ok ("nevent", data) ∧
      ((∃ back, fromBech32Data data = .ok back ∧ (back == event) = true) ↔
        ∀ relay ∈ event.relays, relay.ReadBack) := by
  obtain ⟨data, pushed, written⟩ := pushed_of_encoded encoded
  refine ⟨data, Crates.decode_encode law written, ?_⟩
  rw [← mapM_parse_iff law.url (short_of_fits (pushTlvs_eq_ok pushed).1),
    fromBech32Data_pushed pushed]
  cases event.relays.mapM fun relay => FullRelayUrl.parse crates.url relay.asStr with
  | error error => simp [Except.map]
  | ok relays => simp [Except.map, readBack_beq]

end Nip19Event

namespace Nip19Profile

theorem fromBech32Data_pushed {profile : Nip19Profile crates} {bytes : Bytes}
    (pushed : pushTlvs profile.entries = .ok bytes) : fromBech32Data bytes = .ok {
      profile with
      relays := profile.relays.filterMap fun relay =>
        (FullRelayUrl.parse crates.url relay.asStr).toOption } := by
  have fields : [(specialType, profile.publicKey.val)].foldlM
      (fun found entry => visit found entry.1 entry.2) ({} : Found crates) =
      .ok { publicKey := some profile.publicKey, relays := [] } := by
    simp [visit, specialType, Bind.bind, Except.bind, pure, Except.pure, Except.map]
  have relays := foldlM_relays_lenient visit
    (fun (found : Found crates) relays => { found with relays := found.relays ++ relays })
    (fun _ => by simp) (fun _ _ _ => by simp) (fun _ _ => rfl)
  unfold fromBech32Data
  rw [fold_pushed pushed, entries, List.foldlM_append, fields]
  change ((profile.relays.map relayEntry).foldlM _ _ >>= _) = _
  rw [relays]
  rfl

theorem toBech32_eq_ok (law : crates.RoundTrip) {profile : Nip19Profile crates} {text : String}
    (encoded : profile.toBech32 = .ok text) : ∃ data, crates.decode text = .ok ("nprofile", data) ∧
      ((∃ back, fromBech32Data data = .ok back ∧ (back == profile) = true) ↔
        ∀ relay ∈ profile.relays, relay.ReadBack) := by
  obtain ⟨data, pushed, written⟩ := pushed_of_encoded encoded
  refine ⟨data, Crates.decode_encode law written, ?_⟩
  rw [← filterMap_parse_iff law.url (short_of_fits (pushTlvs_eq_ok pushed).1),
    fromBech32Data_pushed pushed]
  simp only [Except.ok.injEq, exists_eq_left']
  change (profile.publicKey == profile.publicKey && _) = true ↔ _
  rw [beq_self_eq_true, Bool.true_and]

end Nip19Profile

namespace Nip19Coordinate

theorem fromBech32Data_pushed {address : Nip19Coordinate crates} {bytes : Bytes}
    (pushed : pushTlvs address.entries = .ok bytes) : fromBech32Data bytes = .ok {
      coordinate := { address.coordinate with kind := .fromU16 address.coordinate.kind.asU16 }
      relays := address.relays.filterMap fun relay =>
        (FullRelayUrl.parse crates.url relay.asStr).toOption } := by
  have identifier : String.ofList (fromUtf8Lossy (utf8 address.coordinate.identifier)) =
      address.coordinate.identifier := by
    rw [utf8, fromUtf8Lossy_toUTF8, String.ofList_toList]
  have fields : [(specialType, utf8 address.coordinate.identifier),
      (authorType, address.coordinate.publicKey.val),
      (kindType, kindValue address.coordinate.kind)].foldlM
        (fun found entry => visit found entry.1 entry.2) ({} : Found crates) = .ok {
      identifier := some address.coordinate.identifier
      pubkey := some address.coordinate.publicKey
      kind := some (.fromU16 address.coordinate.kind.asU16)
      relays := [] } := by
    simp [visit, specialType, authorType, relayType, kindType, Bind.bind, Except.bind, pure,
      Except.pure, Except.map, readKind_kindValue, identifier]
  have relays := foldlM_relays_lenient visit
    (fun (found : Found crates) relays => { found with relays := found.relays ++ relays })
    (fun _ => by simp) (fun _ _ _ => by simp) (fun _ _ => rfl)
  unfold fromBech32Data
  rw [fold_pushed pushed, entries, List.foldlM_append, fields]
  change ((address.relays.map relayEntry).foldlM _ _ >>= _) = _
  rw [relays]
  rfl

theorem toBech32_eq_ok (law : crates.RoundTrip) {address : Nip19Coordinate crates} {text : String}
    (encoded : address.toBech32 = .ok text) : ∃ data, crates.decode text = .ok ("naddr", data) ∧
      ((∃ back, fromBech32Data data = .ok back ∧ (back == address) = true) ↔
        ∀ relay ∈ address.relays, relay.ReadBack) := by
  obtain ⟨data, pushed, written⟩ := pushed_of_encoded encoded
  refine ⟨data, Crates.decode_encode law written, ?_⟩
  rw [← filterMap_parse_iff law.url (short_of_fits (pushTlvs_eq_ok pushed).1),
    fromBech32Data_pushed pushed]
  simp only [Except.ok.injEq, exists_eq_left']
  have same : (({ address.coordinate with kind := .fromU16 address.coordinate.kind.asU16 } :
      Coordinate) == address.coordinate) = true :=
    Coordinate.beq_iff.mpr ⟨Kind.asU16_fromU16 _, rfl, rfl⟩
  change (({ address.coordinate with kind := .fromU16 address.coordinate.kind.asU16 } :
      Coordinate) == address.coordinate && _) = true ↔ _
  rw [same, Bool.true_and]

end Nip19Coordinate

theorem Crates.decodeAs_of_decode {hrp text : String} {data : Bytes}
    (decoded : crates.decode text = .ok (hrp, data)) : crates.decodeAs hrp text = .ok data := by
  rw [decodeAs, decoded]
  exact if_neg (not_not.mpr rfl)

namespace Nip19

theorem fromBech32_of_decode {hrp text : String} {data : Bytes}
    (decoded : crates.decode text = .ok (hrp, data)) :
    (fromBech32 text : Except Error (Nip19 crates)) = ofData hrp data := by
  rw [fromBech32, decoded]
  rfl

/-- An entity without relays that is read. -/
theorem readBack_iff_of_ok {entity : Nip19 crates} {text : String}
    (read : fromBech32 text = .ok entity) (same : (entity == entity) = true)
    (none : entity.relays = []) :
    (∃ back, fromBech32 text = .ok back ∧ (back == entity) = true) ↔
      ∀ relay ∈ entity.relays, relay.ReadBack := by
  rw [none]
  exact iff_of_true ⟨entity, read, same⟩ (List.forall_mem_nil _)

theorem readBack_map_iff {Value : Type} [BEq Value] {outcome : Except Error Value}
    {wrap : Value → Nip19 crates} {value : Value}
    (same : ∀ back, (wrap back == wrap value) = (back == value)) :
    (∃ back, outcome.map wrap = .ok back ∧ (back == wrap value) = true) ↔
      ∃ back, outcome = .ok back ∧ (back == value) = true := by
  cases outcome with
  | error error => simp [Except.map]
  | ok back => simp [Except.map, same]

/-- An entity that has a text is read back from it exactly if each of its relay URLs
is read back from its own text. -/
theorem fromBech32_toBech32_iff (crates : Crates) (law : crates.RoundTrip) :
    (∀ (event : Nip19Event crates) text, event.toBech32 = .ok text →
      ((∃ back, Nip19Event.fromBech32 text = .ok back ∧ (back == event) = true) ↔
        ∀ relay ∈ event.relays, relay.ReadBack)) ∧
    (∀ (profile : Nip19Profile crates) text, profile.toBech32 = .ok text →
      ((∃ back, Nip19Profile.fromBech32 text = .ok back ∧ (back == profile) = true) ↔
        ∀ relay ∈ profile.relays, relay.ReadBack)) ∧
    (∀ (address : Nip19Coordinate crates) text, address.toBech32 = .ok text →
      ((∃ back, Nip19Coordinate.fromBech32 text = .ok back ∧ (back == address) = true) ↔
        ∀ relay ∈ address.relays, relay.ReadBack)) ∧
    (∀ (entity : Nip19 crates) text, entity.toBech32 = .ok text →
      ((∃ back, fromBech32 text = .ok back ∧ (back == entity) = true) ↔
        ∀ relay ∈ entity.relays, relay.ReadBack)) := by
  refine ⟨?_, ?_, ?_, ?_⟩
  · intro event text encoded
    obtain ⟨data, decoded, back⟩ := Nip19Event.toBech32_eq_ok law encoded
    rw [Nip19Event.fromBech32, Crates.decodeAs_of_decode decoded]
    exact back
  · intro profile text encoded
    obtain ⟨data, decoded, back⟩ := Nip19Profile.toBech32_eq_ok law encoded
    rw [Nip19Profile.fromBech32, Crates.decodeAs_of_decode decoded]
    exact back
  · intro address text encoded
    obtain ⟨data, decoded, back⟩ := Nip19Coordinate.toBech32_eq_ok law encoded
    rw [Nip19Coordinate.fromBech32, Crates.decodeAs_of_decode decoded]
    exact back
  · intro entity text encoded
    cases entity with
    | secret key =>
        have read : SecretKey.fromSlice crates key.bytes.val = .ok key := by
          rw [SecretKey.fromSlice, fromSlice_val]
          exact dif_pos key.isSecretKey
        have found := fromBech32_of_decode (Crates.decode_encode law encoded)
        simp only [ofData, read, if_true] at found
        exact readBack_iff_of_ok found (beq_self_eq_true key) rfl
    | encryptedSecret key =>
        have found := fromBech32_of_decode (Crates.decode_encode law encoded)
        simp [ofData, key.fromSlice_asVec] at found
        exact readBack_iff_of_ok found (beq_self_eq_true key) rfl
    | pubkey key =>
        have found := fromBech32_of_decode (Crates.decode_encode law encoded)
        simp [ofData] at found
        exact readBack_iff_of_ok found (beq_self_eq_true key) rfl
    | eventId id =>
        have found := fromBech32_of_decode (Crates.decode_encode law encoded)
        simp [ofData] at found
        exact readBack_iff_of_ok found (beq_self_eq_true id) rfl
    | profile value =>
        obtain ⟨data, decoded, back⟩ := Nip19Profile.toBech32_eq_ok law encoded
        have found := fromBech32_of_decode decoded
        simp [ofData] at found
        rw [found]
        exact (@readBack_map_iff _ _ _ _ profile value fun _ => rfl).trans back
    | event value =>
        obtain ⟨data, decoded, back⟩ := Nip19Event.toBech32_eq_ok law encoded
        have found := fromBech32_of_decode decoded
        simp [ofData] at found
        rw [found]
        exact (@readBack_map_iff _ _ _ _ event value fun _ => rfl).trans back
    | coordinate value =>
        obtain ⟨data, decoded, back⟩ := Nip19Coordinate.toBech32_eq_ok law encoded
        have found := fromBech32_of_decode decoded
        simp [ofData] at found
        rw [found]
        exact (@readBack_map_iff _ _ _ _ coordinate value fun _ => rfl).trans back

end Nip19

end Entities

/-! ## Examples -/

namespace Nip19

/-- Some texts with the URLs they are parsed to. -/
def sampleUrls : List (String × String) := [
  ("wss://relay.example.com", "wss://relay.example.com/"),
  ("wss://relay.example.com/", "wss://relay.example.com/"),
  ("wss://relay.example.com/a", "wss://relay.example.com/a"),
  ("wss://relay.example.com/a/", "wss://relay.example.com/a/"),
  ("wss://relay.example.com/a/.", "wss://relay.example.com/a/")]

def sampleUrlCrate : UrlCrate where
  parse text := (sampleUrls.lookup text).elim (.error "relative URL without a base") .ok
  scheme _ := "wss"

def sampleId : FixedBytes 32 := .replicate 32 7

def sampleEventText : String :=
  "nevent1qqsqwpc8qurswpc8qurswpc8qurswpc8qurswpc8qurswpc8qurswpcrqsqqqqqpqythwumn8ghj7un9d3shjtn90psk6urvv5hxxmmdnfxgue"

def sampleEventData : Bytes :=
  Tlv.entry 0 sampleId.val ++ Tlv.entry 3 [0, 0, 0, 1] ++ Tlv.entry 1 (utf8 "wss://relay.example.com")

def sampleProfileText : String :=
  "nprofile1qqsqwpc8qurswpc8qurswpc8qurswpc8qurswpc8qurswpc8qurswpcpr9mhxue69uhhyetvv9ujuetcv9khqmr99e3k7mf0vyat7v3a"

def sampleProfileData : Bytes :=
  Tlv.entry 0 sampleId.val ++ Tlv.entry 1 (utf8 "wss://relay.example.com/a")

def sampleCrates : Crates where
  bech32Encode hrp data :=
    if hrp = "nevent" ∧ data = sampleEventData then .ok sampleEventText
    else if hrp = "nprofile" ∧ data = sampleProfileData then .ok sampleProfileText
    else .error "encoding error"
  bech32Decode text :=
    if text = sampleEventText then .ok ("nevent", sampleEventData)
    else if text = sampleProfileText then .ok ("nprofile", sampleProfileData)
    else .error "parsing failed"
  url := sampleUrlCrate
  isSecretKey bytes := bytes ≠ .replicate 32 0

theorem sampleCrates_roundTrip : sampleCrates.RoundTrip where
  bech32 hrp data text encoded := by
    have different : ¬ sampleProfileText = sampleEventText := by decide
    simp only [sampleCrates] at encoded ⊢
    split at encoded
    next event =>
      cases encoded
      rw [if_pos rfl, event.1, event.2]
    next =>
      split at encoded
      next profile =>
        cases encoded
        rw [if_neg different, if_pos rfl, profile.1, profile.2]
      next => cases encoded
  url text url parsed := by
    have each : ∀ entry ∈ sampleUrls, sampleUrls.lookup entry.2 = some entry.2 := by decide
    cases found : sampleUrls.lookup text with
    | none =>
        simp only [sampleCrates, sampleUrlCrate, found] at parsed
        cases parsed
    | some other =>
        simp only [sampleCrates, sampleUrlCrate, found] at parsed
        cases parsed
        obtain ⟨before, after, shape, _⟩ := List.lookup_eq_some_iff.mp found
        have member : (text, url) ∈ sampleUrls := by simp [shape]
        change (sampleUrls.lookup url).elim _ _ = _
        rw [each _ member]
        rfl

def sampleRelay : FullRelayUrl sampleCrates.url where
  url := "wss://relay.example.com/"
  scheme := .wss
  hasTrailingSlash := false
  parsed := ⟨"wss://relay.example.com", rfl⟩
  schemeOfUrl := rfl

def sampleEvent : Nip19Event sampleCrates where
  eventId := sampleId
  author := none
  kind := some (.custom 1)
  relays := [sampleRelay]

/-- What `wss://relay.example.com/a/.` is parsed to. -/
def dotRelay : FullRelayUrl sampleCrates.url where
  url := "wss://relay.example.com/a/"
  scheme := .wss
  hasTrailingSlash := false
  parsed := ⟨"wss://relay.example.com/a/.", rfl⟩
  schemeOfUrl := rfl

def dotProfile : Nip19Profile sampleCrates where
  publicKey := sampleId
  relays := [dotRelay]

theorem fromBech32_toBech32_iff_event : ∃ text back, sampleEvent.toBech32 = .ok text ∧
    Nip19Event.fromBech32 text = .ok back ∧ (back == sampleEvent) = true := by
  have encoded : sampleEvent.toBech32 = .ok sampleEventText := by decide +kernel
  have roundTrip := fromBech32_toBech32_iff sampleCrates sampleCrates_roundTrip
  obtain ⟨back, read, same⟩ := (roundTrip.1 sampleEvent sampleEventText encoded).mpr (by
    intro relay member
    cases List.mem_singleton.mp member
    exact ⟨by decide, .inr rfl⟩)
  exact ⟨sampleEventText, back, encoded, read, same⟩

/-- The relay URL loses its trailing slash, which the text it was parsed from did
not end with. -/
theorem fromBech32_toBech32_not : FullRelayUrl.parse sampleCrates.url "wss://relay.example.com/a/." =
      .ok dotRelay ∧
    ∃ text, dotProfile.toBech32 = .ok text ∧
      ¬ ∃ back, Nip19Profile.fromBech32 text = .ok back ∧ (back == dotProfile) = true := by
  refine ⟨rfl, sampleProfileText, ?_, ?_⟩
  · decide +kernel
  · obtain ⟨data, decoded, back⟩ := Nip19Profile.toBech32_eq_ok sampleCrates_roundTrip
      (show dotProfile.toBech32 = .ok sampleProfileText by decide +kernel)
    rw [Nip19Profile.fromBech32, Crates.decodeAs_of_decode decoded]
    intro found
    have read := back.mp found dotRelay (List.mem_singleton.mpr rfl)
    cases read.2 with
    | inl slash => cases slash
    | inr parsed =>
        have trimmed : (.ok "wss://relay.example.com/a" : Except String String) =
            .ok "wss://relay.example.com/a/" := parsed
        exact absurd (Except.ok.inj trimmed) (by decide)

end Nip19

end RustNostr
