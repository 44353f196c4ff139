import Mathlib
import RustNostr.Nostr.Uri

/-!
# Wallet connection URIs

Printing and reading the URIs of NIP-47 (`nostr/src/nips/nip47.rs`).
-/

set_option autoImplicit false

namespace RustNostr

open Library

/-- `secp256k1` reads hexadecimal as `faster_hex` does. -/
def SecretKey.fromHex (externals : Externals) (crates : Crates) (hex : String) :
    Except Error (SecretKey crates) :=
  match externals.hexDecode hex with
  | some bytes => SecretKey.fromSlice crates bytes.val
  | none => .error ⟨.malformed, "malformed or out-of-range secret key"⟩

def SecretKey.toSecretHex (externals : Externals) {crates : Crates} (key : SecretKey crates) : String :=
  externals.hexEncode key.bytes.val

/-- `form_urlencoded::byte_serialize` of a text. -/
def urlEncode (data : String) : List Char := byteSerialize (encodeChars data.toList)

structure NostrWalletConnectUri (crates : UriCrates) where
  publicKey : PublicKey
  relays : List (FullRelayUrl crates.url)
  secret : SecretKey crates.toCrates
  lud16 : Option String

namespace NostrWalletConnectUri

variable (externals : Externals) {crates : UriCrates}

instance : BEq (NostrWalletConnectUri crates) where
  beq left right := left.publicKey == right.publicKey && left.relays == right.relays &&
    left.secret == right.secret && left.lud16 == right.lud16

/-- `Display` -/
def toString (uri : NostrWalletConnectUri crates) : String :=
  let relaysStr := uri.relays.flatMap fun relayUrl =>
    "&relay=".toList ++ urlEncode relayUrl.asStrWithoutTrailingSlash
  let lud16 := uri.lud16.elim [] fun lud16 => "&lud16=".toList ++ urlEncode lud16
  writeUri nostrWalletConnectUriScheme (uri.publicKey.toHex externals)
    (some ("secret=".toList ++ (uri.secret.toSecretHex externals).toList ++ relaysStr ++ lud16))

/-- What the loop over the pairs of the query has found. -/
structure Found (crates : UriCrates) where
  relays : List (FullRelayUrl crates.url) := []
  secret : Option (SecretKey crates.toCrates) := none
  lud16 : Option String := none

/-- Relays that cannot be read are left out. -/
def visit (found : Found crates) (pair : String × String) : Found crates :=
  if pair.1 = "relay" then
    match FullRelayUrl.parse crates.url pair.2 with
    | .ok relayUrl => { found with relays := found.relays ++ [relayUrl] }
    | .error _ => found
  else if pair.1 = "secret" then
    { found with secret := (SecretKey.fromHex externals crates.toCrates pair.2).toOption }
  else if pair.1 = "lud16" then { found with lud16 := some pair.2 }
  else found

def parse (crates : UriCrates) (uri : String) : Except Error (NostrWalletConnectUri crates) := do
  let url ← (crates.url.parse uri).mapError fun _ => .invalidUri
  if crates.url.scheme url ≠ nostrWalletConnectUriScheme then .error .invalidUri
  else
    match crates.domain url with
    | none => .error .invalidUri
    | some pubkey => do
        let publicKey ← (PublicKey.fromHex externals pubkey).mapError fun _ => .invalidUri
        let found := (crates.queryPairs url).foldl (visit externals) {}
        match found.relays, found.secret with
        | first :: others, some secret => .ok ⟨publicKey, first :: others, secret, found.lud16⟩
        | _, _ => .error .invalidUri

/-! ## Reading back -/

variable {externals : Externals} {uri : NostrWalletConnectUri crates}

/-- The pairs that the query is written as. -/
def pairs (externals : Externals) (uri : NostrWalletConnectUri crates) :
    List (List Char × List Char) :=
  ("secret".toList, (uri.secret.toSecretHex externals).toList) ::
    (uri.relays.map fun relayUrl =>
      ("relay".toList, urlEncode relayUrl.asStrWithoutTrailingSlash)) ++
    (uri.lud16.map fun lud16 => ("lud16".toList, urlEncode lud16)).toList

theorem toString_eq (uri : NostrWalletConnectUri crates) :
    uri.toString externals = writeUri nostrWalletConnectUriScheme (uri.publicKey.toHex externals)
      (some (writePairs (uri.pairs externals))) := by
  rw [toString, pairs, List.cons_append, writePairs_cons, List.flatMap_append, List.flatMap_map]
  cases uri.lud16 <;> simp [writePair, List.append_assoc]

theorem safePair_urlEncode {name : List Char} (safe : ∀ char ∈ name, formSafe char = true)
    (value : String) : SafePair (name, urlEncode value) :=
  ⟨safe, fun _ member => formSafe_of_mem_byteSerialize member⟩

theorem formSafe_toSecretHex (codec : HexCodec externals) {crates : Crates} (key : SecretKey crates) :
    ∀ char ∈ (key.toSecretHex externals).toList, formSafe char = true := by
  intro char member
  rw [SecretKey.toSecretHex, codec.encode] at member
  rw [formSafe, isAlphanum_of_mem_lowercaseHex member]
  rfl

theorem safe_pairs (codec : HexCodec externals) (uri : NostrWalletConnectUri crates) :
    ∀ pair ∈ uri.pairs externals, SafePair pair := by
  have relayName : ∀ char ∈ "relay".toList, formSafe char = true := by simp [formSafe]
  have secretName : ∀ char ∈ "secret".toList, formSafe char = true := by simp [formSafe]
  have lud16Name : ∀ char ∈ "lud16".toList, formSafe char = true := by simp [formSafe]
  intro pair member
  rcases List.mem_append.mp member with front | back
  · rcases List.mem_cons.mp front with same | front
    · subst same
      exact ⟨secretName, formSafe_toSecretHex codec uri.secret⟩
    · obtain ⟨relay, _, same⟩ := List.mem_map.mp front
      subst same
      exact safePair_urlEncode relayName _
  · obtain ⟨lud16, _, same⟩ := Option.map_eq_some_iff.mp (Option.mem_toList.mp back)
    subst same
    exact safePair_urlEncode lud16Name _

theorem formDecode_urlEncode (value : String) :
    String.ofList (formDecode (urlEncode value)) = value := by
  rw [urlEncode, formDecode_byteSerialize, String.ofList_toList]

theorem fromHex_formDecode (codec : HexCodec externals) {crates : Crates} (key : SecretKey crates) :
    SecretKey.fromHex externals crates
      (String.ofList (formDecode (key.toSecretHex externals).toList)) = .ok key := by
  have alphanum : ∀ char ∈ (key.toSecretHex externals).toList, char.isAlphanum = true := by
    intro char member
    rw [SecretKey.toSecretHex, codec.encode] at member
    exact isAlphanum_of_mem_lowercaseHex member
  have noEscape : '%' ∉ (key.toSecretHex externals).toList :=
    fun member => absurd (alphanum _ member) (by decide)
  have noPlus : '+' ∉ (key.toSecretHex externals).toList :=
    fun member => absurd (alphanum _ member) (by decide)
  rw [formDecode_eq_self.mpr ⟨noPlus, hasEscape_of_plain noEscape⟩, String.ofList_toList, SecretKey.fromHex,
    SecretKey.toSecretHex, codec.encode, codec.decode]
  change SecretKey.fromSlice crates key.bytes.val = _
  rw [SecretKey.fromSlice, fromSlice_val]
  exact dif_pos key.isSecretKey

/-- The relays that are read back from their texts without trailing slashes. -/
def carried (uri : NostrWalletConnectUri crates) : List (FullRelayUrl crates.url) :=
  uri.relays.filterMap fun relayUrl =>
    (FullRelayUrl.parse crates.url relayUrl.asStrWithoutTrailingSlash).toOption

theorem foldl_visit_relays (texts : List String) (found : Found crates) :
    (texts.map fun text => ("relay", text)).foldl (visit externals) found =
      { found with
        relays := found.relays ++ texts.filterMap fun text =>
          (FullRelayUrl.parse crates.url text).toOption } := by
  induction texts generalizing found with
  | nil => simp
  | cons text texts ih =>
      rw [List.map_cons, List.foldl_cons, ih, visit, if_pos rfl, List.filterMap_cons]
      cases FullRelayUrl.parse crates.url text with
      | error error => rfl
      | ok relayUrl => simp [Except.toOption]

theorem visit_secret (codec : HexCodec externals) (key : SecretKey crates.toCrates) :
    visit externals ({} : Found crates)
      ("secret", String.ofList (formDecode (key.toSecretHex externals).toList)) =
      { secret := some key } := by
  have other : ("secret" : String) ≠ "relay" := by decide
  rw [visit, if_neg other, if_pos rfl, fromHex_formDecode codec]
  rfl

theorem visit_lud16 (found : Found crates) (lud16 : String) :
    visit externals found ("lud16", lud16) = { found with lud16 := some lud16 } := by
  have other : ("lud16" : String) ≠ "relay" ∧ ("lud16" : String) ≠ "secret" := by decide
  rw [visit, if_neg other.1, if_neg other.2, if_pos rfl]

theorem foldl_visit_pairs (codec : HexCodec externals) (uri : NostrWalletConnectUri crates) :
    ((uri.pairs externals).map fun pair =>
        (String.ofList pair.1, String.ofList (formDecode pair.2))).foldl (visit externals) {} =
      { relays := uri.carried, secret := some uri.secret, lud16 := uri.lud16 } := by
  have relays : (uri.relays.map fun relayUrl =>
      ("relay".toList, urlEncode relayUrl.asStrWithoutTrailingSlash)).map
        (fun pair => (String.ofList pair.1, String.ofList (formDecode pair.2))) =
      (uri.relays.map FullRelayUrl.asStrWithoutTrailingSlash).map fun text => ("relay", text) := by
    simp only [List.map_map, Function.comp_def, String.ofList_toList, formDecode_urlEncode]
  rw [pairs, List.map_append, List.map_cons, relays, List.foldl_append, List.foldl_cons,
    String.ofList_toList, visit_secret codec, foldl_visit_relays, List.filterMap_map]
  cases uri.lud16 with
  | none => rfl
  | some lud16 =>
      rw [Option.map_some, Option.toList_some, List.map_singleton, List.foldl_cons, List.foldl_nil,
        formDecode_urlEncode, String.ofList_toList, visit_lud16]
      rfl

/-- What is read back has lost the relays that cannot be read from their texts, and nothing
else. -/
theorem parse_toString (standard : crates.Standard) (codec : HexCodec externals)
    (uri : NostrWalletConnectUri crates) :
    parse externals crates (uri.toString externals) =
      if uri.carried = [] then .error .invalidUri else .ok { uri with relays := uri.carried } := by
  have known : nostrWalletConnectUriScheme ∈ uriSchemes := by simp [uriSchemes]
  obtain ⟨url, parsed, scheme, domain, query⟩ := standard.parse_safe known
    (plainHost_toHex codec uri.publicKey) (uri.safe_pairs codec)
  rw [toString_eq, parse, parsed]
  simp only [Except.mapError, bind, Except.bind, scheme, ne_eq, not_true_eq_false, if_false, domain,
    PublicKey.fromHex_toHex codec, query, foldl_visit_pairs codec]
  cases uri.carried with
  | nil => rfl
  | cons first others => rfl

theorem beq_relays (uri : NostrWalletConnectUri crates) (left right : List (FullRelayUrl crates.url)) :
    (({ uri with relays := left } : NostrWalletConnectUri crates) == { uri with relays := right }) =
      (left == right) := by
  change (uri.publicKey == uri.publicKey && left == right && uri.secret == uri.secret &&
    uri.lud16 == uri.lud16) = _
  simp only [beq_self_eq_true, Bool.true_and, Bool.and_true]

/-- A URI comes back exactly if each relay URL does from its text without trailing
slashes. -/
theorem walletConnectUri_recovered (standard : crates.Standard) (codec : HexCodec externals)
    (uri : NostrWalletConnectUri crates) (some : uri.relays ≠ []) :
    (∃ back, parse externals crates (uri.toString externals) = .ok back ∧ (back == uri) = true) ↔
      ∀ relay ∈ uri.relays, relay.ReadFrom relay.asStrWithoutTrailingSlash := by
  rw [← FullRelayUrl.filterMap_parse_iff FullRelayUrl.asStrWithoutTrailingSlash,
    parse_toString standard codec]
  change _ ↔ (uri.carried == uri.relays) = true
  have others (relays : List (FullRelayUrl crates.url)) :
      (({ uri with relays := relays } : NostrWalletConnectUri crates) == uri) =
        (relays == uri.relays) := uri.beq_relays relays uri.relays
  split
  next lost =>
    refine iff_of_false (fun found => ?_) fun same => some ?_
    · obtain ⟨back, failed, _⟩ := found
      cases failed
    · rw [lost] at same
      exact List.length_eq_zero_iff.mp (List.length_eq_of_beq same).symm
  next =>
    simp only [Except.ok.injEq, exists_eq_left', others]

def sampleUri (relays : List (FullRelayUrl Uri.sampleCrates.url)) :
    NostrWalletConnectUri Uri.sampleCrates where
  publicKey := .replicate 32 1
  relays := relays
  secret := ⟨.replicate 32 2, by decide⟩
  lud16 := some "user+tag@example.com & co"

theorem sampleRelay_parsed : ∃ text, Uri.sampleCrates.url.parse text = .ok "wss://relay.example.com/" :=
  ⟨"wss://relay.example.com", by decide +kernel⟩

theorem sampleRelay_scheme :
    RelayUrlScheme.parse (Uri.sampleCrates.url.scheme "wss://relay.example.com/") = .ok .wss := by
  decide +kernel

def sampleRelay : FullRelayUrl Uri.sampleCrates.url where
  url := "wss://relay.example.com/"
  scheme := .wss
  hasTrailingSlash := false
  parsed := sampleRelay_parsed
  schemeOfUrl := sampleRelay_scheme

/-- A relay URL with a path that ends in a slash. -/
def pathRelay : FullRelayUrl Uri.sampleCrates.url where
  url := "wss://relay.example.com/a/"
  scheme := .wss
  hasTrailingSlash := true
  parsed := ⟨"wss://relay.example.com/a/", by decide +kernel⟩
  schemeOfUrl := by decide +kernel

theorem walletConnectUri_recovered_sample :
    ∃ back, parse hexExternals Uri.sampleCrates ((sampleUri [sampleRelay]).toString hexExternals) =
      .ok back ∧ (back == sampleUri [sampleRelay]) = true := by
  refine (walletConnectUri_recovered Uri.sampleCrates_standard hexExternals_hexCodec
    (sampleUri [sampleRelay]) (List.cons_ne_nil _ _)).mpr fun relay member => ?_
  cases List.mem_singleton.mp member
  exact ⟨by decide +kernel, by decide +kernel, by decide +kernel⟩

def trimmedRelay : FullRelayUrl Uri.sampleCrates.url where
  url := "wss://relay.example.com/a"
  scheme := .wss
  hasTrailingSlash := false
  parsed := ⟨"wss://relay.example.com/a", by decide +kernel⟩
  schemeOfUrl := by decide +kernel

/-- The path comes back without its slash, and that is another relay. -/
theorem walletConnectUri_trimmed :
    (∃ back, parse hexExternals Uri.sampleCrates
        ((sampleUri [pathRelay]).toString hexExternals) = .ok back ∧
      (back == sampleUri [trimmedRelay]) = true ∧ (back == sampleUri [pathRelay]) = false) ∧
    ¬ ∀ uri : NostrWalletConnectUri Uri.sampleCrates, uri.relays ≠ [] →
      ∃ back, parse hexExternals Uri.sampleCrates (uri.toString hexExternals) = .ok back ∧
        (back == uri) = true := by
  have trimmed : trimmedRelay.ReadFrom pathRelay.asStrWithoutTrailingSlash :=
    ⟨by decide +kernel, by decide +kernel, by decide +kernel⟩
  obtain ⟨relay, read, same⟩ := (FullRelayUrl.parse_iff trimmedRelay _).mpr trimmed
  have carries : (sampleUri [pathRelay]).carried = [relay] := by
    change List.filterMap _ [pathRelay] = _
    rw [List.filterMap_cons, read]
    rfl
  have parsed := parse_toString Uri.sampleCrates_standard hexExternals_hexCodec
    (sampleUri [pathRelay])
  rw [carries, if_neg (List.cons_ne_nil _ _)] at parsed
  have relays (known : FullRelayUrl Uri.sampleCrates.url) :
      (({ sampleUri [pathRelay] with relays := [relay] } : NostrWalletConnectUri Uri.sampleCrates) ==
        sampleUri [known]) = (relay == known) := by
    refine ((sampleUri [pathRelay]).beq_relays [relay] [known]).trans ?_
    rw [List.cons_beq_cons, beq_self_eq_true, Bool.and_true]
  have other : (relay == pathRelay) = false := by
    rw [Bool.eq_false_iff, Ne, FullRelayUrl.beq_iff, FullRelayUrl.beq_iff.mp same]
    decide
  refine ⟨⟨_, parsed, (relays trimmedRelay).trans same, (relays pathRelay).trans other⟩, ?_⟩
  intro always
  obtain ⟨back, found, equal⟩ := always (sampleUri [pathRelay]) (List.cons_ne_nil _ _)
  cases parsed.symm.trans found
  rw [relays, other] at equal
  cases equal

end NostrWalletConnectUri

end RustNostr
