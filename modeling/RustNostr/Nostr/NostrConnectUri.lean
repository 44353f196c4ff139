import Mathlib
import RustNostr.Nostr.ExternalContent
import RustNostr.Nostr.Uri

/-!
# Signer connection URIs

Printing and reading the URIs of NIP-46 (`nostr/src/nips/nip46.rs`). Their parts are
written into the query as they are.
-/

set_option autoImplicit false

namespace RustNostr

open Library

/-! ## Metadata -/

structure NostrConnectMetadata (crate : UrlCrate) where
  name : String
  url : Option (Url crate)
  description : Option String
  icons : Option (List (Url crate))
  deriving DecidableEq

def NostrConnectMetadata.asJson {crate : UrlCrate} (metadata : NostrConnectMetadata crate) : String :=
  Json.object <|
    [("name", Json.string metadata.name)] ++
    (metadata.url.map fun url => ("url", Json.string url.serialization)).toList ++
    (metadata.description.map fun description => ("description", Json.string description)).toList ++
    (metadata.icons.map fun icons =>
      ("icons", Json.array (icons.map fun icon => Json.string icon.serialization))).toList

/-! ### Texts without control characters -/

/-- A text without control characters. -/
def Json.Printed (text : String) : Prop := ∀ char ∈ text.toList, 32 ≤ char.toNat

namespace Json.Printed

theorem append {left right : String} (first : Json.Printed left) (second : Json.Printed right) :
    Json.Printed (left ++ right) := by
  intro char member
  rw [String.toList_append] at member
  exact (List.mem_append.mp member).elim (first char) (second char)

theorem intercalate {items : List String} (each : ∀ item ∈ items, Json.Printed item) :
    Json.Printed (",".intercalate items) := by
  have comma : Json.Printed "," := by simp [Json.Printed]
  induction items with
  | nil => simp [Json.Printed]
  | cons first items ih =>
      obtain ⟨here, others⟩ := List.forall_mem_cons.mp each
      cases items with
      | nil => rwa [String.intercalate_singleton]
      | cons second items =>
          rw [String.intercalate_cons_cons]
          exact (here.append comma).append (ih others)

theorem string (text : String) : Json.Printed (Json.string text) := by
  have quote : Json.Printed Json.quote := by simp [Json.Printed, Json.quote]
  refine (quote.append fun char member => ?_).append quote
  rw [String.toList_ofList] at member
  obtain ⟨source, _, written⟩ := List.mem_flatMap.mp member
  have digits : ∀ digit < 16, 32 ≤ (Json.hexDigit digit).toNat := by decide
  unfold Json.escapeChar at written
  split_ifs at written
  case neg printed _ _ _ _ _ _ =>
    cases List.mem_singleton.mp written
    omega
  all_goals simp only [List.mem_cons, List.not_mem_nil, or_false] at written
  -- One escape has digits, the others are two characters.
  all_goals rcases written with rfl | rfl | rfl | rfl | rfl | rfl
  all_goals first | decide | exact digits _ (by omega)

theorem array {items : List String} (each : ∀ item ∈ items, Json.Printed item) :
    Json.Printed (Json.array items) := by
  have opened : Json.Printed "[" := by simp [Json.Printed]
  have closed : Json.Printed "]" := by simp [Json.Printed]
  exact (opened.append (intercalate each)).append closed

theorem object {fields : List (String × String)} (each : ∀ field ∈ fields, Json.Printed field.2) :
    Json.Printed (Json.object fields) := by
  have opened : Json.Printed "\x7b" := by simp [Json.Printed]
  have closed : Json.Printed "\x7d" := by simp [Json.Printed]
  have colon : Json.Printed ":" := by simp [Json.Printed]
  refine (opened.append (intercalate fun item member => ?_)).append closed
  obtain ⟨field, present, same⟩ := List.mem_map.mp member
  exact same ▸ ((string field.1).append colon).append (each field present)

end Json.Printed

theorem NostrConnectMetadata.printed_asJson {crate : UrlCrate} (metadata : NostrConnectMetadata crate) :
    Json.Printed metadata.asJson := by
  refine .object fun field member => ?_
  simp only [List.mem_append, List.mem_singleton, Option.mem_toList, Option.map_eq_some_iff] at member
  rcases member with ((rfl | ⟨url, _, rfl⟩) | ⟨description, _, rfl⟩) | ⟨icons, _, rfl⟩
  · exact .string _
  · exact .string _
  · exact .string _
  · refine .array fun item present => ?_
    obtain ⟨icon, _, rfl⟩ := List.mem_map.mp present
    exact .string _

/-! ## URIs -/

inductive NostrConnectUri (crates : UriCrates) where
  | bunker (remoteSignerPublicKey : PublicKey) (relays : List (FullRelayUrl crates.url))
      (secret : Option String)
  | client (publicKey : PublicKey) (relays : List (FullRelayUrl crates.url))
      (metadata : NostrConnectMetadata crates.url) (secret : String)

/-- `strip_suffix('/')`, or the text itself. -/
def stripSlash (text : String) : String :=
  if FullRelayUrl.endsWithSlash text then String.ofList text.toList.dropLast else text

namespace NostrConnectUri

variable {crates : UriCrates}

instance : BEq (NostrConnectUri crates) where
  beq left right := match left, right with
    | bunker key relays secret, bunker key' relays' secret' =>
        key == key' && relays == relays' && secret == secret'
    | client key relays metadata secret, client key' relays' metadata' secret' =>
        key == key' && relays == relays' && metadata == metadata' && secret == secret'
    | _, _ => false

section Codec

variable (externals : Externals)
    (parseJson : String → Except Error (NostrConnectMetadata crates.url))

/-- Ampersands stand between the parts of a query. -/
def pushPart (query part : List Char) : List Char :=
  (if query.isEmpty then query else query ++ ['&']) ++ part

def bunkerQuery (relays : List (FullRelayUrl crates.url)) (secret : Option String) : List Char :=
  let query := relays.foldl
    (fun query relayUrl => pushPart query ("relay=".toList ++ (stripSlash relayUrl.asStr).toList)) []
  match secret with
  | some secret => pushPart query ("secret=".toList ++ secret.toList)
  | none => query

/-- `Display` -/
def toString : NostrConnectUri crates → String
  | bunker remoteSignerPublicKey relays secret =>
      let query := bunkerQuery relays secret
      writeUri nostrConnectBunkerUriScheme (remoteSignerPublicKey.toHex externals)
        (if query.isEmpty then none else some query)
  | client publicKey relays metadata secret =>
      let relaysStr := relays.flatMap fun relayUrl =>
        "&relay=".toList ++ relayUrl.asStrWithoutTrailingSlash.toList
      writeUri nostrConnectUriScheme (publicKey.toHex externals)
        (some ("metadata=".toList ++ metadata.asJson.toList ++ relaysStr ++ "&secret=".toList ++
          secret.toList))

/-- What a loop over the pairs of the query has found. -/
structure Found (crates : UriCrates) where
  relays : List (FullRelayUrl crates.url) := []
  metadata : Option (NostrConnectMetadata crates.url) := none
  secret : Option String := none

def visitBunker (found : Found crates) (pair : String × String) : Except Error (Found crates) :=
  if pair.1 = "relay" then do
    let relayUrl ← FullRelayUrl.parse crates.url pair.2
    .ok { found with relays := found.relays ++ [relayUrl] }
  else if pair.1 = "secret" then .ok { found with secret := some pair.2 }
  else .ok found

def visitClient (found : Found crates) (pair : String × String) : Except Error (Found crates) :=
  if pair.1 = "relay" then do
    let relayUrl ← FullRelayUrl.parse crates.url pair.2
    .ok { found with relays := found.relays ++ [relayUrl] }
  else if pair.1 = "metadata" then do
    let metadata ← parseJson pair.2
    .ok { found with metadata := some metadata }
  else if pair.1 = "secret" then .ok { found with secret := some pair.2 }
  else .ok found

def parse (uri : String) : Except Error (NostrConnectUri crates) := do
  let url ← (crates.url.parse uri).mapError fun _ => .invalidUri
  if crates.url.scheme url = nostrConnectBunkerUriScheme then
    match crates.domain url with
    | some pubkey => do
        let publicKey ← PublicKey.fromHex externals pubkey
        let found ← (crates.queryPairs url).foldlM visitBunker {}
        .ok (bunker publicKey found.relays found.secret)
    | none => .error .invalidUri
  else if crates.url.scheme url = nostrConnectUriScheme then
    match crates.domain url with
    | some pubkey => do
        let publicKey ← PublicKey.fromHex externals pubkey
        let found ← (crates.queryPairs url).foldlM (visitClient parseJson) {}
        match found.metadata, found.secret with
        | some metadata, some secret => .ok (client publicKey found.relays metadata secret)
        | _, _ => .error .invalidUri
    | none => .error .invalidUri
  else .error .invalidUri

end Codec

/-! ## The query -/

/-- The pairs before the secret. -/
def front : NostrConnectUri crates → List (List Char × List Char)
  | bunker _ relays _ => relays.map fun relayUrl =>
      ("relay".toList, (stripSlash relayUrl.asStr).toList)
  | client _ relays metadata _ => ("metadata".toList, metadata.asJson.toList) ::
      relays.map fun relayUrl => ("relay".toList, relayUrl.asStrWithoutTrailingSlash.toList)

theorem pushPart_writePair (pairs : List (List Char × List Char)) (pair : List Char × List Char) :
    pushPart (writePairs pairs) (writePair pair) = writePairs (pairs ++ [pair]) := by
  cases pairs with
  | nil => simp [pushPart, writePairs]
  | cons first rest =>
      have filled : (writePairs (first :: rest)).isEmpty = false := by
        rw [Bool.eq_false_iff, Ne, List.isEmpty_iff, writePairs_eq_nil]
        exact List.cons_ne_nil first rest
      rw [pushPart, filled, if_neg Bool.false_ne_true, List.append_assoc, List.singleton_append,
        writePairs_append (List.cons_ne_nil first rest)]

theorem foldl_pushPart (relays : List (FullRelayUrl crates.url)) (pairs : List (List Char × List Char)) :
    relays.foldl (fun query relayUrl =>
        pushPart query ("relay=".toList ++ (stripSlash relayUrl.asStr).toList)) (writePairs pairs) =
      writePairs (pairs ++ relays.map fun relayUrl =>
        ("relay".toList, (stripSlash relayUrl.asStr).toList)) := by
  induction relays generalizing pairs with
  | nil => simp
  | cons relay relays ih =>
      have part : "relay=".toList ++ (stripSlash relay.asStr).toList =
          writePair ("relay".toList, (stripSlash relay.asStr).toList) := by
        simp [writePair]
      rw [List.foldl_cons, part, pushPart_writePair, ih, List.map_cons, List.append_assoc,
        List.singleton_append]

theorem bunkerQuery_eq (key : PublicKey) (relays : List (FullRelayUrl crates.url))
    (secret : Option String) : bunkerQuery relays secret =
      writePairs ((bunker key relays secret).front ++
        (secret.map fun secret => ("secret".toList, secret.toList)).toList) := by
  have relaysQuery := foldl_pushPart relays []
  rw [writePairs_eq_nil.mpr rfl, List.nil_append] at relaysQuery
  unfold bunkerQuery
  cases secret with
  | none =>
      simp only [relaysQuery, Option.map_none, Option.toList_none, List.append_nil]
      rfl
  | some secret =>
      have part : "secret=".toList ++ secret.toList = writePair ("secret".toList, secret.toList) := by
        simp [writePair]
      simp only [relaysQuery, part, pushPart_writePair]
      rfl

theorem clientQuery_eq (key : PublicKey) (relays : List (FullRelayUrl crates.url))
    (metadata : NostrConnectMetadata crates.url) (secret : String) :
    "metadata=".toList ++ metadata.asJson.toList ++ (relays.flatMap fun relayUrl =>
        "&relay=".toList ++ relayUrl.asStrWithoutTrailingSlash.toList) ++ "&secret=".toList ++
        secret.toList =
      writePairs ((client key relays metadata secret).front ++
        [("secret".toList, secret.toList)]) := by
  rw [front, List.cons_append, writePairs_cons, List.flatMap_append, List.flatMap_map]
  simp [writePair]

/-! ## The loops -/

section Loops

/-- What the two loops have in common. -/
structure Visits (visit : Found crates → String × String → Except Error (Found crates)) : Prop where
  relay : ∀ found text, visit found ("relay", text) =
    (FullRelayUrl.parse crates.url text).map fun relayUrl =>
      { found with relays := found.relays ++ [relayUrl] }
  secret : ∀ found text, visit found ("secret", text) = .ok { found with secret := some text }
  keeps : ∀ found pair found', visit found pair = .ok found' →
    found'.secret = found.secret ∨ found'.secret = some pair.2

theorem visits_bunker : @Visits crates visitBunker where
  relay found text := by
    rw [visitBunker, if_pos rfl]
    cases FullRelayUrl.parse crates.url text <;> rfl
  secret found text := by
    have other : ("secret" : String) ≠ "relay" := by decide
    rw [visitBunker, if_neg other, if_pos rfl]
  keeps found pair found' visited := by
    unfold visitBunker at visited
    split at visited
    next =>
      cases parsed : FullRelayUrl.parse crates.url pair.2 with
      | error error =>
          rw [parsed] at visited
          cases visited
      | ok relayUrl =>
          rw [parsed] at visited
          cases visited
          exact .inl rfl
    next =>
      split at visited
      next =>
        cases visited
        exact .inr rfl
      next =>
        cases visited
        exact .inl rfl

theorem visits_client (parseJson : String → Except Error (NostrConnectMetadata crates.url)) :
    Visits (visitClient parseJson) where
  relay found text := by
    rw [visitClient, if_pos rfl]
    cases FullRelayUrl.parse crates.url text <;> rfl
  secret found text := by
    have other : ("secret" : String) ≠ "relay" ∧ ("secret" : String) ≠ "metadata" := by decide
    rw [visitClient, if_neg other.1, if_neg other.2, if_pos rfl]
  keeps found pair found' visited := by
    unfold visitClient at visited
    split at visited
    next =>
      cases parsed : FullRelayUrl.parse crates.url pair.2 with
      | error error =>
          rw [parsed] at visited
          cases visited
      | ok relayUrl =>
          rw [parsed] at visited
          cases visited
          exact .inl rfl
    next =>
      split at visited
      next =>
        cases parsed : parseJson pair.2 with
        | error error =>
            rw [parsed] at visited
            cases visited
        | ok metadata =>
            rw [parsed] at visited
            cases visited
            exact .inl rfl
      next =>
        split at visited
        next =>
          cases visited
          exact .inr rfl
        next =>
          cases visited
          exact .inl rfl

variable {visit : Found crates → String × String → Except Error (Found crates)}

theorem Visits.foldlM_relays (visits : Visits visit) (relays : List (FullRelayUrl crates.url))
    (text : FullRelayUrl crates.url → String) (found : Found crates) :
    (relays.map fun relayUrl => ("relay", text relayUrl)).foldlM visit found =
      (relays.mapM fun relayUrl => FullRelayUrl.parse crates.url (text relayUrl)).map fun backs =>
        { found with relays := found.relays ++ backs } := by
  induction relays generalizing found with
  | nil => simp [pure, Except.pure, Except.map]
  | cons relay relays ih =>
      rw [List.map_cons, List.foldlM_cons, visits.relay, List.mapM_cons]
      cases FullRelayUrl.parse crates.url (text relay) with
      | error error => rfl
      | ok back =>
          refine (ih _).trans ?_
          cases relays.mapM fun relayUrl => FullRelayUrl.parse crates.url (text relayUrl) with
          | error error => rfl
          | ok backs => simp [Except.map, Bind.bind, Except.bind, pure, Except.pure]

/-- The secret of a run is one of the values it went over. -/
theorem Visits.secret_of_run (visits : Visits visit) {pairs : List (String × String)}
    {found found' : Found crates} (run : pairs.foldlM visit found = .ok found') :
    found'.secret = found.secret ∨ ∃ pair ∈ pairs, found'.secret = some pair.2 := by
  induction pairs generalizing found with
  | nil =>
      cases run
      exact .inl rfl
  | cons pair pairs ih =>
      rw [List.foldlM_cons] at run
      cases visited : visit found pair with
      | error error =>
          rw [visited] at run
          cases run
      | ok next =>
          rw [visited] at run
          rcases ih run with same | later
          · rcases visits.keeps found pair next visited with before | here
            · exact .inl (same.trans before)
            · exact .inr ⟨pair, List.mem_cons_self, same.trans here⟩
          · obtain ⟨other, member, value⟩ := later
            exact .inr ⟨other, .tail _ member, value⟩

theorem secretName : ('&' ∉ "secret".toList ∧ '=' ∉ "secret".toList) ∧
    ∀ char ∈ "secret".toList, queryEncoded char = false := by
  simp [queryEncoded]

/-- The pairs of a secret give it back exactly if it is transparent. -/
theorem Visits.foldlM_secret (visits : Visits visit) (secret : String) {found : Found crates}
    (fresh : found.secret = none) (holds : Found crates → Prop) :
    (∃ found', ((queryPairs ("secret".toList ++ '=' :: queryText secret.toList)).map
        decodedPair).foldlM visit found = .ok found' ∧ found'.secret = some secret ∧ holds found') ↔
      Transparent secret.toList ∧ holds { found with secret := some secret } := by
  obtain ⟨plain, unencoded⟩ := secretName
  have read (transparent : Transparent secret.toList) :
      ((queryPairs ("secret".toList ++ '=' :: queryText secret.toList)).map decodedPair).foldlM
        visit found = .ok { found with secret := some secret } := by
    obtain ⟨pairs, decoded⟩ := transparent.queryPairs plain
    rw [pairs, List.map_singleton, decodedPair_of_plain unencoded, decoded, String.ofList_toList,
      List.foldlM_cons, visits.secret]
    rfl
  constructor
  · intro found'
    obtain ⟨found', run, same, after⟩ := found'
    have transparent : Transparent secret.toList := by
      rcases visits.secret_of_run run with before | later
      · rw [same, fresh] at before
        cases before
      · obtain ⟨pair, member, value⟩ := later
        obtain ⟨raw, present, decoded⟩ := List.mem_map.mp member
        refine transparent_of_mem plain present ?_
        rw [same, Option.some.injEq, ← decoded] at value
        rw [value, decodedPair, String.toList_ofList]
    rw [read transparent] at run
    cases run
    exact ⟨transparent, after⟩
  · intro both
    exact ⟨_, read both.1, rfl, both.2⟩

end Loops

/-! ## Reading back -/

section Recovered

variable {externals : Externals} {parseJson : String → Except Error (NostrConnectMetadata crates.url)}

def relays : NostrConnectUri crates → List (FullRelayUrl crates.url)
  | bunker _ relays _ => relays
  | client _ relays _ _ => relays

def secret : NostrConnectUri crates → Option String
  | bunker _ _ secret => secret
  | client _ _ _ secret => some secret

/-- The text that a relay is written as. -/
def relayText : NostrConnectUri crates → FullRelayUrl crates.url → String
  | bunker _ _ _, relayUrl => stripSlash relayUrl.asStr
  | client _ _ _ _, relayUrl => relayUrl.asStrWithoutTrailingSlash

/-- No relay or metadata ends its pair or the query. -/
def Separate (uri : NostrConnectUri crates) : Prop :=
  ∀ pair ∈ uri.front, '&' ∉ pair.2 ∧ '#' ∉ pair.2

/-- The relays and the metadata are read from their texts as a form is decoded. -/
def FrontRead (parseJson : String → Except Error (NostrConnectMetadata crates.url))
    (uri : NostrConnectUri crates) : Prop :=
  (∀ relayUrl ∈ uri.relays,
    relayUrl.ReadFrom (String.ofList (formDecode (uri.relayText relayUrl).toList))) ∧
  match uri with
  | bunker _ _ _ => True
  | client _ _ metadata _ =>
      parseJson (String.ofList (formDecode metadata.asJson.toList)) = .ok metadata

theorem names_plain : (∀ char ∈ "relay".toList, queryEncoded char = false) ∧
    ∀ char ∈ "metadata".toList, queryEncoded char = false := by
  simp [queryEncoded]

theorem map_decodedPair_relays (relays : List (FullRelayUrl crates.url))
    (text : FullRelayUrl crates.url → String) :
    (relays.map fun relayUrl => ("relay".toList, (text relayUrl).toList)).map decodedPair =
      relays.map fun relayUrl => ("relay", String.ofList (formDecode (text relayUrl).toList)) := by
  rw [List.map_map]
  exact List.map_congr_left fun relayUrl _ => decodedPair_of_plain names_plain.1 _

/-! ### The front of the query -/

theorem mem_of_mem_trimSlashes {text : String} {char : Char}
    (member : char ∈ (FullRelayUrl.trimSlashes text).toList) : char ∈ text.toList := by
  rw [FullRelayUrl.trimSlashes, String.toList_ofList, List.mem_reverse] at member
  exact List.mem_reverse.mp ((List.dropWhile_sublist _).mem member)

theorem mem_of_mem_relayText {uri : NostrConnectUri crates} {relayUrl : FullRelayUrl crates.url}
    {char : Char} (member : char ∈ (uri.relayText relayUrl).toList) : char ∈ relayUrl.url.toList := by
  have trimmed : char ∈ relayUrl.asStr.toList → char ∈ relayUrl.url.toList := by
    unfold FullRelayUrl.asStr
    split
    next => exact mem_of_mem_trimSlashes
    next => exact id
  cases uri with
  | bunker =>
      refine trimmed ?_
      rw [relayText, stripSlash] at member
      split at member
      next =>
        rw [String.toList_ofList] at member
        exact List.mem_of_mem_dropLast member
      next => exact member
  | client => exact mem_of_mem_trimSlashes member

/-- What the pairs before the secret are. -/
theorem mem_front {uri : NostrConnectUri crates} {pair : List Char × List Char}
    (member : pair ∈ uri.front) :
    (∃ relayUrl ∈ uri.relays, pair = ("relay".toList, (uri.relayText relayUrl).toList)) ∨
      ∃ metadata : NostrConnectMetadata crates.url, pair = ("metadata".toList, metadata.asJson.toList) := by
  cases uri with
  | bunker key relays secret =>
      obtain ⟨relayUrl, present, rfl⟩ := List.mem_map.mp member
      exact .inl ⟨relayUrl, present, rfl⟩
  | client key relays metadata secret =>
      rcases List.mem_cons.mp member with rfl | member
      · exact .inr ⟨metadata, rfl⟩
      · obtain ⟨relayUrl, present, rfl⟩ := List.mem_map.mp member
        exact .inl ⟨relayUrl, present, rfl⟩

theorem plain_front {uri : NostrConnectUri crates} (separate : uri.Separate) :
    ∀ pair ∈ uri.front, PlainPair pair := by
  have names : ('&' ∉ "relay".toList ∧ '=' ∉ "relay".toList) ∧
      '&' ∉ "metadata".toList ∧ '=' ∉ "metadata".toList := by simp
  intro pair member
  have value := (separate pair member).1
  rcases mem_front member with ⟨relayUrl, _, rfl⟩ | ⟨metadata, rfl⟩
  · exact ⟨names.1.1, names.1.2, value⟩
  · exact ⟨names.2.1, names.2.2, value⟩

theorem isTabOrNewline_of_le {char : Char} (printed : 32 ≤ char.toNat) :
    isTabOrNewline char = false := by
  rw [Bool.eq_false_iff]
  intro broken
  simp only [isTabOrNewline, Bool.or_eq_true, decide_eq_true_eq] at broken
  rcases broken with (rfl | rfl) | rfl <;> exact absurd printed (by decide)

theorem printed_front (visible : crates.Visible) {uri : NostrConnectUri crates}
    {pair : List Char × List Char} (member : pair ∈ uri.front) :
    ∀ char, char ∈ pair.1 ∨ char ∈ pair.2 → 32 ≤ char.toNat := by
  have names : (∀ char ∈ "relay".toList, 32 ≤ char.toNat) ∧
      ∀ char ∈ "metadata".toList, 32 ≤ char.toNat := by simp
  intro char inside
  rcases mem_front member with ⟨relayUrl, _, rfl⟩ | ⟨metadata, rfl⟩
  · rcases inside with name | value
    · exact names.1 char name
    · exact Nat.le_of_lt (visible relayUrl char (mem_of_mem_relayText value)).1
  · rcases inside with name | value
    · exact names.2 char name
    · exact metadata.printed_asJson char value

theorem noFragment_front {uri : NostrConnectUri crates} (separate : uri.Separate) :
    ∀ pair ∈ uri.front, '#' ∉ pair.1 ∧ '#' ∉ pair.2 := by
  have names : '#' ∉ "relay".toList ∧ '#' ∉ "metadata".toList := by simp
  intro pair member
  refine ⟨?_, (separate pair member).2⟩
  rcases mem_front member with ⟨relayUrl, _, rfl⟩ | ⟨metadata, rfl⟩
  · exact names.1
  · exact names.2

/-- The part of the query before the secret is kept. -/
theorem kept_front (visible : crates.Visible) {uri : NostrConnectUri crates}
    (separate : uri.Separate) : Kept (writePairs (uri.front ++ [("secret".toList, [])])) := by
  have name : (∀ char ∈ "secret".toList, 32 ≤ char.toNat) ∧ '#' ∉ "secret".toList := by simp
  have last : ∃ before, writePairs (uri.front ++ [("secret".toList, [])]) = before ++ ['='] := by
    cases empty : uri.front with
    | nil => exact ⟨"secret".toList, by simp [writePairs_cons, writePair]⟩
    | cons first rest =>
        refine ⟨writePairs (first :: rest) ++ '&' :: "secret".toList, ?_⟩
        rw [writePairs_append (List.cons_ne_nil first rest)]
        simp [writePair]
  refine ⟨?_, fun char member => ?_, fun member => ?_⟩
  · obtain ⟨before, shape⟩ := last
    rw [shape, trimEnd, List.reverse_append, List.reverse_singleton, List.singleton_append,
      List.dropWhile_cons_of_neg (by decide), List.reverse_cons, List.reverse_reverse]
  · refine isTabOrNewline_of_le ?_
    rcases mem_writePairs member with rfl | rfl | ⟨pair, present, inside⟩
    · decide
    · decide
    · rcases List.mem_append.mp present with front | here
      · exact printed_front visible front char inside
      · cases List.mem_singleton.mp here
        rcases inside with inside | inside
        · exact name.1 char inside
        · cases inside
  · rcases mem_writePairs member with same | same | ⟨pair, present, inside⟩
    · exact absurd same (by decide)
    · exact absurd same (by decide)
    · rcases List.mem_append.mp present with front | here
      · exact inside.elim (noFragment_front separate pair front).1 (noFragment_front separate pair front).2
      · cases List.mem_singleton.mp here
        rcases inside with inside | inside
        · exact name.2 inside
        · cases inside

/-! ### The whole -/

def scheme : NostrConnectUri crates → String
  | bunker _ _ _ => nostrConnectBunkerUriScheme
  | client _ _ _ _ => nostrConnectUriScheme

def key : NostrConnectUri crates → PublicKey
  | bunker key _ _ => key
  | client key _ _ _ => key

def visit (parseJson : String → Except Error (NostrConnectMetadata crates.url)) :
    NostrConnectUri crates → Found crates → String × String → Except Error (Found crates)
  | bunker _ _ _ => visitBunker
  | client _ _ _ _ => visitClient parseJson

theorem visits (uri : NostrConnectUri crates) : Visits (uri.visit parseJson) := by
  cases uri with
  | bunker => exact visits_bunker
  | client => exact visits_client parseJson

/-- The loop has found the relays and the metadata. -/
def Holds (uri : NostrConnectUri crates) (found : Found crates) : Prop :=
  (found.relays == uri.relays) = true ∧
  match uri with
  | bunker _ _ _ => True
  | client _ _ metadata _ => found.metadata = some metadata

theorem toString_eq (uri : NostrConnectUri crates) :
    uri.toString externals = writeUri uri.scheme (uri.key.toHex externals)
      (if writePairs (uri.front ++ (uri.secret.map fun secret =>
          ("secret".toList, secret.toList)).toList) = [] then none
        else some (writePairs (uri.front ++ (uri.secret.map fun secret =>
          ("secret".toList, secret.toList)).toList))) := by
  cases uri with
  | bunker key relays secret =>
      rw [toString, bunkerQuery_eq key]
      simp only [List.isEmpty_iff]
      rfl
  | client key relays metadata secret =>
      rw [toString, clientQuery_eq key, if_neg]
      · rfl
      · rw [writePairs_eq_nil]
        exact List.cons_ne_nil _ _

theorem scheme_mem (uri : NostrConnectUri crates) : uri.scheme ∈ uriSchemes := by
  cases uri <;> simp [scheme, uriSchemes]

/-- A URI is parsed to itself if its parts are found. -/
theorem parse_written (standard : crates.Standard) (codec : HexCodec externals)
    (uri : NostrConnectUri crates) {query : Option (List Char)} {url : String}
    (parsed : crates.url.parse (writeUri uri.scheme (uri.key.toHex externals) query) = .ok url) :
    (∃ back, parse externals parseJson (writeUri uri.scheme (uri.key.toHex externals) query) =
        .ok back ∧ (back == uri) = true) ↔
      ∃ found, (crates.queryPairs url).foldlM (uri.visit parseJson) {} = .ok found ∧
        found.secret = uri.secret ∧ uri.Holds found := by
  obtain ⟨schemeOf, domainOf, _⟩ :=
    standard.parts _ uri.scheme_mem _ (plainHost_toHex codec uri.key) query url parsed
  rw [parse, parsed]
  simp only [Except.mapError, bind, Except.bind, schemeOf, domainOf, PublicKey.fromHex_toHex codec]
  cases uri with
  | bunker key relays secret =>
      simp only [scheme, if_true, visit, Holds, NostrConnectUri.relays, NostrConnectUri.secret, and_true]
      cases (crates.queryPairs url).foldlM visitBunker {} with
      | error error => simp
      | ok found =>
          simp only [Except.ok.injEq, exists_eq_left', NostrConnectUri.key]
          change (key == key && found.relays == relays && found.secret == secret) = true ↔ _
          simp only [beq_self_eq_true, Bool.true_and, Bool.and_eq_true, beq_iff_eq]
          exact and_comm
  | client key relays metadata secret =>
      have other : nostrConnectUriScheme ≠ nostrConnectBunkerUriScheme := by decide
      simp only [scheme, if_neg other, if_true, visit, Holds, NostrConnectUri.relays,
        NostrConnectUri.secret]
      cases (crates.queryPairs url).foldlM (visitClient parseJson) {} with
      | error error => simp
      | ok found =>
          obtain ⟨relays', metadata', secret'⟩ := found
          simp only [Except.ok.injEq, exists_eq_left', NostrConnectUri.key]
          cases metadata' with
          | none => simp
          | some metadata' =>
              cases secret' with
              | none => simp
              | some secret' =>
                  simp only [Except.ok.injEq, exists_eq_left']
                  change (key == key && relays' == relays && metadata' == metadata &&
                    secret' == secret) = true ↔ _
                  simp only [beq_self_eq_true, Bool.true_and, Bool.and_eq_true, beq_iff_eq,
                    Option.some.injEq]
                  tauto

/-- What the loop makes of the front. -/
theorem foldlM_front_bunker (key : PublicKey) (relays : List (FullRelayUrl crates.url))
    (secret : Option String) :
    ((bunker key relays secret : NostrConnectUri crates).front.map decodedPair).foldlM visitBunker {} =
      (relays.mapM fun relayUrl => FullRelayUrl.parse crates.url
        (String.ofList (formDecode (stripSlash relayUrl.asStr).toList))).map fun backs =>
          { relays := backs } := by
  rw [front, map_decodedPair_relays relays fun relayUrl => stripSlash relayUrl.asStr]
  exact visits_bunker.foldlM_relays relays _ {}

theorem foldlM_front_client (key : PublicKey) (relays : List (FullRelayUrl crates.url))
    (metadata : NostrConnectMetadata crates.url) (secret : String) :
    ((client key relays metadata secret).front.map decodedPair).foldlM (visitClient parseJson) {} =
      (parseJson (String.ofList (formDecode metadata.asJson.toList))).bind fun found =>
        (relays.mapM fun relayUrl => FullRelayUrl.parse crates.url
          (String.ofList (formDecode relayUrl.asStrWithoutTrailingSlash.toList))).map fun backs =>
            { relays := backs, metadata := some found } := by
  have other : ("metadata" : String) ≠ "relay" := by decide
  rw [front, List.map_cons, decodedPair_of_plain names_plain.2,
    map_decodedPair_relays relays FullRelayUrl.asStrWithoutTrailingSlash, List.foldlM_cons,
    visitClient, if_neg other, if_pos rfl]
  cases parseJson (String.ofList (formDecode metadata.asJson.toList)) with
  | error error => rfl
  | ok found => exact (visits_client parseJson).foldlM_relays relays _ { metadata := some found }

/-- The front is found exactly if the relays and the metadata are read from their texts. -/
theorem foldlM_front (uri : NostrConnectUri crates) :
    (∃ found, (uri.front.map decodedPair).foldlM (uri.visit parseJson) {} = .ok found ∧
      uri.Holds found) ↔ uri.FrontRead parseJson := by
  cases uri with
  | bunker key relays secret =>
      have read := @FullRelayUrl.mapM_parse_iff crates.url (fun relayUrl =>
        String.ofList (formDecode (stripSlash relayUrl.asStr).toList)) relays
      rw [visit, foldlM_front_bunker, FrontRead, and_true]
      refine Iff.trans ?_ read
      cases relays.mapM fun relayUrl => FullRelayUrl.parse crates.url
          (String.ofList (formDecode (stripSlash relayUrl.asStr).toList)) with
      | error error => simp [Except.map]
      | ok backs => simp [Except.map, Holds, NostrConnectUri.relays]
  | client key relays metadata secret =>
      have read := @FullRelayUrl.mapM_parse_iff crates.url (fun relayUrl =>
        String.ofList (formDecode relayUrl.asStrWithoutTrailingSlash.toList)) relays
      rw [visit, foldlM_front_client, FrontRead]
      refine Iff.trans ?_ (and_congr_left' read)
      cases parseJson (String.ofList (formDecode metadata.asJson.toList)) with
      | error error => simp [Except.bind]
      | ok found =>
          cases relays.mapM fun relayUrl => FullRelayUrl.parse crates.url
              (String.ofList (formDecode relayUrl.asStrWithoutTrailingSlash.toList)) with
          | error error => simp [Except.bind, Except.map]
          | ok backs => simp [Except.bind, Except.map, Holds, NostrConnectUri.relays]

theorem secret_of_front (uri : NostrConnectUri crates) {found : Found crates}
    (run : (uri.front.map decodedPair).foldlM (uri.visit parseJson) {} = .ok found) :
    found.secret = none := by
  cases uri with
  | bunker key relays secret =>
      rw [visit, foldlM_front_bunker] at run
      cases backs : relays.mapM fun relayUrl => FullRelayUrl.parse crates.url
          (String.ofList (formDecode (stripSlash relayUrl.asStr).toList)) with
      | error error =>
          rw [backs] at run
          cases run
      | ok backs' =>
          rw [backs] at run
          cases run
          rfl
  | client key relays metadata secret =>
      rw [visit, foldlM_front_client] at run
      cases read : parseJson (String.ofList (formDecode metadata.asJson.toList)) with
      | error error =>
          rw [read] at run
          cases run
      | ok metadata' =>
          cases backs : relays.mapM fun relayUrl => FullRelayUrl.parse crates.url
              (String.ofList (formDecode relayUrl.asStrWithoutTrailingSlash.toList)) with
          | error error =>
              rw [read, backs] at run
              cases run
          | ok backs' =>
              rw [read, backs] at run
              cases run
              rfl

/-- A URI without a secret ends with its last relay. -/
theorem kept_relays (visible : crates.Visible) {uri : NostrConnectUri crates}
    (separate : uri.Separate) (bare : uri.secret = none) : Kept (writePairs uri.front) := by
  have name : (∀ char ∈ "relay".toList, 32 < char.toNat) ∧ '#' ∉ "relay".toList := by simp
  have shown : ∀ char ∈ writePairs uri.front, 32 < char.toNat ∧ char ≠ '#' := by
    intro char member
    rcases mem_writePairs member with rfl | rfl | ⟨pair, present, inside⟩
    · decide
    · decide
    · have noFragment := noFragment_front separate pair present
      have other : char ≠ '#' := by
        intro same
        subst same
        exact inside.elim noFragment.1 noFragment.2
      refine ⟨?_, other⟩
      cases uri with
      | client => cases bare
      | bunker key relays secret =>
          obtain ⟨relayUrl, _, rfl⟩ := List.mem_map.mp present
          rcases inside with name' | value
          · exact name.1 char name'
          · exact (visible relayUrl char
              (@mem_of_mem_relayText _ (bunker key relays secret) relayUrl char value)).1
  refine ⟨trimEnd_of_plain fun char member => ?_, fun char member => ?_, fun member => ?_⟩
  · exact decide_eq_false (Nat.not_le.mpr (shown char member).1)
  · exact isTabOrNewline_of_le (Nat.le_of_lt (shown char member).1)
  · exact (shown _ member).2 rfl

theorem Holds.withSecret {uri : NostrConnectUri crates} {found : Found crates} (secret : Option String) :
    uri.Holds { found with secret := secret } ↔ uri.Holds found := by
  cases uri <;> rfl

/-- The run over a query that ends with a secret. -/
theorem foldlM_query (uri : NostrConnectUri crates) (secret : String) :
    (∃ found, ((uri.front ++ queryPairs ("secret".toList ++ '=' :: queryText secret.toList)).map
        decodedPair).foldlM (uri.visit parseJson) {} = .ok found ∧ found.secret = some secret ∧
      uri.Holds found) ↔ uri.FrontRead parseJson ∧ Transparent secret.toList := by
  rw [List.map_append, List.foldlM_append, ← foldlM_front]
  cases run : (uri.front.map decodedPair).foldlM (uri.visit parseJson) {} with
  | error error => simp [Bind.bind, Except.bind]
  | ok found =>
      have fresh := uri.secret_of_front run
      have visits : Visits (uri.visit parseJson) := uri.visits
      have tail := visits.foldlM_secret secret fresh uri.Holds
      rw [Holds.withSecret] at tail
      simp only [Bind.bind, Except.bind, Except.ok.injEq, exists_eq_left']
      rw [tail, and_comm]

/-- The run over a query without a secret. -/
theorem foldlM_bareQuery (uri : NostrConnectUri crates) :
    (∃ found, (uri.front.map decodedPair).foldlM (uri.visit parseJson) {} = .ok found ∧
      found.secret = none ∧ uri.Holds found) ↔ uri.FrontRead parseJson := by
  rw [← foldlM_front]
  refine exists_congr fun found => and_congr_right fun run => ?_
  exact and_iff_right (uri.secret_of_front run)

/-- What the URI without a secret is parsed to. -/
theorem recovered_bare (standard : crates.Standard) (visible : crates.Visible)
    (codec : HexCodec externals) {uri : NostrConnectUri crates} (separate : uri.Separate)
    (bare : uri.secret = none) {query : Option (List Char)}
    (written : query = if writePairs uri.front = [] then none else some (writePairs uri.front)) :
    (∃ back, parse externals parseJson (writeUri uri.scheme (uri.key.toHex externals) query) =
        .ok back ∧ (back == uri) = true) ↔ uri.FrontRead parseJson := by
  have kept := kept_relays visible separate bare
  have plainHost := plainHost_toHex codec uri.key
  have noFragment : '#' ∉ query.getD [] := by
    subst written
    split
    next => exact List.not_mem_nil
    next => exact kept.2.2
  obtain ⟨url, parsed⟩ := standard.accepts _ uri.scheme_mem _ plainHost query noFragment
  obtain ⟨_, _, queryOf⟩ := standard.parts _ uri.scheme_mem _ plainHost query url parsed
  have pairs : crates.queryPairs url = uri.front.map decodedPair := by
    subst written
    split at queryOf
    next empty =>
      rw [UriCrates.queryPairs, queryOf, writePairs_eq_nil.mp empty]
      rfl
    next =>
      rw [UriCrates.queryPairs_eq queryOf, queryText_of_kept kept,
        queryPairs_writePairs (plain_front separate)]
  rw [parse_written standard codec uri parsed, pairs, bare]
  exact uri.foldlM_bareQuery

theorem recovered_secret (standard : crates.Standard) (visible : crates.Visible)
    (codec : HexCodec externals) {uri : NostrConnectUri crates} (separate : uri.Separate)
    {secret : String} (given : uri.secret = some secret) {query : List Char}
    (written : query = writePairs (uri.front ++ [("secret".toList, secret.toList)])) :
    (∃ back, parse externals parseJson (writeUri uri.scheme (uri.key.toHex externals) (some query)) =
        .ok back ∧ (back == uri) = true) ↔
      uri.FrontRead parseJson ∧ Transparent secret.toList := by
  have plainHost := plainHost_toHex codec uri.key
  cases parsed : crates.url.parse (writeUri uri.scheme (uri.key.toHex externals) (some query)) with
  | error error =>
      -- The crate fails on a fragment only, and a transparent secret has none.
      refine iff_of_false (fun found => ?_) fun both => ?_
      · obtain ⟨back, read, _⟩ := found
        rw [parse, parsed] at read
        cases read
      · have name : '#' ∉ "secret".toList := by simp
        have noFragment : '#' ∉ query := by
          intro member
          rcases mem_writePairs (written ▸ member) with same | same | ⟨pair, present, inside⟩
          · cases same
          · cases same
          · rcases List.mem_append.mp present with front | here
            · exact inside.elim (noFragment_front separate pair front).1
                (noFragment_front separate pair front).2
            · cases List.mem_singleton.mp here
              exact inside.elim name both.2.1.2.2
        obtain ⟨url, accepted⟩ := standard.accepts _ uri.scheme_mem _ plainHost (some query) noFragment
        cases parsed.symm.trans accepted
  | ok url =>
      obtain ⟨_, _, queryOf⟩ := standard.parts _ uri.scheme_mem _ plainHost _ url parsed
      rw [parse_written standard codec uri parsed, UriCrates.queryPairs_eq queryOf, written,
        queryPairs_queryText (plain_front separate) (kept_front visible separate), given]
      exact uri.foldlM_query secret

/-- If relays and metadata end nothing early, a URI comes back exactly if these are
read from their texts and the secret is transparent. -/
theorem nostrConnectUri_recovered (standard : crates.Standard) (visible : crates.Visible)
    (codec : HexCodec externals) (uri : NostrConnectUri crates) (separate : uri.Separate) :
    (∃ back, parse externals parseJson (uri.toString externals) = .ok back ∧ (back == uri) = true) ↔
      uri.FrontRead parseJson ∧ ∀ secret ∈ uri.secret, Transparent secret.toList := by
  rw [toString_eq]
  cases given : uri.secret with
  | none =>
      have recovered :=
        @recovered_bare crates externals parseJson standard visible codec uri separate given _ rfl
      simpa using recovered
  | some secret =>
      have filled : writePairs (uri.front ++ [("secret".toList, secret.toList)]) ≠ [] := by
        rw [Ne, writePairs_eq_nil]
        exact List.append_ne_nil_of_right_ne_nil _ (List.cons_ne_nil _ _)
      rw [Option.map_some, Option.toList_some, if_neg filled, recovered_secret standard visible codec
        separate given rfl]
      simp only [Option.mem_some_iff, forall_eq']

end Recovered

/-! ### Examples -/

def sampleRelay : FullRelayUrl Uri.sampleCrates.url where
  url := "wss://relay.example.com/"
  scheme := .wss
  hasTrailingSlash := false
  parsed := ⟨"wss://relay.example.com", by decide +kernel⟩
  schemeOfUrl := by decide +kernel

def sampleMetadata : NostrConnectMetadata Uri.sampleCrates.url where
  name := "Example"
  url := none
  description := none
  icons := none

/-- Reads the metadata of this example. -/
def sampleParseJson (text : String) : Except Error (NostrConnectMetadata Uri.sampleCrates.url) :=
  if text = sampleMetadata.asJson then .ok sampleMetadata
  else .error ⟨.malformed, "expected value at line 1 column 1"⟩

def sampleUri : NostrConnectUri Uri.sampleCrates :=
  client (.replicate 32 1) [sampleRelay] sampleMetadata "0s8j2djs"

theorem nostrConnectUri_recovered_sample :
    ∃ back, parse hexExternals sampleParseJson (sampleUri.toString hexExternals) = .ok back ∧
      (back == sampleUri) = true := by
  have relayText : formDecode sampleRelay.asStrWithoutTrailingSlash.toList =
      sampleRelay.asStrWithoutTrailingSlash.toList := formDecode_eq_self.mpr (by decide +kernel)
  have json : formDecode sampleMetadata.asJson.toList = sampleMetadata.asJson.toList :=
    formDecode_eq_self.mpr (by decide +kernel)
  refine (nostrConnectUri_recovered Uri.sampleCrates_standard Uri.sampleCrates_visible
    hexExternals_hexCodec sampleUri ?_).mpr ⟨⟨fun relayUrl member => ?_, ?_⟩, fun secret given => ?_⟩
  · unfold Separate
    decide +kernel
  · cases List.mem_singleton.mp member
    have text : sampleUri.relayText sampleRelay = sampleRelay.asStrWithoutTrailingSlash := rfl
    rw [text, relayText, String.ofList_toList]
    exact ⟨by decide +kernel, by decide +kernel, by decide +kernel⟩
  · change sampleParseJson (String.ofList (formDecode _)) = _
    rw [json, String.ofList_toList]
    exact if_pos rfl
  · cases given
    simp [Transparent, Kept, trimEnd, isC0ControlOrSpace, isTabOrNewline, hasEscape, escaped]

/-- A secret that adds a relay. -/
def spoofedUri : NostrConnectUri Uri.sampleCrates :=
  bunker (.replicate 32 1) [] (some "a&relay=wss://relay.example.com")

def spoofedBack : NostrConnectUri Uri.sampleCrates :=
  bunker (.replicate 32 1) [sampleRelay] (some "a")

theorem queryPairs_spoofed :
    queryPairs (queryText (writePairs [("secret".toList, "a&relay=wss://relay.example.com".toList)])) =
      [("secret".toList, ['a']), ("relay".toList, "wss://relay.example.com".toList)] := by
  decide +kernel

theorem spoofed_back : ∃ back,
    parse hexExternals sampleParseJson (spoofedUri.toString hexExternals) = .ok back ∧
      (back == spoofedBack) = true := by
  have written : spoofedUri.toString hexExternals =
      writeUri spoofedBack.scheme (spoofedBack.key.toHex hexExternals)
        (some (writePairs [("secret".toList, "a&relay=wss://relay.example.com".toList)])) := by
    rw [toString_eq, if_neg]
    · rfl
    · rw [writePairs_eq_nil]
      exact List.cons_ne_nil _ _
  have plainHost := plainHost_toHex hexExternals_hexCodec spoofedBack.key
  have parsed := Uri.sampleCrates_parse spoofedBack.scheme_mem plainHost
    (some (writePairs [("secret".toList, "a&relay=wss://relay.example.com".toList)]))
  obtain ⟨_, _, queryOf⟩ := Uri.sampleCrates_standard.parts _ spoofedBack.scheme_mem _ plainHost _ _
    parsed
  have relay : formDecode "wss://relay.example.com".toList = "wss://relay.example.com".toList :=
    formDecode_eq_self.mpr (by decide +kernel)
  have value : formDecode ['a'] = ['a'] := formDecode_eq_self.mpr (by decide)
  have reads : sampleRelay.ReadFrom "wss://relay.example.com" :=
    ⟨by decide +kernel, by decide +kernel, by decide +kernel⟩
  obtain ⟨back, read, same⟩ := (FullRelayUrl.parse_iff sampleRelay _).mpr reads
  rw [written, parse_written Uri.sampleCrates_standard hexExternals_hexCodec spoofedBack parsed,
    UriCrates.queryPairs_eq queryOf, queryPairs_spoofed, List.map_cons, List.map_singleton,
    decodedPair_of_plain secretName.2, decodedPair_of_plain names_plain.1, relay, value,
    String.ofList_toList]
  refine ⟨{ relays := [back], secret := some "a" }, ?_, rfl, ?_, trivial⟩
  · change [_, _].foldlM visitBunker {} = _
    rw [List.foldlM_cons, visits_bunker.secret]
    simp only [Bind.bind, Except.bind, List.foldlM_cons, visits_bunker.relay, read]
    rfl
  · change ([back] == [sampleRelay]) = true
    rw [List.cons_beq_cons, same]
    rfl

theorem nostrConnectUri_injected :
    (∃ back, parse hexExternals sampleParseJson (spoofedUri.toString hexExternals) = .ok back ∧
      (back == spoofedBack) = true ∧ (back == spoofedUri) = false) ∧
    ¬ ∀ uri : NostrConnectUri Uri.sampleCrates, ∃ back,
      parse hexExternals sampleParseJson (uri.toString hexExternals) = .ok back ∧
        (back == uri) = true := by
  obtain ⟨back, read, same⟩ := spoofed_back
  have other : (back == spoofedUri) = false := by
    cases back with
    | client => rfl
    | bunker key relays secret =>
        change (key == _ && relays == [] && secret == _) = false
        change (key == _ && relays == [sampleRelay] && secret == _) = true at same
        cases relays with
        | nil => simp at same
        | cons first rest => simp
  refine ⟨⟨back, read, same, other⟩, fun always => ?_⟩
  obtain ⟨found, again, equal⟩ := always spoofedUri
  cases read.symm.trans again
  rw [other] at equal
  cases equal

end NostrConnectUri

end RustNostr
