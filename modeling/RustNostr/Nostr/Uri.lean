import Mathlib
import RustNostr.Library.UrlQuery
import RustNostr.Nostr.Nip19RoundTrip
import RustNostr.Nostr.NostrConnect

/-!
# Connection URIs

What the URIs of NIP-46 and NIP-47 share: how they are written and what the `url`
crate makes of them. A URI is a scheme, the hexadecimal of a public key as the host,
and a query.
-/

set_option autoImplicit false

namespace RustNostr

open Library

/-- The other crates, with the parts of a URL that the `url` crate gives out. -/
structure UriCrates extends Crates where
  domain : String → Option String
  query : String → Option String

def nostrConnectUriScheme : String := "nostrconnect"

def nostrConnectBunkerUriScheme : String := "bunker"

def nostrWalletConnectUriScheme : String := "nostr+walletconnect"

def uriSchemes : List String :=
  [nostrConnectUriScheme, nostrConnectBunkerUriScheme, nostrWalletConnectUriScheme]

/-- `{scheme}://{host}`, with the query behind a question mark if there is one. -/
def writeUri (scheme host : String) (query : Option (List Char)) : String :=
  scheme ++ "://" ++ host ++ String.ofList (query.elim [] ('?' :: ·))

/-- A host that no parser alters. -/
def PlainHost (host : String) : Prop :=
  host ≠ "" ∧ host.toList.length ≤ 64 ∧ ∀ char ∈ host.toList, char.isAlphanum = true

/-- The `url` crate follows the URL standard. The schemes are not special, and only the
fragment of so short a URL may be in a place that the crate cannot count to. -/
structure UriCrates.Standard (crates : UriCrates) : Prop where
  accepts : ∀ scheme ∈ uriSchemes, ∀ host, PlainHost host → ∀ query : Option (List Char),
    '#' ∉ query.getD [] → ∃ url, crates.url.parse (writeUri scheme host query) = .ok url
  parts : ∀ scheme ∈ uriSchemes, ∀ host, PlainHost host → ∀ (query : Option (List Char)) (url : String),
    crates.url.parse (writeUri scheme host query) = .ok url →
      crates.url.scheme url = scheme ∧ crates.domain url = some host ∧
        crates.query url = query.map fun text => String.ofList (urlQuery text)

/-- The URLs of relays are serialised with visible ASCII characters. -/
def UriCrates.Visible (crates : UriCrates) : Prop :=
  ∀ relay : FullRelayUrl crates.url, ∀ char ∈ relay.url.toList, 32 < char.toNat ∧ char.toNat < 127

/-- `Url::query_pairs`, with each name as it stands in the query: the code compares it
with names that are borrowed from there, which one that was decoded is not. -/
def UriCrates.queryPairs (crates : UriCrates) (url : String) : List (String × String) :=
  (Library.queryPairs ((crates.query url).getD "").toList).map fun pair =>
    (String.ofList pair.1, String.ofList (formDecode pair.2))

def Error.invalidUri : Error := ⟨.invalid, "invalid URI"⟩

/-- A pair of the query with its value decoded. -/
def decodedPair (pair : List Char × List Char) : String × String :=
  (String.ofList (percentEncodeQuery pair.1), String.ofList (formDecode pair.2))

theorem UriCrates.queryPairs_eq {crates : UriCrates} {url : String} {text : List Char}
    (query : crates.query url = some (String.ofList (urlQuery text))) :
    crates.queryPairs url = (Library.queryPairs (queryText text)).map decodedPair := by
  rw [queryPairs, query, Option.getD_some, String.toList_ofList, urlQuery,
    queryPairs_percentEncodeQuery, List.map_map]
  simp only [Function.comp_def, formDecode_percentEncodeQuery]
  rfl

theorem decodedPair_of_plain {name : String}
    (plain : ∀ char ∈ name.toList, queryEncoded char = false) (text : List Char) :
    decodedPair (name.toList, text) = (name, String.ofList (formDecode text)) := by
  rw [decodedPair, percentEncodeQuery_of_plain plain, String.ofList_toList]

theorem isAlphanum_of_mem_lowercaseHex {bytes : Bytes} {char : Char}
    (member : char ∈ (Json.lowercaseHex bytes).toList) : char.isAlphanum = true := by
  have each : ∀ digit < 16, (Json.hexDigit digit).isAlphanum = true := by decide
  rw [Json.lowercaseHex, String.toList_ofList] at member
  obtain ⟨byte, _, written⟩ := List.mem_flatMap.mp member
  have bound := byte.toNat_lt
  rcases List.mem_cons.mp written with rfl | written
  · exact each _ (by omega)
  · cases List.mem_singleton.mp written
    exact each _ (by omega)

theorem plainHost_toHex {externals : Externals} (codec : HexCodec externals)
    (publicKey : PublicKey) : PlainHost (publicKey.toHex externals) where
  left := by
    intro empty
    have length := PublicKey.length_toHex codec publicKey
    rw [empty] at length
    cases length
  right := by
    refine ⟨(PublicKey.length_toHex codec publicKey).le, fun char member => ?_⟩
    rw [PublicKey.toHex, codec.encode] at member
    exact isAlphanum_of_mem_lowercaseHex member

/-- A pair of texts that were serialised. -/
def SafePair (pair : List Char × List Char) : Prop :=
  (∀ char ∈ pair.1, formSafe char = true) ∧ ∀ char ∈ pair.2, formSafe char = true

theorem SafePair.plain {pair : List Char × List Char} (safe : SafePair pair) : PlainPair pair where
  left member := absurd (safe.1 _ member) (by decide)
  right := ⟨fun member => absurd (safe.1 _ member) (by decide),
    fun member => absurd (safe.2 _ member) (by decide)⟩

theorem queryEncoded_writePairs {pairs : List (List Char × List Char)}
    (safe : ∀ pair ∈ pairs, SafePair pair) : ∀ char ∈ writePairs pairs, queryEncoded char = false := by
  intro char member
  rcases mem_writePairs member with rfl | rfl | ⟨pair, present, name | value⟩
  · rfl
  · rfl
  · exact queryEncoded_of_formSafe ((safe pair present).1 char name)
  · exact queryEncoded_of_formSafe ((safe pair present).2 char value)

/-- A URI whose query was serialised is parsed to its parts. -/
theorem UriCrates.Standard.parse_safe {crates : UriCrates} (standard : crates.Standard)
    {scheme host : String} (known : scheme ∈ uriSchemes) (plain : PlainHost host)
    {pairs : List (List Char × List Char)} (safe : ∀ pair ∈ pairs, SafePair pair) :
    ∃ url, crates.url.parse (writeUri scheme host (some (writePairs pairs))) = .ok url ∧
      crates.url.scheme url = scheme ∧ crates.domain url = some host ∧
      crates.queryPairs url =
        pairs.map fun pair => (String.ofList pair.1, String.ofList (formDecode pair.2)) := by
  have kept := queryEncoded_writePairs safe
  have noFragment : '#' ∉ (some (writePairs pairs)).getD [] :=
    fun member => absurd (kept _ member) (by decide)
  obtain ⟨url, parsed⟩ := standard.accepts scheme known host plain _ noFragment
  obtain ⟨schemeOf, domainOf, queryOf⟩ := standard.parts scheme known host plain _ url parsed
  refine ⟨url, parsed, schemeOf, domainOf, ?_⟩
  have query : ((crates.query url).getD "").toList = writePairs pairs := by
    rw [queryOf, Option.map_some, Option.getD_some, String.toList_ofList, urlQuery_of_plain kept]
  rw [queryPairs, query, queryPairs_writePairs fun pair member => (safe pair member).plain]

/-! ## Examples -/

namespace Uri

/-- The scheme, the host and the query of the URIs of this module. -/
def sampleParts (text : List Char) : Option (String × List Char × Option (List Char)) := do
  let (scheme, rest) ← findLabel (uriSchemes.map fun scheme => ((scheme ++ "://").toList, scheme)) text
  match splitOnce ['?'] rest with
  | some (host, query) => some (scheme, host, some query)
  | none => some (scheme, rest, none)

/-- Connection URIs and some relay URLs are parsed. -/
def sampleCrates : UriCrates where
  toCrates := {
    Nip19.sampleCrates with
    url := {
      parse text :=
        match Nip19.sampleUrls.lookup text, sampleParts text.toList with
        | some url, _ => .ok url
        | none, some (scheme, host, query) =>
            .ok (writeUri scheme (String.ofList host) (query.map urlQuery))
        | none, none => .error "relative URL without a base"
      scheme url := (sampleParts url.toList).elim "wss" fun parts => parts.1 } }
  domain url := (sampleParts url.toList).map fun parts => String.ofList parts.2.1
  query url := do
    let (_, _, query) ← sampleParts url.toList
    query.map String.ofList

theorem findLabel_scheme {scheme : String} (known : scheme ∈ uriSchemes) (rest : List Char) :
    findLabel (uriSchemes.map fun scheme => ((scheme ++ "://").toList, scheme))
      ((scheme ++ "://").toList ++ rest) = some (scheme, rest) := by
  have free : PrefixFree (uriSchemes.map fun scheme => ((scheme ++ "://").toList, scheme)) := by
    decide +kernel
  exact findLabel_append free (List.mem_map.mpr ⟨scheme, known, rfl⟩) rest

theorem toList_writeUri (scheme host : String) (query : Option (List Char)) :
    (writeUri scheme host query).toList =
      (scheme ++ "://").toList ++ (host.toList ++ query.elim [] ('?' :: ·)) := by
  simp [writeUri]

theorem sampleParts_writeUri {scheme host : String} (known : scheme ∈ uriSchemes)
    (plain : PlainHost host) (query : Option (List Char)) :
    sampleParts (writeUri scheme host query).toList = some (scheme, host.toList, query) := by
  have apart : '?' ∉ host.toList := fun member => absurd (plain.2.2 _ member) (by decide)
  rw [sampleParts, toList_writeUri, findLabel_scheme known]
  cases query with
  | none =>
      have uncut : splitOnce ['?'] host.toList = none := by
        rw [splitOnce_eq_none, List.singleton_infix_iff]
        exact apart
      simp [uncut]
  | some query =>
      have cut : splitOnce ['?'] (host.toList ++ '?' :: query) = some (host.toList, query) := by
        refine (splitOnce_append (List.cons_ne_nil '?' []) host.toList query).mpr ?_
        rw [List.dropLast_singleton, List.append_nil, List.singleton_infix_iff]
        exact apart
      simp [cut]

theorem scheme_of_sampleParts {text host : List Char} {scheme : String} {query : Option (List Char)}
    (parts : sampleParts text = some (scheme, host, query)) : scheme ∈ uriSchemes := by
  obtain ⟨⟨name, rest⟩, found, cut⟩ := Option.bind_eq_some_iff.mp parts
  obtain ⟨label, member, _⟩ := exists_of_findLabel found
  obtain ⟨known, present, same⟩ := List.mem_map.mp member
  have named : name = scheme := by
    simp only at cut
    split at cut <;> cases cut <;> rfl
  rw [← named, ← (Prod.mk.inj same).2]
  exact present

theorem exists_sampleParts {scheme : String} (known : scheme ∈ uriSchemes) (host : String)
    (query : Option (List Char)) :
    ∃ parts, sampleParts (writeUri scheme host query).toList = some parts ∧ parts.1 = scheme := by
  rw [sampleParts, toList_writeUri, findLabel_scheme known]
  simp only [Option.bind_eq_bind, Option.bind_some]
  split <;> exact ⟨_, rfl, rfl⟩

theorem sampleCrates_parse {scheme host : String} (known : scheme ∈ uriSchemes)
    (plain : PlainHost host) (query : Option (List Char)) :
    sampleCrates.url.parse (writeUri scheme host query) =
      .ok (writeUri scheme host (query.map urlQuery)) := by
  have parts := sampleParts_writeUri known plain query
  have unlisted : Nip19.sampleUrls.lookup (writeUri scheme host query) = none := by
    have others : ∀ entry ∈ Nip19.sampleUrls, sampleParts entry.1.toList = none := by decide +kernel
    rw [List.lookup_eq_none_iff]
    intro entry member
    rw [bne_iff_ne]
    intro same
    rw [same, others entry member] at parts
    cases parts
  simp only [sampleCrates, unlisted, parts, String.ofList_toList]

theorem sampleCrates_standard : sampleCrates.Standard where
  accepts scheme known host plain query _ := ⟨_, sampleCrates_parse known plain query⟩
  parts scheme known host plain query url parsed := by
    cases (sampleCrates_parse known plain query).symm.trans parsed
    have parts := sampleParts_writeUri known plain (query.map urlQuery)
    refine ⟨?_, ?_, ?_⟩
    · simp [sampleCrates, parts]
    · simp [sampleCrates, parts]
    · simp [sampleCrates, parts, Function.comp_def]

/-- Only the listed URLs have the scheme of a relay. -/
theorem sampleCrates_visible : sampleCrates.Visible := by
  intro relay char member
  obtain ⟨text, parsed⟩ := relay.parsed
  have scheme := relay.schemeOfUrl
  simp only [sampleCrates] at parsed scheme
  cases found : Nip19.sampleUrls.lookup text with
  | some url =>
      have each : ∀ entry ∈ Nip19.sampleUrls, ∀ char ∈ entry.2.toList,
          32 < char.toNat ∧ char.toNat < 127 := by simp [Nip19.sampleUrls]
      obtain ⟨before, after, shape, _⟩ := List.lookup_eq_some_iff.mp found
      simp only [found, Except.ok.injEq] at parsed
      exact each (text, url) (by simp [shape]) char (parsed ▸ member)
  | none =>
      cases parts : sampleParts text.toList with
      | none =>
          simp only [found, parts] at parsed
          cases parsed
      | some parts' =>
          obtain ⟨name, host, query⟩ := parts'
          simp only [found, parts, Except.ok.injEq] at parsed
          have known := scheme_of_sampleParts parts
          obtain ⟨whole, again, named⟩ := exists_sampleParts known (String.ofList host)
            (query.map urlQuery)
          have refused : ∀ name ∈ uriSchemes, name ≠ "ws" ∧ name ≠ "wss" := by decide
          rw [← parsed, again, Option.elim_some, named, RelayUrlScheme.parse,
            if_neg (refused name known).1, if_neg (refused name known).2] at scheme
          cases scheme

end Uri

end RustNostr
