import Mathlib
import RustNostr.Library.Dedup
import RustNostr.Library.Fallible
import RustNostr.Library.UrlPath
import RustNostr.Nostr.Uri

/-!
# Candidate URLs of blobs

Blossom URIs, and the URLs that a blob may be found at
(`nostr-blossom/src/bud10.rs`).
-/

set_option autoImplicit false

namespace RustNostr.Blossom

open Library

inductive ErrorKind where
  | protocol
  | malformed
  deriving DecidableEq

structure Error where
  kind : ErrorKind
  message : String
  deriving DecidableEq

/-- The `url` crate, as far as it is used here. -/
structure UrlApi where
  parse : String → Except String UrlRecord
  setPath : UrlRecord → String → UrlRecord

/-- The other crates: URLs, SHA-256 hashes and public keys as texts. -/
structure Calls where
  url : UrlApi
  sha256FromStr : List Char → Option (FixedBytes 32)
  publicKeyParse : String → Except String PublicKey

structure BlossomUri where
  sha256 : FixedBytes 32
  extension : String
  servers : List String
  authors : List PublicKey
  size : Option UInt64
  deriving DecidableEq

/-! ## Reading URIs -/

/-- What the pairs of the query say. -/
structure Hints where
  servers : List String := []
  authors : List PublicKey := []
  size : Option UInt64 := none

namespace BlossomUri

section Read

variable (calls : Calls)

def readHint (hints : Hints) (pair : String × String) : Except Error Hints :=
  match pair.1 with
  | "xs" => .ok { hints with servers := hints.servers ++ [pair.2] }
  | "as" => do
      let author ← (calls.publicKeyParse pair.2).mapError fun error => ⟨.protocol, error⟩
      .ok { hints with authors := hints.authors ++ [author] }
  | "sz" =>
      match parseUnsigned (2 ^ 64) pair.2.toList with
      | none => .error ⟨.malformed, "Invalid blossom URI size"⟩
      | some 0 => .error ⟨.malformed, "Blossom URI size must be positive"⟩
      | some size => .ok { hints with size := some (.ofNat size) }
  | _ => .ok hints

/-- `Url::query_pairs` -/
def decodedPairs (url : UrlRecord) : List (String × String) :=
  (queryPairs (url.query.getD "").toList).map fun pair =>
    (String.ofList (formDecode pair.1), String.ofList (formDecode pair.2))

def fromStr (value : String) : Except Error BlossomUri :=
  match stripPrefix "blossom:".toList value.toList with
  | none => .error ⟨.malformed, "Missing blossom URI scheme"⟩
  | some body =>
      let (path, query) := (splitOnce ['?'] body).getD (body, [])
      match splitOnce ['.'] path with
      | none => .error ⟨.malformed, "Missing blossom URI extension"⟩
      | some (hash, extension) =>
          if extension = [] then .error ⟨.malformed, "Empty blossom URI extension"⟩
          else
            match calls.sha256FromStr hash with
            | none => .error ⟨.malformed, "Invalid blossom URI SHA256"⟩
            | some sha256 => do
                let queryUrl ← (calls.url.parse ("https://blossom.invalid/?" ++ String.ofList query)).mapError
                  fun error => ⟨.malformed, error⟩
                let hints ← (decodedPairs queryUrl).foldlM (readHint calls) {}
                .ok {
                  sha256 := sha256
                  extension := String.ofList extension
                  servers := hints.servers
                  authors := hints.authors
                  size := hints.size }

end Read

/-! ## Candidates -/

def path (uri : BlossomUri) : String := Json.lowercaseHex uri.sha256.val ++ "." ++ uri.extension

def webSchemes : List String := ["https", "http"]

def hasScheme (server : String) : Bool := decide ("://".toList <:+: server.toList)

section Candidates

variable (api : UrlApi) (path : String)

def hintUrls (server : String) : List UrlRecord :=
  if hasScheme server then
    match api.parse server with
    | .ok url => [api.setPath url path]
    | .error _ => []
  else webSchemes.filterMap fun scheme => (api.parse (scheme ++ "://" ++ (server ++ "/" ++ path))).toOption

/-- A server of a list: its query and its fragment are taken off. -/
def withPath (server : UrlRecord) : UrlRecord := { api.setPath server path with query := none, fragment := none }

end Candidates

def candidateUrls (api : UrlApi) (uri : BlossomUri) (authorServers fallbackServers : List UrlRecord) :
    List UrlRecord :=
  dedup (uri.servers.flatMap (hintUrls api uri.path) ++
    (authorServers ++ fallbackServers).map (withPath api uri.path))

end BlossomUri

/-! ## What is asked of the candidates -/

/-- The `url` crate follows the URL standard, with a parser for credentials, hosts and ports. -/
structure UrlApi.FollowsStandard (api : UrlApi) (authority : String → List Char → Option String) : Prop where
  marks : ∀ (text : String) (url : UrlRecord), api.parse text = .ok url →
    (url.query = none ∧ url.fragment = none ↔ '?' ∉ text.toList ∧ '#' ∉ text.toList)
  origin : ∀ scheme ∈ BlossomUri.webSchemes, ∀ rest : String,
    (api.parse (scheme ++ "://" ++ rest)).toOption.map UrlRecord.origin =
      (authority scheme (authorityText (trimEnd rest.toList))).map fun host => (scheme, some host)
  webPath : ∀ scheme ∈ BlossomUri.webSchemes, ∀ (rest : String) (url : UrlRecord),
    api.parse (scheme ++ "://" ++ rest) = .ok url → '?' ∉ rest.toList → '#' ∉ rest.toList →
      url.path = .segments (webPath scheme rest.toList)
  noHost : ∀ scheme ∈ BlossomUri.webSchemes, authority scheme [] = none
  setPath : ∀ (url : UrlRecord) (text : String), url.path.isBase = true → Led text.toList →
    api.setPath url text = { url with path := .segments (readPath url.scheme text.toList) }
  noBase : ∀ (url : UrlRecord) (text : String), url.path.isBase = false →
    (api.setPath url text).path.isBase = false

/-- The path of a candidate, and nothing behind it. -/
def Clean (uri : BlossomUri) (url : UrlRecord) : Prop :=
  url.path.text = '/' :: uri.path.toList ∧ url.query = none ∧ url.fragment = none

/-- Neither a query nor a fragment begins in the text. -/
def Unmarked (text : String) : Prop := '?' ∉ text.toList ∧ '#' ∉ text.toList

instance (text : String) : Decidable (Unmarked text) := inferInstanceAs (Decidable (_ ∧ _))

section Lists

variable (api : UrlApi) (authority : String → List Char → Option String) (uri : BlossomUri)
    (authorServers fallbackServers : List UrlRecord)

structure WellListed (urls : List UrlRecord) : Prop where
  clean : ∀ url ∈ urls, Clean uri url
  nodup : urls.Nodup
  order : ∃ hints authors fallbacks, urls = hints ++ (authors ++ fallbacks) ∧
    hints.Sublist (uri.servers.flatMap (BlossomUri.hintUrls api uri.path)) ∧
    authors.Sublist (authorServers.map (BlossomUri.withPath api uri.path)) ∧
    fallbacks.Sublist (fallbackServers.map (BlossomUri.withPath api uri.path))

/-- What a hint without a scheme names as its host, with the path of the blob behind it. -/
def hostText (server : String) : List Char := authorityText (trimEnd (server ++ "/" ++ uri.path).toList)

/-- The scheme and the authority of a hint. -/
def hintOrigins (server : String) : List (String × Option String) :=
  if BlossomUri.hasScheme server then (api.parse server).toOption.toList.map UrlRecord.origin
  else BlossomUri.webSchemes.filterMap fun scheme =>
    (authority scheme (authorityText server.toList)).map fun host => (scheme, some host)

def origins : List (String × Option String) :=
  uri.servers.flatMap (hintOrigins api authority) ++ (authorServers ++ fallbackServers).map UrlRecord.origin

/-- The servers are origins and nothing more, and the name of the blob is plain. Hints that are
refused do not matter. -/
structure PlainParts (lists : List UrlRecord) : Prop where
  full : ∀ server ∈ uri.servers, BlossomUri.hasScheme server = true → ∀ url, api.parse server = .ok url →
    Unmarked server ∧ url.path.isBase = true ∧ PlainPath url.scheme uri.path.toList
  bare : ∀ server ∈ uri.servers, BlossomUri.hasScheme server = false → ∀ scheme ∈ BlossomUri.webSchemes,
    (authority scheme (hostText uri server)).isSome = true →
      Unmarked server ∧ HostOnly scheme server.toList ∧ PlainPath scheme uri.path.toList
  lists : ∀ url ∈ lists, url.path.isBase = true ∧ PlainPath url.scheme uri.path.toList

/-- Also, no origin comes again after another one. -/
structure PlainServers : Prop extends PlainParts api authority uri (authorServers ++ fallbackServers) where
  apart : NeverReturns (origins api authority uri authorServers fallbackServers)

end Lists

/-! ## The parts of a candidate -/

theorem led_path (uri : BlossomUri) : Led uri.path.toList := by
  refine ⟨(Json.lowercaseHex uri.sha256.val).toList, '.' :: uri.extension.toList, ?_, ?_, fun _ member =>
    isAlphanum_of_mem_lowercaseHex member⟩
  · simp [BlossomUri.path]
  · simp [Json.lowercaseHex, uri.sha256.property]

theorem special_of_web {scheme : String} (known : scheme ∈ BlossomUri.webSchemes) : scheme ∈ specialSchemes := by
  have each : ∀ scheme ∈ BlossomUri.webSchemes, scheme ∈ specialSchemes := by decide
  exact each scheme known

variable {api : UrlApi} {authority : String → List Char → Option String} {uri : BlossomUri}

theorem text_setPath_iff (follows : api.FollowsStandard authority) (url : UrlRecord) :
    (api.setPath url uri.path).path.text = '/' :: uri.path.toList ↔
      url.path.isBase = true ∧ PlainPath url.scheme uri.path.toList := by
  cases base : url.path.isBase with
  | true =>
      rw [follows.setPath url uri.path base (led_path uri)]
      exact (readPath_text_iff (led_path uri)).trans (and_iff_right rfl).symm
  | false =>
      refine iff_of_false (fun text => ?_) fun found => by cases found.1
      have other := follows.noBase url uri.path base
      cases shape : (api.setPath url uri.path).path with
      | segments list =>
          rw [shape] at other
          cases other
      | cannotBeABase whole noSlash =>
          rw [shape] at text
          exact noSlash (congrArg List.head? text)

theorem clean_full_iff (follows : api.FollowsStandard authority) {server : String} {url : UrlRecord}
    (parsed : api.parse server = .ok url) :
    Clean uri (api.setPath url uri.path) ↔
      Unmarked server ∧ url.path.isBase = true ∧ PlainPath url.scheme uri.path.toList := by
  rw [Clean, text_setPath_iff follows, Unmarked, ← follows.marks server url parsed, and_comm]
  refine and_congr_left fun found => ?_
  rw [follows.setPath url uri.path found.1 (led_path uri)]

theorem clean_withPath_iff (follows : api.FollowsStandard authority) (url : UrlRecord) :
    Clean uri (BlossomUri.withPath api uri.path url) ↔
      url.path.isBase = true ∧ PlainPath url.scheme uri.path.toList := by
  rw [← text_setPath_iff follows]
  exact and_iff_left ⟨rfl, rfl⟩

theorem toList_bareRest (uri : BlossomUri) (server : String) :
    (server ++ "/" ++ uri.path).toList = server.toList ++ '/' :: uri.path.toList := by
  simp

theorem notMem_bareText {scheme : String} (known : scheme ∈ BlossomUri.webSchemes) {mark : Char}
    (isMark : mark = '?' ∨ mark = '#') (server : String) :
    mark ∉ (scheme ++ "://" ++ (server ++ "/" ++ uri.path)).toList ↔
      mark ∉ server.toList ∧ mark ∉ uri.path.toList := by
  have each : ∀ scheme ∈ BlossomUri.webSchemes, Unmarked (scheme ++ "://") := by decide
  have front : mark ∉ (scheme ++ "://").toList := by
    rcases isMark with same | same
    · exact same ▸ (each scheme known).1
    · exact same ▸ (each scheme known).2
  have slash : mark ≠ '/' := by
    rcases isMark with same | same
    · exact same ▸ by decide
    · exact same ▸ by decide
  rw [String.toList_append, toList_bareRest, List.mem_append, List.mem_append, List.mem_cons]
  simp only [front, slash, false_or, not_or]

theorem PlainPath.unmarked {scheme : String} {name : List Char} (plain : PlainPath scheme name) :
    '?' ∉ name ∧ '#' ∉ name :=
  ⟨fun mark => absurd (plain.written _ mark) (by decide), fun mark => absurd (plain.written _ mark) (by decide)⟩

theorem clean_bare_iff (follows : api.FollowsStandard authority) {scheme server : String}
    (known : scheme ∈ BlossomUri.webSchemes) {url : UrlRecord}
    (parsed : api.parse (scheme ++ "://" ++ (server ++ "/" ++ uri.path)) = .ok url) :
    Clean uri url ↔ Unmarked server ∧ HostOnly scheme server.toList ∧ PlainPath scheme uri.path.toList := by
  have marks := follows.marks _ url parsed
  rw [notMem_bareText known (.inl rfl), notMem_bareText known (.inr rfl)] at marks
  have read (noQuery : '?' ∉ server.toList ∧ '?' ∉ uri.path.toList)
      (noFragment : '#' ∉ server.toList ∧ '#' ∉ uri.path.toList) : url.path.text = '/' :: uri.path.toList ↔
        HostOnly scheme server.toList ∧ PlainPath scheme uri.path.toList := by
    rw [follows.webPath scheme known _ url parsed, toList_bareRest]
    · exact webPath_text_iff (special_of_web known) (led_path uri)
    · rw [toList_bareRest]
      simpa using noQuery
    · rw [toList_bareRest]
      simpa using noFragment
  rw [Clean, marks]
  constructor
  · intro clean
    obtain ⟨text, noQuery, noFragment⟩ := clean
    exact ⟨⟨noQuery.1, noFragment.1⟩, (read noQuery noFragment).mp text⟩
  · intro found
    obtain ⟨unmarked, only, plain⟩ := found
    have name := PlainPath.unmarked plain
    have noQuery := And.intro unmarked.1 name.1
    have noFragment := And.intro unmarked.2 name.2
    exact ⟨(read noQuery noFragment).mpr ⟨only, plain⟩, noQuery, noFragment⟩

/-! ## All candidates -/

theorem parse_bare (follows : api.FollowsStandard authority) {scheme server : String}
    (known : scheme ∈ BlossomUri.webSchemes) :
    (api.parse (scheme ++ "://" ++ (server ++ "/" ++ uri.path))).toOption.map UrlRecord.origin =
      (authority scheme (hostText uri server)).map fun host => (scheme, some host) :=
  follows.origin scheme known _

theorem candidates_clean_iff (follows : api.FollowsStandard authority) (lists : List UrlRecord) :
    (∀ url ∈ uri.servers.flatMap (BlossomUri.hintUrls api uri.path) ++
      lists.map (BlossomUri.withPath api uri.path), Clean uri url) ↔ PlainParts api authority uri lists := by
  constructor
  · intro clean
    refine ⟨fun server member full url parsed => ?_, fun server member bare scheme known accepted => ?_,
      fun url member => ?_⟩
    · have listed : api.setPath url uri.path ∈ BlossomUri.hintUrls api uri.path server := by
        simp [BlossomUri.hintUrls, full, parsed]
      exact (clean_full_iff follows parsed).mp
        (clean _ (List.mem_append_left _ (List.mem_flatMap.mpr ⟨server, member, listed⟩)))
    · have read := @parse_bare api authority uri follows scheme server known
      obtain ⟨host, found⟩ := Option.isSome_iff_exists.mp accepted
      rw [found] at read
      obtain ⟨url, parsed, _⟩ := Option.map_eq_some_iff.mp read
      have listed : url ∈ BlossomUri.hintUrls api uri.path server := by
        simp only [BlossomUri.hintUrls, bare]
        exact List.mem_filterMap.mpr ⟨scheme, known, parsed⟩
      exact (clean_bare_iff follows known (toOption_eq_some.mp parsed)).mp
        (clean _ (List.mem_append_left _ (List.mem_flatMap.mpr ⟨server, member, listed⟩)))
    · exact (clean_withPath_iff follows url).mp (clean _ (List.mem_append_right _ (List.mem_map_of_mem member)))
  · intro parts url member
    rcases List.mem_append.mp member with hint | listed
    · obtain ⟨server, present, here⟩ := List.mem_flatMap.mp hint
      unfold BlossomUri.hintUrls at here
      split at here
      next full =>
        split at here
        next url' parsed =>
          cases List.mem_singleton.mp here
          exact (clean_full_iff follows parsed).mpr (parts.full server present full url' parsed)
        next => cases here
      next bare =>
        obtain ⟨scheme, known, parsed⟩ := List.mem_filterMap.mp here
        have read := @parse_bare api authority uri follows scheme server known
        rw [parsed] at read
        obtain ⟨host, accepted, _⟩ := Option.map_eq_some_iff.mp read.symm
        exact (clean_bare_iff follows known (toOption_eq_some.mp parsed)).mpr
          (parts.bare server present (eq_false_of_ne_true bare) scheme known (accepted ▸ rfl))
    · obtain ⟨server, present, same⟩ := List.mem_map.mp listed
      exact same ▸ (clean_withPath_iff follows server).mpr (parts.lists server present)

def candidate (uri : BlossomUri) (origin : String × Option String) : UrlRecord where
  scheme := origin.1
  authority := origin.2
  path := .segments (uri.path.toList.splitOn '/')
  query := none
  fragment := none

theorem candidate_injective (uri : BlossomUri) : Function.Injective (candidate uri) := by
  intro first second same
  exact Prod.ext (congrArg UrlRecord.scheme same) (congrArg UrlRecord.authority same)

section Plain

variable {lists : List UrlRecord} (follows : api.FollowsStandard authority)
    (parts : PlainParts api authority uri lists)

include follows parts

theorem setPath_eq_candidate {server : String} (member : server ∈ uri.servers)
    (full : BlossomUri.hasScheme server = true) {url : UrlRecord} (parsed : api.parse server = .ok url) :
    api.setPath url uri.path = candidate uri url.origin := by
  obtain ⟨unmarked, base, plain⟩ := parts.full server member full url parsed
  obtain ⟨noQuery, noFragment⟩ := (follows.marks server url parsed).mpr unmarked
  rw [follows.setPath url uri.path base (led_path uri), readPath_plain (led_path uri) plain, noQuery, noFragment]
  rfl

theorem withPath_eq_candidate {url : UrlRecord} (member : url ∈ lists) :
    BlossomUri.withPath api uri.path url = candidate uri url.origin := by
  obtain ⟨base, plain⟩ := parts.lists url member
  rw [BlossomUri.withPath, follows.setPath url uri.path base (led_path uri), readPath_plain (led_path uri) plain]
  rfl

theorem parse_bare_eq_candidate {server : String} (member : server ∈ uri.servers)
    (bare : BlossomUri.hasScheme server = false) {scheme : String} (known : scheme ∈ BlossomUri.webSchemes) :
    (api.parse (scheme ++ "://" ++ (server ++ "/" ++ uri.path))).toOption =
      (authority scheme (authorityText server.toList)).map fun host => candidate uri (scheme, some host) := by
  have read := @parse_bare api authority uri follows scheme server known
  have split : hostText uri server = authorityText (server.toList ++ '/' :: trimEnd uri.path.toList) := by
    rw [hostText, toList_bareRest, trimEnd_append_cons (by decide)]
  cases accepted : authority scheme (hostText uri server) with
  | none =>
      have refused : authority scheme (authorityText server.toList) = none := by
        by_cases empty : behindSlashes server.toList = []
        · rw [authorityText, empty]
          exact follows.noHost scheme known
        · rwa [split, authorityText_append empty] at accepted
      rw [accepted, Option.map_none, Option.map_eq_none_iff] at read
      rw [read, refused]
      rfl
  | some host =>
      obtain ⟨unmarked, only, plain⟩ := parts.bare server member bare scheme known (accepted ▸ rfl)
      have same : authority scheme (authorityText server.toList) = some host := by
        rwa [split, authorityText_append only.some_] at accepted
      rw [accepted] at read
      obtain ⟨url, found, origin⟩ := Option.map_eq_some_iff.mp read
      have parsed := toOption_eq_some.mp found
      have clean := (clean_bare_iff follows known parsed).mpr ⟨unmarked, only, plain⟩
      have name := PlainPath.unmarked plain
      have path : url.path = .segments (uri.path.toList.splitOn '/') := by
        rw [follows.webPath scheme known _ url parsed, toList_bareRest, webPath_plain (led_path uri) only plain]
        · rw [toList_bareRest]
          simpa using And.intro unmarked.1 name.1
        · rw [toList_bareRest]
          simpa using And.intro unmarked.2 name.2
      have shape : candidate uri url.origin = url := by
        rw [candidate, ← path]
        exact congrArg₂ (UrlRecord.mk url.scheme url.authority url.path) clean.2.1.symm clean.2.2.symm
      rw [found, same, Option.map_some, ← shape, origin]

theorem hintUrls_eq {server : String} (member : server ∈ uri.servers) :
    BlossomUri.hintUrls api uri.path server = (hintOrigins api authority server).map (candidate uri) := by
  cases hasScheme : BlossomUri.hasScheme server with
  | true =>
      rw [BlossomUri.hintUrls, hintOrigins, if_pos hasScheme, if_pos hasScheme]
      cases parsed : api.parse server with
      | error error => rfl
      | ok url =>
          have eq := setPath_eq_candidate follows parts member hasScheme parsed
          simp [eq, Except.toOption]
  | false =>
      have eq := fun scheme known => @parse_bare_eq_candidate api authority uri lists follows parts server member
        hasScheme scheme known
      rw [BlossomUri.hintUrls, hintOrigins, if_neg (by simp [hasScheme]), if_neg (by simp [hasScheme]),
        List.map_filterMap, List.filterMap_congr eq]
      simp only [Option.map_map]
      rfl

end Plain

variable {authorServers fallbackServers : List UrlRecord}

theorem candidateUrls_eq (follows : api.FollowsStandard authority)
    (parts : PlainParts api authority uri (authorServers ++ fallbackServers)) :
    BlossomUri.candidateUrls api uri authorServers fallbackServers =
      (dedup (origins api authority uri authorServers fallbackServers)).map (candidate uri) := by
  have hints : uri.servers.flatMap (BlossomUri.hintUrls api uri.path) =
      (uri.servers.flatMap (hintOrigins api authority)).map (candidate uri) := by
    rw [List.map_flatMap]
    exact List.flatMap_congr fun server member => hintUrls_eq follows parts member
  have listed : (authorServers ++ fallbackServers).map (BlossomUri.withPath api uri.path) =
      ((authorServers ++ fallbackServers).map UrlRecord.origin).map (candidate uri) := by
    rw [List.map_map]
    exact List.map_congr_left fun url member => withPath_eq_candidate follows parts member
  rw [BlossomUri.candidateUrls, hints, listed, ← List.map_append, dedup_map (candidate_injective uri)]
  rfl

theorem candidateUrls_order (api : UrlApi) (uri : BlossomUri) (authorServers fallbackServers : List UrlRecord) :
    ∃ hints authors fallbacks, BlossomUri.candidateUrls api uri authorServers fallbackServers =
        hints ++ (authors ++ fallbacks) ∧
      hints.Sublist (uri.servers.flatMap (BlossomUri.hintUrls api uri.path)) ∧
      authors.Sublist (authorServers.map (BlossomUri.withPath api uri.path)) ∧
      fallbacks.Sublist (fallbackServers.map (BlossomUri.withPath api uri.path)) := by
  have kept := dedup_sublist (uri.servers.flatMap (BlossomUri.hintUrls api uri.path) ++
    (authorServers ++ fallbackServers).map (BlossomUri.withPath api uri.path))
  rw [List.map_append] at kept
  obtain ⟨hints, lists, shape, first, rest⟩ := List.sublist_append_iff.mp kept
  obtain ⟨authors, fallbacks, listed, second, third⟩ := List.sublist_append_iff.mp rest
  refine ⟨hints, authors, fallbacks, ?_, first, second, third⟩
  rw [BlossomUri.candidateUrls, List.map_append, shape, listed]

theorem candidateUrls_wellListed_iff (follows : api.FollowsStandard authority) (uri : BlossomUri)
    (authorServers fallbackServers : List UrlRecord) :
    WellListed api uri authorServers fallbackServers
      (BlossomUri.candidateUrls api uri authorServers fallbackServers) ↔
      PlainServers api authority uri authorServers fallbackServers := by
  have nodup (parts : PlainParts api authority uri (authorServers ++ fallbackServers)) :
      (BlossomUri.candidateUrls api uri authorServers fallbackServers).Nodup ↔
        NeverReturns (origins api authority uri authorServers fallbackServers) := by
    rw [candidateUrls_eq follows parts, List.nodup_map_iff (candidate_injective uri), nodup_dedup_iff]
  have clean : (∀ url ∈ BlossomUri.candidateUrls api uri authorServers fallbackServers, Clean uri url) ↔
      PlainParts api authority uri (authorServers ++ fallbackServers) := by
    rw [← candidates_clean_iff follows]
    simp only [BlossomUri.candidateUrls, mem_dedup]
  constructor
  · intro listed
    have parts := clean.mp listed.clean
    exact ⟨parts, (nodup parts).mp listed.nodup⟩
  · intro servers
    exact ⟨clean.mpr servers.toPlainParts, (nodup servers.toPlainParts).mpr servers.apart,
      candidateUrls_order api uri authorServers fallbackServers⟩

/-! ## Examples -/

def sampleHosts : List String := ["blossom.invalid", "cdn.example.com", "other.example"]

def sampleAuthority (_scheme : String) (text : List Char) : Option String :=
  if sampleHosts.contains (String.ofList text) then some (String.ofList text) else none

def sampleSchemes : List (List Char × String) :=
  BlossomUri.webSchemes.map fun scheme => ((scheme ++ "://").toList, scheme)

/-- URLs of the web with one of three hosts. -/
def sampleApi : UrlApi where
  parse text :=
    (findLabel sampleSchemes text.toList).elim (.error "relative URL without a base") fun found =>
      let body := found.2.takeWhile (· ≠ '#')
      (sampleAuthority found.1 (authorityText (trimEnd found.2))).elim (.error "empty host") fun host => .ok {
        scheme := found.1
        authority := some host
        path := .segments (webPath found.1 (body.takeWhile (· ≠ '?')))
        query := if '?' ∈ body then some (String.ofList (urlQuery (body.dropWhile (· ≠ '?')).tail)) else none
        fragment := if '#' ∈ found.2 then some (String.ofList (found.2.dropWhile (· ≠ '#')).tail) else none }
  setPath url text :=
    if url.path.isBase then { url with path := .segments (readPath url.scheme text.toList) } else url

theorem findLabel_web {scheme : String} (known : scheme ∈ BlossomUri.webSchemes) (rest : String) :
    findLabel sampleSchemes (scheme ++ "://" ++ rest).toList = some (scheme, rest.toList) := by
  have free : PrefixFree sampleSchemes := by decide +kernel
  rw [String.toList_append]
  exact findLabel_append free (List.mem_map.mpr ⟨scheme, known, rfl⟩) rest.toList

theorem takeWhile_ne_of_notMem {mark : Char} {text : List Char} (absent : mark ∉ text) :
    text.takeWhile (· ≠ mark) = text :=
  List.takeWhile_eq_self_iff.mpr fun _ member => decide_eq_true fun same => absent (same ▸ member)

theorem sampleApi_follows : sampleApi.FollowsStandard sampleAuthority where
  marks text url parsed := by
    simp only [sampleApi] at parsed
    cases found : findLabel sampleSchemes text.toList with
    | none =>
        rw [found] at parsed
        cases parsed
    | some parts =>
        obtain ⟨scheme, rest⟩ := parts
        obtain ⟨label, member, shape⟩ := exists_of_findLabel found
        have front : '?' ∉ label ∧ '#' ∉ label := by
          have each : ∀ entry ∈ sampleSchemes, '?' ∉ entry.1 ∧ '#' ∉ entry.1 := by decide +kernel
          exact each _ member
        rw [found, Option.elim_some] at parsed
        cases accepted : sampleAuthority scheme (authorityText (trimEnd rest)) with
        | none =>
            rw [accepted] at parsed
            cases parsed
        | some host =>
            rw [accepted] at parsed
            cases parsed
            rw [shape, List.mem_append, List.mem_append]
            by_cases mark : '#' ∈ rest
            · simp [mark]
            · rw [takeWhile_ne_of_notMem mark]
              simp [mark, front]
  origin scheme known rest := by
    simp only [sampleApi, findLabel_web known, Option.elim_some]
    cases sampleAuthority scheme (authorityText (trimEnd rest.toList)) with
    | none => rfl
    | some host => rfl
  webPath scheme known rest url parsed noQuery noFragment := by
    simp only [sampleApi, findLabel_web known, Option.elim_some, takeWhile_ne_of_notMem noFragment,
      takeWhile_ne_of_notMem noQuery] at parsed
    cases accepted : sampleAuthority scheme (authorityText (trimEnd rest.toList)) with
    | none =>
        rw [accepted] at parsed
        cases parsed
    | some host =>
        rw [accepted] at parsed
        cases parsed
        rfl
  noHost scheme known := by
    have each : ∀ scheme ∈ BlossomUri.webSchemes, sampleAuthority scheme [] = none := by decide +kernel
    exact each scheme known
  setPath url text base _ := if_pos base
  noBase url text base := by
    have unchanged : sampleApi.setPath url text = url := if_neg (by simp [base])
    rw [unchanged]
    exact base

def sampleCalls : Calls where
  url := sampleApi
  sha256FromStr text := hexExternals.hexDecode (String.ofList text)
  publicKeyParse text := (hexExternals.hexDecode text).elim (.error "malformed") .ok

def sampleText (query : String) : String := "blossom:" ++ Json.lowercaseHex (List.replicate 32 0) ++ ".pdf?" ++ query

def sampleUri (servers : List String) : BlossomUri where
  sha256 := .replicate 32 0
  extension := "pdf"
  servers := servers
  authors := []
  size := none

def otherServer : UrlRecord where
  scheme := "https"
  authority := some "other.example"
  path := .segments [[]]
  query := none
  fragment := none

theorem path_sampleUri (servers : List String) :
    (sampleUri servers).path.toList = List.replicate 64 '0' ++ ".pdf".toList := by
  have zeros : (Json.lowercaseHex (List.replicate 32 0)).toList = List.replicate 64 '0' := by decide +kernel
  rw [← zeros, ← String.toList_append]
  rfl

theorem plainPath_sampleUri (scheme : String) (servers : List String) :
    PlainPath scheme (sampleUri servers).path.toList := by
  have chars : ∀ char ∈ (sampleUri servers).path.toList, char ∈ "0.pdf".toList := by
    intro char member
    rw [path_sampleUri] at member
    rcases List.mem_append.mp member with zero | extension
    · rw [List.eq_of_mem_replicate zero]
      decide
    · exact List.mem_cons_of_mem '0' extension
  have each : ∀ char ∈ "0.pdf".toList, pathEncoded char = false ∧ char ≠ '\\' ∧ char ≠ '/' := by
    simp [pathEncoded, queryEncoded]
  refine ⟨fun char member => (each char (chars char member)).1, fun _ backslash => ?_, fun segment member => ?_⟩
  · exact (each _ (chars _ backslash)).2.1 rfl
  · have whole : '/' ∉ (sampleUri servers).path.toList := fun slash => (each _ (chars _ slash)).2.2 rfl
    rw [List.splitOn_eq_singleton whole, path_sampleUri, List.mem_singleton] at member
    rw [member]
    exact ⟨by decide, by decide⟩

theorem candidateUrls_plain_server :
    BlossomUri.fromStr sampleCalls (sampleText "xs=cdn.example.com") = .ok (sampleUri ["cdn.example.com"]) ∧
    WellListed sampleApi (sampleUri ["cdn.example.com"]) [otherServer] []
      (BlossomUri.candidateUrls sampleApi (sampleUri ["cdn.example.com"]) [otherServer] []) := by
  refine ⟨by decide +kernel, (candidateUrls_wellListed_iff sampleApi_follows _ _ _).mpr ?_⟩
  refine ⟨⟨fun server member full => ?_, fun server member _ scheme known _ => ?_, fun url member => ?_⟩, ?_⟩
  · cases List.mem_singleton.mp member
    exact absurd full (by decide +kernel)
  · cases List.mem_singleton.mp member
    have host : ∀ scheme ∈ BlossomUri.webSchemes, ownPath scheme "cdn.example.com".toList = [] := by
      decide +kernel
    exact ⟨by decide +kernel, ⟨by decide +kernel, host scheme known⟩, plainPath_sampleUri _ _⟩
  · cases List.mem_singleton.mp member
    exact ⟨rfl, plainPath_sampleUri _ _⟩
  · have origins : origins sampleApi sampleAuthority (sampleUri ["cdn.example.com"]) [otherServer] [] =
        [("https", some "cdn.example.com"), ("http", some "cdn.example.com"), ("https", some "other.example")] := by
      decide +kernel
    rw [origins]
    exact ⟨.inr (by decide), .inr (by decide), trivial⟩

/-- The query of a hint is still there. -/
theorem candidateUrls_query :
    BlossomUri.fromStr sampleCalls (sampleText "xs=https%3A%2F%2Fcdn.example.com%2F%3Fkey") =
      .ok (sampleUri ["https://cdn.example.com/?key"]) ∧
    ¬ WellListed sampleApi (sampleUri ["https://cdn.example.com/?key"]) [] []
      (BlossomUri.candidateUrls sampleApi (sampleUri ["https://cdn.example.com/?key"]) [] []) := by
  refine ⟨by decide +kernel, fun listed => ?_⟩
  have kept : (BlossomUri.candidateUrls sampleApi (sampleUri ["https://cdn.example.com/?key"]) [] []).map
      UrlRecord.query = [some "key"] := by decide +kernel
  obtain ⟨url, member, query⟩ := List.mem_map.mp (kept ▸ List.mem_singleton_self (some "key"))
  rw [(listed.clean url member).2.1] at query
  cases query

end RustNostr.Blossom
