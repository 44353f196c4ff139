import Mathlib
import RustNostr.Library.Fallible
import RustNostr.Library.WebUrl
import RustNostr.Nostr.FilterJson
import RustNostr.Nostr.NostrConnect

/-!
# NIP-05 addresses

Names of keys at a domain, the URL that they are looked up at and the keys that are
found there (`nostr/src/nips/nip05.rs`).
-/

set_option autoImplicit false

namespace RustNostr

open Library

structure Nip05Address where
  name : String
  domain : String
  url : UrlRecord
  deriving DecidableEq

namespace Nip05Address

def toString (address : Nip05Address) : String := address.name ++ "@" ++ address.domain

/-- What stands before the first at sign, and behind it until the next. -/
def halves (address : String) : Except Error (String × String) :=
  match address.toList.splitOn '@' with
  | name :: domain :: _ => .ok (String.ofList name, String.ofList domain)
  | [address] => .ok ("_", String.ofList address)
  | [] => .error ⟨.malformed, "invalid format"⟩

def lookupText (name domain : String) : String := domain ++ "/.well-known/nostr.json?name=" ++ name

/-- With `Url::parse` of the `url` crate. -/
def parse (parseUrl : String → Except String UrlRecord) (address : String) : Except Error Nip05Address := do
  let (name, domain) ← halves address
  let url ← (parseUrl ("https://" ++ lookupText name domain)).mapError fun error => ⟨.malformed, error⟩
  .ok { name, domain, url }

/-! ## Keys -/

/-- `Value::get` of a key -/
def member (name : String) : JsonValue → Option JsonValue
  | .object entries => entries.lookup name
  | _ => none

def getKeyFromJson (externals : Externals) (json : JsonValue) (address : Nip05Address) : Option PublicKey := do
  let names ← member "names" json
  let value ← member address.name names
  let publicKey ← (value.asString).toOption
  (PublicKey.fromHex externals publicKey).toOption

def verifyFromJson (externals : Externals) (publicKey : PublicKey) (address : Nip05Address) (json : JsonValue) :
    Bool :=
  match getKeyFromJson externals json address with
  | some key => key = publicKey
  | none => false

/-- A key is verified when the document gives it to the name of the address. -/
theorem verifyFromJson_iff {externals : Externals} {publicKey : PublicKey} {address : Nip05Address}
    {json : JsonValue} : verifyFromJson externals publicKey address json = true ↔
      ∃ names hex, member "names" json = some names ∧ member address.name names = some (.string hex) ∧
        PublicKey.fromHex externals hex = .ok publicKey := by
  have key : getKeyFromJson externals json address = some publicKey ↔
      ∃ names hex, member "names" json = some names ∧ member address.name names = some (.string hex) ∧
        PublicKey.fromHex externals hex = .ok publicKey := by
    constructor
    · intro found
      obtain ⟨names, given, found⟩ := Option.bind_eq_some_iff.mp found
      obtain ⟨value, entry, found⟩ := Option.bind_eq_some_iff.mp found
      obtain ⟨hex, text, found⟩ := Option.bind_eq_some_iff.mp found
      cases value with
      | string hex =>
          cases text
          exact ⟨names, hex, given, entry, toOption_eq_some.mp found⟩
      | _ => cases text
    · rintro ⟨names, hex, given, entry, read⟩
      exact Option.bind_eq_some_iff.mpr ⟨names, given, Option.bind_eq_some_iff.mpr ⟨_, entry,
        Option.bind_eq_some_iff.mpr ⟨hex, rfl, toOption_eq_some.mpr read⟩⟩⟩
  rw [← key, verifyFromJson]
  cases getKeyFromJson externals json address with
  | none => exact iff_of_false nofun nofun
  | some found => rw [decide_eq_true_iff, Option.some_inj]

/-! ## Where a name is looked up -/

/-- The `url` crate follows the URL standard, with a parser for the credentials, the host and the
port of a web address. These have no character that ends them or that is taken out before. -/
structure FollowsStandard (parseUrl : String → Except String UrlRecord) (authority : List Char → Option String) :
    Prop where
  web : ∀ (rest : String) (url : UrlRecord), parseUrl ("https://" ++ rest) = .ok url →
    readWeb authority "https" rest.toList = some url
  forbidden : ∀ (text : List Char) (host : String), '@' ∉ text → authority text = some host → WholeAuthority text

/-- The host is the domain, and the name is all that it is asked for. -/
structure LookupSafe (authority : List Char → Option String) (address : Nip05Address) : Prop where
  host : ∃ host, authority address.domain.toList = some host ∧ address.url.authority = some host
  path : address.url.path.text = "/.well-known/nostr.json".toList
  fragment : address.url.fragment = none
  query : address.url.queryPairs = [("name".toList, address.name.toList)]

/-- A text without an at sign is a domain. -/
def Halves (text name domain : List Char) : Prop :=
  '@' ∉ name ∧ '@' ∉ domain ∧
    (text = domain ∧ name = ['_'] ∨ text = name ++ '@' :: domain ∨ ∃ rest, text = name ++ '@' :: (domain ++ '@' :: rest))

/-- The domain can only be an authority, and the name is read as it is written. -/
def PlainAddress (text : List Char) : Prop :=
  ∃ name domain, Halves text name domain ∧ WholeAuthority domain ∧ Transparent name

theorem notMem_of_mem_splitOn {text piece : List Char} (inside : piece ∈ text.splitOn '@') : '@' ∉ piece := by
  intro sign
  rw [List.splitOn_eq_splitOnP] at inside
  have other := (mem_splitOnP inside '@' sign).2
  simp at other

theorem halves_eq_ok {text : String} {name domain : List Char} :
    halves text = .ok (String.ofList name, String.ofList domain) ↔ Halves text.toList name domain := by
  have whole : ['@'].intercalate (text.toList.splitOn '@') = text.toList := List.intercalate_splitOn '@'
  have apart {piece : List Char} (inside : piece ∈ text.toList.splitOn '@') : '@' ∉ piece :=
    notMem_of_mem_splitOn inside
  constructor
  · intro read
    unfold halves at read
    split at read
    next first second rest pieces =>
      rw [Except.ok.injEq, Prod.mk.injEq, String.ofList_inj, String.ofList_inj] at read
      obtain ⟨rfl, rfl⟩ := read
      rw [pieces] at whole apart
      refine ⟨apart List.mem_cons_self, apart (.tail _ List.mem_cons_self), .inr ?_⟩
      rw [← whole, List.intercalate_cons_cons]
      cases rest with
      | nil => exact .inl (by simp)
      | cons third rest =>
          refine .inr ⟨['@'].intercalate (third :: rest), ?_⟩
          rw [List.intercalate_cons_cons]
          simp
    next only pieces =>
      rw [Except.ok.injEq, Prod.mk.injEq, String.ofList_inj, String.ofList_inj] at read
      obtain ⟨rfl, rfl⟩ := read
      rw [pieces] at whole apart
      refine ⟨by decide, apart List.mem_cons_self, .inl ⟨?_, rfl⟩⟩
      rw [← whole]
      simp
    next => cases read
  · rintro ⟨noName, noDomain, ⟨shape, named⟩ | shape | ⟨rest, shape⟩⟩
    · rw [halves, shape, List.splitOn_eq_singleton noDomain, named]
    · rw [halves, shape, List.splitOn_append_cons_self_of_not_mem noName, List.splitOn_eq_singleton noDomain]
    · rw [halves, shape, List.splitOn_append_cons_self_of_not_mem noName,
        List.splitOn_append_cons_self_of_not_mem noDomain]

theorem parse_eq_ok {parseUrl : String → Except String UrlRecord} {text : String} {address : Nip05Address} :
    parse parseUrl text = .ok address ↔ Halves text.toList address.name.toList address.domain.toList ∧
      parseUrl ("https://" ++ lookupText address.name address.domain) = .ok address.url := by
  rw [← halves_eq_ok, String.ofList_toList, String.ofList_toList, parse]
  constructor
  · intro parsed
    obtain ⟨⟨name, domain⟩, split, parsed⟩ := bind_ok.mp parsed
    obtain ⟨url, read, made⟩ := bind_ok.mp parsed
    cases made
    exact ⟨split, mapError_ok.mp read⟩
  · rintro ⟨split, read⟩
    exact bind_ok.mpr ⟨_, split, bind_ok.mpr ⟨_, mapError_ok.mpr read, rfl⟩⟩

theorem parse_toString {parseUrl : String → Except String UrlRecord} {text : String} {address : Nip05Address}
    (parsed : parse parseUrl text = .ok address) : parse parseUrl address.toString = .ok address := by
  obtain ⟨⟨noName, noDomain, _⟩, read⟩ := parse_eq_ok.mp parsed
  refine parse_eq_ok.mpr ⟨⟨noName, noDomain, .inr (.inl ?_)⟩, read⟩
  simp [toString]

theorem toList_lookupText (name domain : String) : (lookupText name domain).toList =
    domain.toList ++ '/' :: (".well-known/nostr.json".toList ++ '?' :: ("name".toList ++ '=' :: name.toList)) := by
  simp [lookupText]

/-- What is read of the text when the domain is the authority. -/
theorem url_of_whole {authority : List Char → Option String} {name domain : String} {url : UrlRecord}
    (whole : WholeAuthority domain.toList)
    (read : readWeb authority "https" (lookupText name domain).toList = some url) :
    ∃ host, authority domain.toList = some host ∧ url = {
      scheme := "https"
      authority := some host
      path := .segments [".well-known".toList, "nostr.json".toList]
      query := some (String.ofList
        (percentEncodeSet specialQueryEncoded ("name".toList ++ '=' :: queryText name.toList)))
      fragment := readFragment ('?' :: removeBreaks (trimEnd ("name".toList ++ '=' :: name.toList))) } := by
  have kept : Kept ("name".toList ++ ['=']) := .of_plain (eq_false_of_all (by decide))
  have written : ∀ char ∈ ".well-known/nostr.json".toList, pathEncoded char = false := eq_false_of_all (by decide)
  rw [toList_lookupText, readWeb_append whole written, Option.map_eq_some_iff] at read
  obtain ⟨host, found, shape⟩ := read
  refine ⟨host, found, shape.symm.trans ?_⟩
  have path : runPath "https" [] (pathSegments "https" ".well-known/nostr.json".toList) =
      [".well-known".toList, "nostr.json".toList] := by decide +kernel
  rw [path, queryText_append kept]

section Lookup

variable {parseUrl : String → Except String UrlRecord} {authority : List Char → Option String}
    {address : Nip05Address}

theorem lookupSafe_iff_halves (follows : FollowsStandard parseUrl authority)
    (noSign : '@' ∉ address.domain.toList)
    (read : parseUrl ("https://" ++ lookupText address.name address.domain) = .ok address.url) :
    LookupSafe authority address ↔ WholeAuthority address.domain.toList ∧ Transparent address.name.toList := by
  have plain : '&' ∉ "name".toList ∧ '=' ∉ "name".toList := by decide
  have standard := follows.web _ _ read
  constructor
  · intro safe
    obtain ⟨host, accepted, _⟩ := safe.host
    have whole := follows.forbidden _ host noSign accepted
    obtain ⟨_, _, shape⟩ := url_of_whole whole standard
    have pairs := UrlRecord.queryPairs_eq (congrArg UrlRecord.query shape)
    rw [safe.query] at pairs
    obtain ⟨pair, inside, decoded⟩ := List.mem_map.mp (pairs ▸ List.mem_cons_self)
    exact ⟨whole, transparent_of_mem plain inside (congrArg Prod.snd decoded)⟩
  · rintro ⟨whole, transparent⟩
    obtain ⟨host, accepted, shape⟩ := url_of_whole whole standard
    have pairs := UrlRecord.queryPairs_eq (congrArg UrlRecord.query shape)
    obtain ⟨single, same⟩ := transparent.queryPairs plain
    refine ⟨⟨host, accepted, congrArg UrlRecord.authority shape⟩, ?_, ?_, ?_⟩
    · rw [shape]
      change (UrlPath.segments [".well-known".toList, "nostr.json".toList]).text = _
      decide +kernel
    · rw [shape]
      refine (readFragment_eq_none _).mpr fun mark => ?_
      rcases List.mem_cons.mp mark with question | inside
      · cases question
      · rw [mem_removeBreaks_trimEnd (by decide) (by decide), List.mem_append, List.mem_cons] at inside
        rcases inside with front | equals | within
        · exact absurd front (by decide)
        · cases equals
        · exact transparent.1.2.2 within
    · have label : formDecode "name".toList = "name".toList := formDecode_eq_self.mpr (by decide)
      rw [pairs, single, List.map_singleton, same, label]

/-- The lookup is safe exactly for plain addresses; every address is read back from what is printed. -/
theorem lookupSafe_iff_plain {text : String} (follows : FollowsStandard parseUrl authority)
    (parsed : parse parseUrl text = .ok address) :
    (LookupSafe authority address ↔ PlainAddress text.toList) ∧ parse parseUrl address.toString = .ok address := by
  obtain ⟨halves, read⟩ := parse_eq_ok.mp parsed
  refine ⟨?_, parse_toString parsed⟩
  rw [lookupSafe_iff_halves follows halves.2.1 read]
  constructor
  · rintro ⟨whole, transparent⟩
    exact ⟨_, _, halves, whole, transparent⟩
  · rintro ⟨name, domain, other, whole, transparent⟩
    have first := halves_eq_ok.mpr halves
    rw [halves_eq_ok.mpr other, Except.ok.injEq, Prod.mk.injEq, String.ofList_inj, String.ofList_inj] at first
    rw [← first.1, ← first.2]
    exact ⟨whole, transparent⟩

end Lookup

/-! ## Examples -/

def isHostLetter (char : Char) : Bool := char.isLower || char = '.'

/-- Hosts of small letters and dots, which no parser alters. -/
def sampleAuthority (text : List Char) : Option String :=
  if text ≠ [] ∧ text.all isHostLetter then some (String.ofList text) else none

def sampleParse (text : String) : Except String UrlRecord :=
  match (stripPrefix "https://".toList text.toList).bind (readWeb sampleAuthority "https") with
  | some url => .ok url
  | none => .error "empty host"

theorem followsStandard_sample : FollowsStandard sampleParse sampleAuthority where
  web rest url parsed := by
    rw [sampleParse, String.toList_append, stripPrefix_append, Option.bind_some] at parsed
    split at parsed
    next found =>
      cases parsed
      exact found
    next => cases parsed
  forbidden text host _ accepted := by
    unfold sampleAuthority at accepted
    split at accepted
    next letters =>
      refine ⟨letters.1, fun char member => ?_⟩
      have letter := List.all_eq_true.mp letters.2 char member
      constructor
      · rw [Bool.eq_false_iff]
        intro ends
        simp only [endsAuthority, isSlash, Bool.or_eq_true, decide_eq_true_eq, or_assoc] at ends
        rcases ends with rfl | rfl | rfl | rfl <;> cases letter
      · rw [Bool.eq_false_iff]
        intro break_
        simp only [isTabOrNewline, Bool.or_eq_true, decide_eq_true_eq, or_assoc] at break_
        rcases break_ with rfl | rfl | rfl <;> cases letter
    next => cases accepted

def sampleUrl (query : String) (fragment : Option String) : UrlRecord where
  scheme := "https"
  authority := some "example.com"
  path := .segments [".well-known".toList, "nostr.json".toList]
  query := some query
  fragment := fragment

theorem parse_yuki : parse sampleParse "yuki@example.com" =
    .ok { name := "yuki", domain := "example.com", url := sampleUrl "name=yuki" none } := rfl

theorem lookupSafe_iff_plain_yuki :
    LookupSafe sampleAuthority { name := "yuki", domain := "example.com", url := sampleUrl "name=yuki" none } ∧
      parse sampleParse "yuki@example.com" =
        .ok { name := "yuki", domain := "example.com", url := sampleUrl "name=yuki" none } := by
  have whole := followsStandard_sample.forbidden "example.com".toList "example.com" (by decide) rfl
  have kept : Kept "yuki".toList := .of_plain (eq_false_of_all (by decide))
  have plain : PlainAddress "yuki@example.com".toList := ⟨"yuki".toList, "example.com".toList,
    ⟨by decide, by decide, .inr (.inl rfl)⟩, whole, kept, by decide, by decide, by decide⟩
  have found := lookupSafe_iff_plain followsStandard_sample parse_yuki
  exact ⟨found.1.mpr plain, found.2⟩

/-- The key of `yuki` is asked for, in the name of `yuki#2`. -/
def hashAddress : Nip05Address where
  name := "yuki#2"
  domain := "example.com"
  url := sampleUrl "name=yuki" (some "2")

/-- A folder of the host is asked, that the domain has behind it. -/
def folderAddress : Nip05Address where
  name := "yuki"
  domain := "example.com/users"
  url := { sampleUrl "name=yuki" none with
    path := .segments ["users".toList, ".well-known".toList, "nostr.json".toList] }

theorem lookups_elsewhere :
    parse sampleParse "yuki#2@example.com" = .ok hashAddress ∧
      hashAddress.url.queryPairs = [("name".toList, "yuki".toList)] ∧ ¬ LookupSafe sampleAuthority hashAddress ∧
      parse sampleParse "yuki@example.com/users" = .ok folderAddress ∧
      ¬ LookupSafe sampleAuthority folderAddress := by
  refine ⟨rfl, ?_, fun safe => ?_, rfl, fun safe => ?_⟩
  · have label : formDecode "name".toList = "name".toList := formDecode_eq_self.mpr (by decide)
    have value : formDecode "yuki".toList = "yuki".toList := formDecode_eq_self.mpr (by decide)
    change [(formDecode "name".toList, formDecode "yuki".toList)] = _
    rw [label, value]
  · cases safe.fragment
  · exact absurd safe.path (by decide)

end Nip05Address

end RustNostr
