import Mathlib
import RustNostr.Library.Splitting
import RustNostr.Nostr.TagValues

/-!
# Tags of git repositories

The tags of repositories, patches and pull requests, written and read
(`nostr/src/nips/nip34.rs`).
-/

set_option autoImplicit false

namespace RustNostr

open Library

abbrev Sha1Hash := FixedBytes 20

/-- What is left to other crates: the hexadecimal of keys, and commit hashes as texts. -/
structure GitCalls where
  externals : Externals
  sha1FromStr : String → Except String Sha1Hash
  sha1ToString : Sha1Hash → String

/-! ## Signed numbers -/

/-- `str::parse` of an `i32` -/
def parseSigned (text : List Char) : Option Int :=
  match text with
  | '-' :: digits =>
      if digits.head? = some '+' then none else (parseUnsigned (2 ^ 31 + 1) digits).map fun number => -(number : Int)
  | _ => (parseUnsigned (2 ^ 31) text).map Int.ofNat

def parseSignedError (text : List Char) : String :=
  match text with
  | '-' :: digits =>
      if digits.head? ≠ some '+' ∧ (parseUnsigned (10 ^ digits.length) digits).isSome
      then "number too small to fit in target type"
      else "invalid digit found in string"
  | _ => parseIntError text

def parseI32 (text : String) : Except Error Int32 :=
  match parseSigned text.toList with
  | some number => .ok (.ofInt number)
  | none => .error ⟨.malformed, parseSignedError text.toList⟩

/-! ## Tags -/

inductive Nip34Tag (crate : UrlCrate) where
  | appliedAsCommits (commits : List Sha1Hash)
  | branchName (name : String)
  | clone (urls : List (Url crate))
  | commit (commit : Sha1Hash)
  | commitPgpSig (signature : String)
  | committer (name email : String) (timestamp : Timestamp) (offsetMinutes : Int32)
  | currentCommit (commit : Sha1Hash)
  | description (description : String)
  | earliestUniqueCommitId (commit : Sha1Hash)
  | grasp (relay : FullRelayUrl crate)
  | head (branch : String)
  | maintainers (publicKeys : List PublicKey)
  | mergeBase (commit : Sha1Hash)
  | mergeCommit (commit : Sha1Hash)
  | name (name : String)
  | parentCommit (commit : Sha1Hash)
  | reference (commit : Sha1Hash)
  | refHead (branch : String) (commit : Sha1Hash)
  | refTag (name : String) (commit : Sha1Hash)
  | relays (relays : List (FullRelayUrl crate))
  | subject (subject : String)
  | web (urls : List (Url crate))
  deriving BEq, ReflBEq

namespace Nip34

def refsHeads : List Char := "refs/heads/".toList

def refsTags : List Char := "refs/tags/".toList

def headLabel : List Char := "ref: refs/heads/".toList

end Nip34

open Nip34 (refsHeads refsTags headLabel)

variable {crate : UrlCrate}

namespace Nip34Tag

/-- All values are read, and there is one at least. -/
def parseList {α : Type} (parse : String → Except Error α) (missing : String) (values : List String) :
    Except Error (List α) := do
  let values ← values.mapM parse
  if values.isEmpty then .error ⟨.missing, missing⟩ else .ok values

section Calls

variable (calls : GitCalls)

def parseSha1 (text : String) : Except Error Sha1Hash :=
  (calls.sha1FromStr text).mapError fun error => ⟨.malformed, error⟩

def parseCommitList (values : List String) : Except Error (List Sha1Hash) :=
  parseList (parseSha1 calls) "commits" values

def parsePublicKeys (values : List String) : Except Error (List PublicKey) :=
  parseList (PublicKey.fromHex calls.externals) "public keys" values

def parseRelayUrls (values : List String) : Except Error (List (FullRelayUrl crate)) :=
  parseList (FullRelayUrl.parse crate) "relay URLs" values

def parseUrlList (values : List String) : Except Error (List (Url crate)) :=
  parseList (Url.parse crate) "URLs" values

def takeSha1 (missing : String) (values : List String) : Except Error (Sha1Hash × List String) :=
  takeAndParse (parseSha1 calls) missing values

def takeOrDefault : List String → String × List String
  | [] => ("", [])
  | value :: rest => (value, rest)

def parseCommitter (values : List String) : Except Error (Nip34Tag crate) := do
  let (person, values) := takeOrDefault values
  let (email, values) := takeOrDefault values
  let (timestamp, values) ← takeAndParse parseU64 "committer timestamp" values
  let (offsetMinutes, _) ← takeAndParse parseI32 "committer offset" values
  .ok (committer person email timestamp offsetMinutes)

/-- Any error of a relay's text is one of a malformed value. -/
def parseGrasp (values : List String) : Except Error (Nip34Tag crate) := do
  let (relay, _) ← takeAndParse
    (fun text => (FullRelayUrl.parse crate text).mapError fun error => ⟨.malformed, error.message⟩)
    "grasp relay URL" values
  .ok (grasp relay)

def parseHead : List String → Except Error (Nip34Tag crate)
  | [] => .error ⟨.missing, "head"⟩
  | value :: _ =>
      match stripPrefix headLabel value.toList with
      | none => .error ⟨.invalid, "invalid head tag"⟩
      | some branch => .ok (head (String.ofList branch))

def parseReference (values : List String) : Except Error (Nip34Tag crate) := do
  let (hash, values) ← takeSha1 calls "reference commit ID" values
  match values with
  | [] => .ok (reference hash)
  | marker :: _ => if marker = "euc" then .ok (earliestUniqueCommitId hash) else .error .unknownTag

/-- A kind that is a reference: the label is taken off as often as it stands there. -/
def parseRef (label : List Char) (make : String → Sha1Hash → Nip34Tag crate) (kind : String)
    (values : List String) : Except Error (Nip34Tag crate) := do
  let (hash, _) ← takeSha1 calls "commit id" values
  .ok (make (String.ofList (stripAll label kind.toList)) hash)

def parse (tag : List String) : Except Error (Nip34Tag crate) :=
  match tag with
  | [] => .error .missingTagKind
  | "applied-as-commits" :: values => (parseCommitList calls values).map appliedAsCommits
  | "branch-name" :: values => (takeString "branch name" values).map fun (value, _) => branchName value
  | "clone" :: values => (parseUrlList values).map clone
  | "commit" :: values => (takeSha1 calls "commit ID" values).map fun (hash, _) => commit hash
  | "commit-pgp-sig" :: values => (takeString "commit pgp signature" values).map fun (value, _) => commitPgpSig value
  | "committer" :: values => parseCommitter values
  | "c" :: values => (takeSha1 calls "current commit ID" values).map fun (hash, _) => currentCommit hash
  | "description" :: values => (takeString "description" values).map fun (value, _) => description value
  | "g" :: values => parseGrasp values
  | "HEAD" :: values => parseHead values
  | "maintainers" :: values => (parsePublicKeys calls values).map maintainers
  | "merge-base" :: values => (takeSha1 calls "merge base" values).map fun (hash, _) => mergeBase hash
  | "merge-commit" :: values => (takeSha1 calls "merge commit ID" values).map fun (hash, _) => mergeCommit hash
  | "name" :: values => (takeString "name" values).map fun (value, _) => name value
  | "parent-commit" :: values => (takeSha1 calls "parent commit ID" values).map fun (hash, _) => parentCommit hash
  | "r" :: values => parseReference calls values
  | "subject" :: values => (takeString "subject" values).map fun (value, _) => subject value
  | "web" :: values => (parseUrlList values).map web
  | "relays" :: values => (parseRelayUrls values).map relays
  | kind :: values =>
      if refsHeads <+: kind.toList then parseRef calls refsHeads refHead kind values
      else if refsTags <+: kind.toList then parseRef calls refsTags refTag kind values
      else .error .unknownTag

def kindAndValues : Nip34Tag crate → String × List String
  | appliedAsCommits commits => ("applied-as-commits", commits.map calls.sha1ToString)
  | branchName value => ("branch-name", [value])
  | clone urls => ("clone", urls.map Url.serialization)
  | commit hash => ("commit", [calls.sha1ToString hash])
  | commitPgpSig value => ("commit-pgp-sig", [value])
  | committer person email timestamp offsetMinutes =>
      ("committer", [person, email, toString timestamp.toNat, toString offsetMinutes.toInt])
  | currentCommit hash => ("c", [calls.sha1ToString hash])
  | description value => ("description", [value])
  | earliestUniqueCommitId hash => ("r", [calls.sha1ToString hash, "euc"])
  | grasp relay => ("g", [relay.asStr])
  | head branch => ("HEAD", [String.ofList (headLabel ++ branch.toList)])
  | maintainers publicKeys => ("maintainers", publicKeys.map (PublicKey.toHex calls.externals))
  | mergeBase hash => ("merge-base", [calls.sha1ToString hash])
  | mergeCommit hash => ("merge-commit", [calls.sha1ToString hash])
  | name value => ("name", [value])
  | parentCommit hash => ("parent-commit", [calls.sha1ToString hash])
  | reference hash => ("r", [calls.sha1ToString hash])
  | refHead branch hash => (String.ofList (refsHeads ++ branch.toList), [calls.sha1ToString hash])
  | refTag value hash => (String.ofList (refsTags ++ value.toList), [calls.sha1ToString hash])
  | relays list => ("relays", list.map FullRelayUrl.asStr)
  | subject value => ("subject", [value])
  | web urls => ("web", urls.map Url.serialization)

def toTag (tag : Nip34Tag crate) : Tag :=
  ⟨(kindAndValues calls tag).1 :: (kindAndValues calls tag).2, List.cons_ne_nil _ _⟩

end Calls

end Nip34Tag

/-! ## What is written is read -/

theorem toDigits_head (number : Nat) (char : Char) (signed : char.isDigit = false) :
    (Nat.toDigits 10 number).head? ≠ some char := by
  intro first
  exact notMem_toDigits signed number (List.mem_of_head? first)

theorem parseSigned_toString {number : Int} (low : -2 ^ 31 ≤ number) (high : number < 2 ^ 31) :
    parseSigned (toString number).toList = some number := by
  cases number with
  | ofNat number =>
      have digits : (toString (Int.ofNat number)).toList = Nat.toDigits 10 number := by
        exact toList_toString_nat number
      have small : number < 2 ^ 31 := Int.ofNat_lt.mp high
      rw [digits]
      unfold parseSigned
      split
      next rest shape => exact absurd (congrArg List.head? shape) (toDigits_head number '-' rfl)
      next => rw [parseUnsigned_toDigits small, Option.map_some]
  | negSucc number =>
      have digits : (toString (Int.negSucc number)).toList = '-' :: Nat.toDigits 10 (number + 1) := by
        change ("-" ++ toString (number + 1)).toList = _
        simp
      have small : number + 1 < 2 ^ 31 + 1 := by omega
      rw [digits, parseSigned, if_neg (toDigits_head _ '+' rfl), parseUnsigned_toDigits small]
      rfl

theorem parseI32_toString (number : Int32) : parseI32 (toString number.toInt) = .ok number := by
  rw [parseI32, parseSigned_toString number.le_toInt number.toInt_lt]
  exact congrArg Except.ok (Int32.ofInt_toInt number)



/-- What the other crates promise. -/
structure GitCalls.Standard (calls : GitCalls) (crate : UrlCrate) : Prop where
  hex : HexCodec calls.externals
  url : crate.RoundTrips
  sha1 : ∀ hash, calls.sha1FromStr (calls.sha1ToString hash) = .ok hash

namespace Nip34Tag

variable {calls : GitCalls}

theorem parse_ref {kind : String} (begins : ['r', 'e', 'f', 's', '/'] <+: kind.toList) (values : List String) :
    (parse calls (kind :: values) : Except Error (Nip34Tag crate)) =
      if refsHeads <+: kind.toList then parseRef calls refsHeads refHead kind values
      else if refsTags <+: kind.toList then parseRef calls refsTags refTag kind values
      else .error .unknownTag := by
  unfold parse
  split
  case h_1 same => cases same
  case h_21 same =>
    cases same
    rfl
  all_goals
    rename_i same
    cases same
    exact absurd begins (by decide)


theorem parseList_map {α : Type} {parse : String → Except Error α} {write : α → String} {missing : String}
    (read : ∀ value, parse (write value) = .ok value) {values : List α} (filled : values ≠ []) :
    parseList parse missing (values.map write) = .ok values := by
  have all (values : List α) : (values.map write).mapM parse = .ok values := by
    induction values with
    | nil => rfl
    | cons value values ih =>
        rw [List.map_cons, List.mapM_cons, read, ih]
        rfl
  rw [parseList, all]
  simp [bind, Except.bind, filled]

theorem parseList_ne_nil {α : Type} {parse : String → Except Error α} {missing : String} {values : List String}
    {back : List α} (read : parseList parse missing values = .ok back) : back ≠ [] := by
  obtain ⟨all, _, checked⟩ := bind_ok.mp read
  split at checked
  next => cases checked
  next filled =>
    cases checked
    exact fun empty => filled (List.isEmpty_iff.mpr empty)

theorem takeSha1_toString (standard : calls.Standard crate) (missing : String) (hash : Sha1Hash)
    (values : List String) : takeSha1 calls missing (calls.sha1ToString hash :: values) = .ok (hash, values) := by
  rw [takeSha1, takeAndParse, parseSha1, standard.sha1]
  rfl

def ListsFilled : Nip34Tag crate → Prop
  | appliedAsCommits commits => commits ≠ []
  | clone urls => urls ≠ []
  | maintainers publicKeys => publicKeys ≠ []
  | relays list => list ≠ []
  | web urls => urls ≠ []
  | _ => True

def RefPlain : Nip34Tag crate → Prop
  | refHead branch _ => ¬ refsHeads <+: branch.toList
  | refTag value _ => ¬ refsTags <+: value.toList
  | _ => True

def relayUrls : Nip34Tag crate → List (FullRelayUrl crate)
  | grasp relay => [relay]
  | relays list => list
  | _ => []

/-- What is read of the tag that is written. -/
def ComesBack (calls : GitCalls) (tag : Nip34Tag crate) : Prop :=
  ∃ back, parse calls (toTag calls tag).buf = .ok back ∧ (back == tag) = true

theorem comesBack_of_ok {tag : Nip34Tag crate} (read : parse calls (toTag calls tag).buf = .ok tag) :
    ComesBack calls tag :=
  ⟨tag, read, beq_self_eq_true tag⟩

theorem comesBack_ref_iff (standard : calls.Standard crate) {label : List Char}
    {make : String → Sha1Hash → Nip34Tag crate} (some_ : label ≠ []) (name : String) (hash : Sha1Hash)
    (read : parse calls (toTag calls (make name hash)).buf =
      parseRef calls label make (String.ofList (label ++ name.toList)) [calls.sha1ToString hash])
    (same : ∀ other, (make other hash == make name hash) = true ↔ other = name) :
    ComesBack calls (make name hash) ↔ ¬ label <+: name.toList := by
  have stripped : parseRef calls label make (String.ofList (label ++ name.toList)) [calls.sha1ToString hash] =
      .ok (make (String.ofList (stripAll label (label ++ name.toList))) hash) := by
    rw [parseRef, takeSha1_toString standard, String.toList_ofList]
    rfl
  rw [ComesBack, read, stripped, ← stripAll_append_iff some_]
  simp only [Except.ok.injEq, exists_eq_left', same, ← String.toList_inj, String.toList_ofList]

theorem comesBack_refHead_iff (standard : calls.Standard crate) (branch : String) (hash : Sha1Hash) :
    ComesBack calls (refHead branch hash : Nip34Tag crate) ↔ ¬ refsHeads <+: branch.toList := by
  have begins : refsHeads <+: refsHeads ++ branch.toList := List.prefix_append _ _
  have refs : ['r', 'e', 'f', 's', '/'] <+: refsHeads ++ branch.toList := List.IsPrefix.trans (by decide) begins
  refine comesBack_ref_iff standard (by decide) branch hash ?_ fun other => ?_
  · change parse calls (String.ofList (refsHeads ++ branch.toList) :: [calls.sha1ToString hash]) = _
    rw [parse_ref (by rwa [String.toList_ofList]), String.toList_ofList, if_pos begins]
  · change (other == branch && hash == hash) = true ↔ _
    simp

theorem comesBack_refTag_iff (standard : calls.Standard crate) (value : String) (hash : Sha1Hash) :
    ComesBack calls (refTag value hash : Nip34Tag crate) ↔ ¬ refsTags <+: value.toList := by
  have begins : refsTags <+: refsTags ++ value.toList := List.prefix_append _ _
  have refs : ['r', 'e', 'f', 's', '/'] <+: refsTags ++ value.toList := List.IsPrefix.trans (by decide) begins
  have noHead : ¬ refsHeads <+: refsTags ++ value.toList := by
    intro other
    rcases List.prefix_or_prefix_of_prefix other begins with first | second
    · exact absurd first (by decide)
    · exact absurd second (by decide)
  refine comesBack_ref_iff standard (by decide) value hash ?_ fun other => ?_
  · change parse calls (String.ofList (refsTags ++ value.toList) :: [calls.sha1ToString hash]) = _
    rw [parse_ref (by rwa [String.toList_ofList]), String.toList_ofList, if_neg noHead, if_pos begins]
  · change (other == value && hash == hash) = true ↔ _
    simp

theorem comesBack_grasp (relay : FullRelayUrl crate) (text : relay.ReadFrom relay.asStr) :
    ComesBack calls (grasp relay) := by
  obtain ⟨back, read, same⟩ := (FullRelayUrl.parse_iff relay relay.asStr).mpr text
  refine ⟨grasp back, ?_, same⟩
  change parseGrasp [relay.asStr] = _
  rw [parseGrasp, takeAndParse, read]
  rfl

theorem comesBack_relays {list : List (FullRelayUrl crate)} (filled : list ≠ [])
    (texts : ∀ relay ∈ list, relay.ReadFrom relay.asStr) : ComesBack calls (relays list) := by
  obtain ⟨back, read, same⟩ := (FullRelayUrl.mapM_parse_iff FullRelayUrl.asStr).mpr texts
  have backFilled : back ≠ [] := by
    intro empty
    have lengths := List.length_eq_of_beq same
    rw [empty] at lengths
    exact filled (List.length_eq_zero_iff.mp lengths.symm)
  refine ⟨relays back, ?_, same⟩
  change (parseList (FullRelayUrl.parse crate) "relay URLs" (list.map FullRelayUrl.asStr)).map relays = _
  rw [parseList, List.mapM_map]
  have collected : (list.mapM (FullRelayUrl.parse crate ∘ FullRelayUrl.asStr)) = .ok back := read
  simp [collected, bind, Except.bind, backFilled, Except.map]

theorem comesBack_iff (standard : calls.Standard crate) (tag : Nip34Tag crate) (filled : tag.ListsFilled)
    (texts : ∀ relay ∈ tag.relayUrls, relay.ReadFrom relay.asStr) : ComesBack calls tag ↔ tag.RefPlain := by
  have sha1 (hash : Sha1Hash) : parseSha1 calls (calls.sha1ToString hash) = .ok hash := by
    rw [parseSha1, standard.sha1]
    rfl
  have url := Url.parse_serialization standard.url
  cases tag with
  | refHead branch hash => exact comesBack_refHead_iff standard branch hash
  | refTag value hash => exact comesBack_refTag_iff standard value hash
  | grasp relay => exact iff_of_true (comesBack_grasp relay (texts relay (List.mem_singleton_self relay))) trivial
  | relays list => exact iff_of_true (comesBack_relays filled texts) trivial
  | appliedAsCommits commits =>
      refine iff_of_true (comesBack_of_ok ?_) trivial
      simp only [toTag, kindAndValues, parse, parseCommitList, parseList_map sha1 filled, Except.map]
  | clone urls | web urls =>
      refine iff_of_true (comesBack_of_ok ?_) trivial
      simp only [toTag, kindAndValues, parse, parseUrlList, parseList_map url filled, Except.map]
  | maintainers keys =>
      refine iff_of_true (comesBack_of_ok ?_) trivial
      simp only [toTag, kindAndValues, parse, parsePublicKeys,
        parseList_map (PublicKey.fromHex_toHex standard.hex) filled, Except.map]
  | committer person email timestamp offsetMinutes =>
      refine iff_of_true (comesBack_of_ok ?_) trivial
      simp only [toTag, kindAndValues, parse, parseCommitter, takeOrDefault, takeAndParse, parseU64_toString,
        parseI32_toString, bind, Except.bind]
  | head branch =>
      refine iff_of_true (comesBack_of_ok ?_) trivial
      simp only [toTag, kindAndValues, parse, parseHead, String.toList_ofList, stripPrefix_append,
        String.ofList_toList]
  | earliestUniqueCommitId hash =>
      refine iff_of_true (comesBack_of_ok ?_) trivial
      simp only [toTag, kindAndValues, parse, parseReference, takeSha1_toString standard, bind, Except.bind, if_true]
  | reference hash =>
      refine iff_of_true (comesBack_of_ok ?_) trivial
      simp only [toTag, kindAndValues, parse, parseReference, takeSha1_toString standard, bind, Except.bind]
  | commit hash | currentCommit hash | mergeBase hash | mergeCommit hash | parentCommit hash =>
      refine iff_of_true (comesBack_of_ok ?_) trivial
      simp only [toTag, kindAndValues, parse, takeSha1_toString standard, Except.map]
  | branchName value | commitPgpSig value | description value | name value | subject value =>
      exact iff_of_true (comesBack_of_ok rfl) trivial

structure Printable (tag : Nip34Tag crate) : Prop where
  filled : tag.ListsFilled
  plain : tag.RefPlain

theorem printable_of_map {α : Type} {source : Except Error α} {make : α → Nip34Tag crate} {tag : Nip34Tag crate}
    (read : source.map make = .ok tag) (each : ∀ value, source = .ok value → (make value).Printable) :
    tag.Printable := by
  cases source with
  | error error => cases read
  | ok value =>
      cases read
      exact each value rfl

theorem parseRef_printable {label : List Char} {make : String → Sha1Hash → Nip34Tag crate} {kind : String}
    {values : List String} {tag : Nip34Tag crate} (read : parseRef calls label make kind values = .ok tag)
    (plain : ∀ name hash, ¬ label <+: name.toList → (make name hash).Printable) (some_ : label ≠ []) :
    tag.Printable := by
  obtain ⟨taken, _, made⟩ := bind_ok.mp read
  cases made
  refine plain _ _ ?_
  rw [String.toList_ofList]
  exact not_stripAll some_ _

theorem parseReference_printable {values : List String} {tag : Nip34Tag crate}
    (read : parseReference calls values = .ok tag) : tag.Printable := by
  obtain ⟨⟨hash, rest⟩, _, marked⟩ := bind_ok.mp read
  cases rest with
  | nil =>
      cases marked
      exact ⟨trivial, trivial⟩
  | cons marker rest =>
      dsimp only at marked
      split at marked
      next =>
        cases marked
        exact ⟨trivial, trivial⟩
      next => cases marked

theorem parseHead_printable {values : List String} {tag : Nip34Tag crate}
    (read : parseHead values = .ok tag) : tag.Printable := by
  unfold parseHead at read
  split at read
  next => cases read
  next =>
    split at read
    next => cases read
    next =>
      cases read
      exact ⟨trivial, trivial⟩

theorem parseCommitter_printable {values : List String} {tag : Nip34Tag crate}
    (read : parseCommitter values = .ok tag) : tag.Printable := by
  obtain ⟨timestamp, _, rest⟩ := bind_ok.mp read
  obtain ⟨offset, _, made⟩ := bind_ok.mp rest
  cases made
  exact ⟨trivial, trivial⟩

theorem parse_printable {values : List String} {tag : Nip34Tag crate} (read : parse calls values = .ok tag) :
    tag.Printable := by
  unfold parse at read
  split at read
  case h_1 => cases read
  case h_2 => exact printable_of_map read fun _ list => ⟨parseList_ne_nil list, trivial⟩
  case h_4 => exact printable_of_map read fun _ list => ⟨parseList_ne_nil list, trivial⟩
  case h_12 => exact printable_of_map read fun _ list => ⟨parseList_ne_nil list, trivial⟩
  case h_19 => exact printable_of_map read fun _ list => ⟨parseList_ne_nil list, trivial⟩
  case h_20 => exact printable_of_map read fun _ list => ⟨parseList_ne_nil list, trivial⟩
  case h_7 => exact parseCommitter_printable read
  case h_10 =>
    obtain ⟨relay, _, made⟩ := bind_ok.mp read
    cases made
    exact ⟨trivial, trivial⟩
  case h_11 => exact parseHead_printable read
  case h_17 => exact parseReference_printable read
  case h_21 =>
    split at read
    next => exact parseRef_printable read (fun _ _ plain => ⟨trivial, plain⟩) (by decide)
    next =>
      split at read
      next => exact parseRef_printable read (fun _ _ plain => ⟨trivial, plain⟩) (by decide)
      next => cases read
  all_goals exact printable_of_map read fun _ _ => ⟨trivial, trivial⟩

theorem parse_codec_iff (standard : calls.Standard crate) :
    (∀ tag : Nip34Tag crate, tag.ListsFilled → (∀ relay ∈ tag.relayUrls, relay.ReadFrom relay.asStr) →
      (ComesBack calls tag ↔ tag.RefPlain)) ∧
    ∀ (values : List String) (tag : Nip34Tag crate), parse calls values = .ok tag →
      (∀ relay ∈ tag.relayUrls, relay.ReadFrom relay.asStr) → ComesBack calls tag := by
  constructor
  · intro tag filled texts
    exact comesBack_iff standard tag filled texts
  · intro values tag read texts
    have printable := parse_printable read
    exact (comesBack_iff standard tag printable.filled texts).mpr printable.plain

/-! ## A branch called like a reference -/

open ExternalContentId (sampleUrls sampleUrls_roundTrips)

def sampleGitCalls : GitCalls where
  externals := hexExternals
  sha1FromStr text := (hexBytes text.toList).elim (.error "invalid hex") fun bytes =>
    if whole : bytes.length = 20 then .ok ⟨bytes, whole⟩ else .error "invalid length"
  sha1ToString hash := String.ofList (hash.val.flatMap hexOf)

theorem sampleGitCalls_standard : sampleGitCalls.Standard sampleUrls where
  hex := hexExternals_hexCodec
  url := sampleUrls_roundTrips
  sha1 hash := by simp [sampleGitCalls, hexBytes_written, hash.property]

def zeroCommit : Sha1Hash := .replicate 20 0

theorem parse_codec_main :
    ComesBack sampleGitCalls (refHead "main" zeroCommit : Nip34Tag sampleUrls) ∧
    ComesBack sampleGitCalls (earliestUniqueCommitId zeroCommit : Nip34Tag sampleUrls) := by
  have codec := @parse_codec_iff sampleUrls sampleGitCalls sampleGitCalls_standard
  have read : parse sampleGitCalls ["r", sampleGitCalls.sha1ToString zeroCommit, "euc"] =
      .ok (earliestUniqueCommitId zeroCommit : Nip34Tag sampleUrls) := by
    simp only [parse, parseReference, takeSha1_toString sampleGitCalls_standard, bind, Except.bind, if_true]
  constructor
  · have plain : ¬ refsHeads <+: "main".toList := by decide
    refine (codec.1 (refHead "main" zeroCommit) trivial fun relay member => ?_).mpr plain
    cases member
  · refine codec.2 _ _ read fun relay member => ?_
    cases member

/-- The branch `refs/heads/x` is read as the branch `x`. -/
theorem parse_refHead_twice :
    parse sampleGitCalls (toTag sampleGitCalls (refHead "refs/heads/x" zeroCommit : Nip34Tag sampleUrls)).buf =
      .ok (refHead "x" zeroCommit : Nip34Tag sampleUrls) ∧
    ¬ ComesBack sampleGitCalls (refHead "refs/heads/x" zeroCommit : Nip34Tag sampleUrls) := by
  constructor
  · rfl
  · rw [comesBack_refHead_iff sampleGitCalls_standard]
    decide

end Nip34Tag

end RustNostr
