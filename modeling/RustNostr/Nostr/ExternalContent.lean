import Mathlib
import RustNostr.Library.Splitting
import RustNostr.Nostr.RelayUrl

/-!
# External content

The texts that external content is named by (`nostr/src/nips/nip73.rs`). A kind is
recognised by a label in front or by a marker anywhere; what has neither is a URL.
-/

set_option autoImplicit false

namespace RustNostr

open Library

/-- `url::Url`, by its serialisation. -/
structure Url (crate : UrlCrate) where
  serialization : String
  parsed : ∃ text, crate.parse text = .ok serialization
  deriving DecidableEq

theorem UrlCrate.parsed_of_parse {crate : UrlCrate} {text serialization : String}
    (parsed : crate.parse text = .ok serialization) : ∃ text, crate.parse text = .ok serialization :=
  ⟨text, parsed⟩

inductive ExternalContentId (crate : UrlCrate) where
  | url (url : Url crate)
  | hashtag (hashtag : String)
  | geohash (hash : String)
  | book (id : String)
  | podcastFeed (guid : String)
  | podcastEpisode (guid : String)
  | podcastPublisher (guid : String)
  | movie (movie : String)
  | paper (paper : String)
  | blockchainTransaction (chain transactionHash : String) (chainId : Option String)
  | blockchainAddress (chain address : String) (chainId : Option String)
  deriving DecidableEq

namespace ExternalContentId

variable {crate : UrlCrate}

end ExternalContentId

namespace Nip73

def hashtag : List Char := "#".toList

def geohash : List Char := "geo:".toList

def book : List Char := "isbn:".toList

def podcastFeed : List Char := "podcast:guid:".toList

def podcastEpisode : List Char := "podcast:item:guid:".toList

def podcastPublisher : List Char := "podcast:publisher:guid:".toList

def movie : List Char := "isan:".toList

def paper : List Char := "doi:".toList

def blockchainTx : List Char := ":tx:".toList

def blockchainAddr : List Char := ":address:".toList

/-- The labels, in the order they are tried. -/
def labels : List (List Char) :=
  [hashtag, geohash, book, podcastFeed, podcastEpisode, podcastPublisher, movie, paper]

end Nip73

namespace ExternalContentId

open Nip73 (blockchainTx blockchainAddr)

variable {crate : UrlCrate}

/-- The labels with what follows each. -/
def labelled : List (List Char × (String → ExternalContentId crate)) :=
  Nip73.labels.zip
    [hashtag, geohash, book, podcastFeed, podcastEpisode, podcastPublisher, movie, paper]

/-- The blockchain and, if there is one, its chain id. -/
def chainText (chain : String) (chainId : Option String) : List Char :=
  chain.toList ++ (chainId.map fun id => ':' :: id.toList).getD []

def toText : ExternalContentId crate → List Char
  | url location => location.serialization.toList
  | hashtag name => Nip73.hashtag ++ name.toList
  | geohash hash => Nip73.geohash ++ hash.toList
  | book id => Nip73.book ++ id.toList
  | podcastFeed guid => Nip73.podcastFeed ++ guid.toList
  | podcastEpisode guid => Nip73.podcastEpisode ++ guid.toList
  | podcastPublisher guid => Nip73.podcastPublisher ++ guid.toList
  | movie id => Nip73.movie ++ id.toList
  | paper id => Nip73.paper ++ id.toList
  | blockchainTransaction chain transactionHash chainId =>
      chainText chain chainId ++ (blockchainTx ++ transactionHash.toList)
  | blockchainAddress chain address chainId =>
      chainText chain chainId ++ (blockchainAddr ++ address.toList)

def toString (id : ExternalContentId crate) : String := String.ofList id.toText

def extractChainId (chain : List Char) : String × Option String :=
  match splitOnce [':'] chain with
  | none => (String.ofList chain, none)
  | some (chain, []) => (String.ofList chain, none)
  | some (chain, chainId) => (String.ofList chain, some (String.ofList chainId))

/-- What a marker of a blockchain makes of a text that has it. -/
def fromMarked (marker : List Char)
    (make : String → String → Option String → ExternalContentId crate) (content : List Char) :
    Option (ExternalContentId crate) :=
  (splitOnce marker content).map fun parts =>
    let (chain, chainId) := extractChainId parts.1
    make chain (String.ofList parts.2) chainId

def fromUrl (crate : UrlCrate) (content : String) : Except Error (ExternalContentId crate) :=
  match parsed : crate.parse content with
  | .ok serialization => .ok (url ⟨serialization, crate.parsed_of_parse parsed⟩)
  | .error _ => .error ⟨.invalid, "invalid external content"⟩

/-- What is left of `from_str` when no label fits. -/
def fromUnlabelled (crate : UrlCrate) (content : String) :
    Except Error (ExternalContentId crate) :=
  match fromMarked blockchainTx blockchainTransaction content.toList with
  | some id => .ok id
  | none =>
      match fromMarked blockchainAddr blockchainAddress content.toList with
      | some id => .ok id
      | none => fromUrl crate content

def fromStr (crate : UrlCrate) (content : String) : Except Error (ExternalContentId crate) :=
  match findLabel labelled content.toList with
  | some (make, stripped) => .ok (make (String.ofList stripped))
  | none => fromUnlabelled crate content

/-! ## Chains -/

theorem splitOnce_colon {before : List Char} (after : List Char) :
    splitOnce [':'] (before ++ ':' :: after) = some (before, after) ↔ ':' ∉ before := by
  have split := splitOnce_append (List.cons_ne_nil ':' []) before after
  rwa [List.dropLast_singleton, List.append_nil, List.singleton_infix_iff] at split

theorem splitOnce_colon_none {text : List Char} :
    splitOnce [':'] text = none ↔ ':' ∉ text := by
  rw [splitOnce_eq_none, List.singleton_infix_iff]

theorem notMem_of_splitOnce_colon {text before after : List Char}
    (split : splitOnce [':'] text = some (before, after)) : ':' ∉ before := by
  have shape := eq_append_of_splitOnce split
  rw [shape] at split
  exact (splitOnce_colon after).mp split

/-- What an extracted chain and chain id may be, and how the text was made of them. -/
inductive Extracted (text : List Char) : String × Option String → Prop where
  | whole : ':' ∉ text → Extracted text (String.ofList text, none)
  | trailingColon {chain : List Char} : ':' ∉ chain → text = chain ++ [':'] →
      Extracted text (String.ofList chain, none)
  | withId {chain id : List Char} : ':' ∉ chain → id ≠ [] → text = chain ++ ':' :: id →
      Extracted text (String.ofList chain, some (String.ofList id))

theorem extracted (text : List Char) : Extracted text (extractChainId text) := by
  unfold extractChainId
  split
  next whole => exact .whole (splitOnce_colon_none.mp whole)
  next chain split =>
    exact .trailingColon (notMem_of_splitOnce_colon split) (eq_append_of_splitOnce split)
  next chain id nonempty split =>
    exact .withId (notMem_of_splitOnce_colon split) nonempty (eq_append_of_splitOnce split)

/-- A chain without a colon and an id with something in it. -/
def PlainChain (chain : String) (chainId : Option String) : Prop :=
  ':' ∉ chain.toList ∧ chainId ≠ some ""

theorem Extracted.plain {text : List Char} {chain : String} {chainId : Option String}
    (extracted : Extracted text (chain, chainId)) : PlainChain chain chainId := by
  cases extracted with
  | whole plain => exact ⟨by rwa [String.toList_ofList], nofun⟩
  | trailingColon plain _ => exact ⟨by rwa [String.toList_ofList], nofun⟩
  | withId plain nonempty _ =>
      refine ⟨by rwa [String.toList_ofList], fun none => nonempty ?_⟩
      have same := congrArg String.toList (Option.some.inj none)
      rwa [String.toList_ofList] at same

/-- A chain is read back from its text if the first colon is the one before its id. -/
theorem extractChainId_chainText (chain : String) (chainId : Option String) :
    extractChainId (chainText chain chainId) = (chain, chainId) ↔ PlainChain chain chainId := by
  constructor
  · intro same
    have shape := extracted (chainText chain chainId)
    rw [same] at shape
    exact shape.plain
  · intro plain
    cases chainId with
    | none =>
        have text : chainText chain none = chain.toList := List.append_nil _
        rw [text, extractChainId, splitOnce_colon_none.mpr plain.1, String.ofList_toList]
    | some id =>
        have text : chainText chain (some id) = chain.toList ++ ':' :: id.toList := rfl
        rw [text, extractChainId, (splitOnce_colon id.toList).mpr plain.1]
        cases chars : id.toList with
        | nil => exact absurd (congrArg some (String.toList_inj.mp chars)) plain.2
        | cons first rest => simp [← chars]

/-! ## Labels and markers -/

def Labelled (text : List Char) : Prop := ∃ label ∈ Nip73.labels, label <+: text

instance (text : List Char) : Decidable (Labelled text) :=
  inferInstanceAs (Decidable (∃ label ∈ Nip73.labels, label <+: text))

/-- The text is not tried as a URL. -/
def Captured (text : List Char) : Prop :=
  Labelled text ∨ blockchainTx <:+: text ∨ blockchainAddr <:+: text

instance (text : List Char) : Decidable (Captured text) :=
  inferInstanceAs (Decidable (_ ∨ _ ∨ _))

theorem map_fst_labelled :
    (labelled : List (List Char × (String → ExternalContentId crate))).map Prod.fst =
      Nip73.labels := rfl

theorem labelled_prefixFree :
    PrefixFree (labelled : List (List Char × (String → ExternalContentId crate))) := by
  have apart : Nip73.labels.Pairwise fun earlier later =>
      ¬ earlier <+: later ∧ ¬ later <+: earlier := by decide
  rw [← @map_fst_labelled crate, List.pairwise_map] at apart
  exact apart

theorem findLabel_labelled {text : List Char} :
    findLabel (labelled : List (List Char × (String → ExternalContentId crate))) text = none ↔
      ¬ Labelled text := by
  rw [findLabel_eq_none, Labelled, ← @map_fst_labelled crate]
  simp only [List.mem_map, not_exists, not_and]
  constructor
  · intro apart label member
    obtain ⟨entry, present, same⟩ := member
    exact same ▸ apart entry present
  · intro apart entry present
    exact apart entry.1 ⟨entry, present, rfl⟩

theorem toText_make {label : List Char} {make : String → ExternalContentId crate}
    (member : (label, make) ∈ (labelled : List (List Char × (String → ExternalContentId crate))))
    (rest : String) : (make rest).toText = label ++ rest.toList := by
  simp only [labelled, Nip73.labels, List.zip_cons_cons, List.zip_nil_right, List.mem_cons,
    List.not_mem_nil, or_false, Prod.mk.injEq] at member
  rcases member with ⟨rfl, rfl⟩ | ⟨rfl, rfl⟩ | ⟨rfl, rfl⟩ | ⟨rfl, rfl⟩ | ⟨rfl, rfl⟩ | ⟨rfl, rfl⟩ |
    ⟨rfl, rfl⟩ | ⟨rfl, rfl⟩ <;> rfl

theorem fromStr_make {label : List Char} {make : String → ExternalContentId crate}
    (member : (label, make) ∈ (labelled : List (List Char × (String → ExternalContentId crate))))
    (rest : String) : fromStr crate (make rest).toString = .ok (make rest) := by
  rw [fromStr, toString, String.toList_ofList, toText_make member,
    findLabel_append labelled_prefixFree member]
  simp

theorem fromStr_of_unlabelled {content : String} (unlabelled : ¬ Labelled content.toList) :
    fromStr crate content = fromUnlabelled crate content := by
  rw [fromStr, findLabel_labelled.mpr unlabelled]

theorem fromMarked_eq_none {marker content : List Char}
    {make : String → String → Option String → ExternalContentId crate} :
    fromMarked marker make content = none ↔ ¬ marker <:+: content := by
  rw [fromMarked, Option.map_eq_none_iff, splitOnce_eq_none]

/-- The marker that follows the chain is the first one there. -/
def MarkedFirst (marker : List Char) (chain : String) (chainId : Option String) : Prop :=
  ¬ marker <:+: chainText chain chainId ++ marker.dropLast

theorem fromMarked_chainText_iff {marker : List Char} (nonempty : marker ≠ [])
    {make : String → String → Option String → ExternalContentId crate}
    (injective : ∀ chain rest chainId chain' rest' chainId',
      make chain rest chainId = make chain' rest' chainId' →
        chain = chain' ∧ rest = rest' ∧ chainId = chainId')
    (chain rest : String) (chainId : Option String) :
    fromMarked marker make (chainText chain chainId ++ (marker ++ rest.toList)) =
        some (make chain rest chainId) ↔
      PlainChain chain chainId ∧ MarkedFirst marker chain chainId := by
  rw [MarkedFirst, ← splitOnce_append nonempty _ rest.toList, fromMarked, Option.map_eq_some_iff]
  constructor
  · intro found
    obtain ⟨⟨before, after⟩, split, made⟩ := found
    obtain ⟨sameChain, sameRest, sameId⟩ := injective _ _ _ _ _ _ made
    have shape := eq_append_of_splitOnce split
    rw [← sameRest, String.toList_ofList] at shape
    have whole := List.append_cancel_right shape
    subst whole
    subst sameRest
    rw [String.toList_ofList] at split ⊢
    refine ⟨(extractChainId_chainText chain chainId).mp (Prod.ext sameChain sameId), split⟩
  · intro holds
    obtain ⟨plain, split⟩ := holds
    have extracted := (extractChainId_chainText chain chainId).mpr plain
    refine ⟨_, split, ?_⟩
    simp only [extracted, String.ofList_toList]

/-- A labelled text is read as one of the labelled kinds. -/
theorem fromStr_of_labelled {content : String} (begins : Labelled content.toList) :
    ∃ label make rest, (label, make) ∈ labelled ∧ content.toList = label ++ rest ∧
      fromStr crate content = .ok (make (String.ofList rest)) := by
  cases found : findLabel labelled content.toList with
  | none => exact absurd begins (findLabel_labelled.mp found)
  | some entry =>
      obtain ⟨label, member, shape⟩ := exists_of_findLabel found
      refine ⟨label, entry.1, entry.2, member, shape, ?_⟩
      rw [fromStr, found]

/-- The kinds that have a label. -/
def HasLabel : ExternalContentId crate → Prop
  | url _ | blockchainTransaction _ _ _ | blockchainAddress _ _ _ => False
  | _ => True

theorem hasLabel_make {label : List Char} {make : String → ExternalContentId crate}
    (member : (label, make) ∈ (labelled : List (List Char × (String → ExternalContentId crate))))
    (rest : String) : (make rest).HasLabel := by
  simp only [labelled, Nip73.labels, List.zip_cons_cons, List.zip_nil_right, List.mem_cons,
    List.not_mem_nil, or_false, Prod.mk.injEq] at member
  rcases member with ⟨_, rfl⟩ | ⟨_, rfl⟩ | ⟨_, rfl⟩ | ⟨_, rfl⟩ | ⟨_, rfl⟩ | ⟨_, rfl⟩ |
    ⟨_, rfl⟩ | ⟨_, rfl⟩ <;> trivial

theorem HasLabel.exists_make {id : ExternalContentId crate} (has : id.HasLabel) :
    ∃ label make rest, (label, make) ∈ labelled ∧ id = make rest := by
  cases id with
  | hashtag name => exact ⟨Nip73.hashtag, hashtag, name, by simp [labelled, Nip73.labels], rfl⟩
  | geohash hash => exact ⟨Nip73.geohash, geohash, hash, by simp [labelled, Nip73.labels], rfl⟩
  | book id => exact ⟨Nip73.book, book, id, by simp [labelled, Nip73.labels], rfl⟩
  | podcastFeed guid =>
      exact ⟨Nip73.podcastFeed, podcastFeed, guid, by simp [labelled, Nip73.labels], rfl⟩
  | podcastEpisode guid =>
      exact ⟨Nip73.podcastEpisode, podcastEpisode, guid, by simp [labelled, Nip73.labels], rfl⟩
  | podcastPublisher guid =>
      exact ⟨Nip73.podcastPublisher, podcastPublisher, guid, by simp [labelled, Nip73.labels], rfl⟩
  | movie id => exact ⟨Nip73.movie, movie, id, by simp [labelled, Nip73.labels], rfl⟩
  | paper id => exact ⟨Nip73.paper, paper, id, by simp [labelled, Nip73.labels], rfl⟩
  | url | blockchainTransaction | blockchainAddress => exact has.elim

theorem fromStr_eq_ok {content : String} {id : ExternalContentId crate} (bare : ¬ id.HasLabel) :
    fromStr crate content = .ok id ↔
      ¬ Labelled content.toList ∧ fromUnlabelled crate content = .ok id := by
  by_cases begins : Labelled content.toList
  · refine iff_of_false (fun read => ?_) fun unlabelled => unlabelled.1 begins
    obtain ⟨label, make, rest, member, _, made⟩ := @fromStr_of_labelled crate content begins
    cases made.symm.trans read
    exact bare (hasLabel_make member _)
  · rw [fromStr_of_unlabelled begins]
    exact ⟨fun read => ⟨begins, read⟩, fun read => read.2⟩

theorem fromUrl_eq_ok {content : String} {id : ExternalContentId crate} :
    fromUrl crate content = .ok id ↔
      ∃ location, id = url location ∧ crate.parse content = .ok location.serialization := by
  unfold fromUrl
  split
  next serialization parsed =>
    constructor
    · intro read
      cases read
      exact ⟨_, rfl, parsed⟩
    · intro found
      obtain ⟨⟨text, known⟩, rfl, same⟩ := found
      cases parsed.symm.trans same
      rfl
  next error failed =>
    refine iff_of_false nofun fun found => ?_
    obtain ⟨location, _, parsed⟩ := found
    cases failed.symm.trans parsed

theorem fromUnlabelled_eq_ok {content : String} {id : ExternalContentId crate} :
    fromUnlabelled crate content = .ok id ↔
      fromMarked blockchainTx blockchainTransaction content.toList = some id ∨
      ¬ blockchainTx <:+: content.toList ∧
        (fromMarked blockchainAddr blockchainAddress content.toList = some id ∨
          ¬ blockchainAddr <:+: content.toList ∧ fromUrl crate content = .ok id) := by
  have transactions := @fromMarked_eq_none crate blockchainTx content.toList blockchainTransaction
  have addresses := @fromMarked_eq_none crate blockchainAddr content.toList blockchainAddress
  unfold fromUnlabelled
  cases transaction : fromMarked blockchainTx blockchainTransaction content.toList with
  | some found =>
      have inside : blockchainTx <:+: content.toList := by
        by_contra apart
        cases transaction.symm.trans (transactions.mpr apart)
      simp [inside]
  | none =>
      have apart := transactions.mp transaction
      cases address : fromMarked blockchainAddr blockchainAddress content.toList with
      | some found =>
          have inside : blockchainAddr <:+: content.toList := by
            by_contra apart
            cases address.symm.trans (addresses.mpr apart)
          simp [apart, inside]
      | none => simp [apart, addresses.mp address]

theorem exists_of_fromMarked {marker content : List Char} {id : ExternalContentId crate}
    {make : String → String → Option String → ExternalContentId crate}
    (found : fromMarked marker make content = some id) :
    ∃ text rest, splitOnce marker content = some (text, rest) ∧
      id = make (extractChainId text).1 (String.ofList rest) (extractChainId text).2 := by
  obtain ⟨parts, split, same⟩ := Option.map_eq_some_iff.mp found
  exact ⟨parts.1, parts.2, split, same.symm⟩

/-! ## Reading back -/

/-- When an id is read back from its text: a URL is one in which no label or marker
is found, and a chain is one behind which its marker comes first. -/
def Recoverable : ExternalContentId crate → Prop
  | url location => ¬ Captured location.serialization.toList
  | blockchainTransaction chain transactionHash chainId =>
      ¬ Labelled (blockchainTransaction chain transactionHash chainId : ExternalContentId crate).toText ∧
        PlainChain chain chainId ∧ MarkedFirst blockchainTx chain chainId
  | blockchainAddress chain address chainId =>
      ¬ Labelled (blockchainAddress chain address chainId : ExternalContentId crate).toText ∧
        ¬ blockchainTx <:+: (blockchainAddress chain address chainId : ExternalContentId crate).toText ∧
        PlainChain chain chainId ∧ MarkedFirst blockchainAddr chain chainId
  | _ => True

theorem fromStr_transaction_iff (chain transactionHash : String) (chainId : Option String) :
    fromStr crate (blockchainTransaction chain transactionHash chainId :
        ExternalContentId crate).toString =
        .ok (blockchainTransaction chain transactionHash chainId) ↔
      (blockchainTransaction chain transactionHash chainId : ExternalContentId crate).Recoverable := by
  have marked := @fromMarked_chainText_iff crate blockchainTx (by decide) blockchainTransaction
    (by simp) chain transactionHash chainId
  rw [fromStr_eq_ok (by simp [HasLabel]), fromUnlabelled_eq_ok, toString, String.toList_ofList,
    Recoverable, ← marked]
  refine and_congr_right fun _ => ⟨fun read => ?_, .inl⟩
  rcases read with read | ⟨apart, _⟩
  · exact read
  · exact absurd ⟨chainText chain chainId, transactionHash.toList, by simp [toText]⟩ apart

theorem fromStr_address_iff (chain address : String) (chainId : Option String) :
    fromStr crate (blockchainAddress chain address chainId : ExternalContentId crate).toString =
        .ok (blockchainAddress chain address chainId) ↔
      (blockchainAddress chain address chainId : ExternalContentId crate).Recoverable := by
  have marked := @fromMarked_chainText_iff crate blockchainAddr (by decide) blockchainAddress
    (by simp) chain address chainId
  rw [fromStr_eq_ok (by simp [HasLabel]), fromUnlabelled_eq_ok, toString, String.toList_ofList,
    Recoverable, ← marked]
  refine and_congr_right fun _ => ⟨fun read => ?_, fun read => .inr ⟨read.1, .inl read.2⟩⟩
  rcases read with read | ⟨apart, read | ⟨absent, _⟩⟩
  · obtain ⟨text, rest, _, same⟩ := exists_of_fromMarked read
    cases same
  · exact ⟨apart, read⟩
  · exact absurd ⟨chainText chain chainId, address.toList, by simp [toText]⟩ absent

theorem fromStr_url_iff (law : crate.RoundTrips) (location : Url crate) :
    fromStr crate (url location).toString = .ok (url location) ↔ (url location).Recoverable := by
  obtain ⟨text, parsed⟩ := location.parsed
  have known := law text location.serialization parsed
  have read : fromUrl crate location.serialization = .ok (url location) :=
    fromUrl_eq_ok.mpr ⟨location, rfl, known⟩
  rw [fromStr_eq_ok (by simp [HasLabel]), fromUnlabelled_eq_ok, toString, String.toList_ofList,
    toText, String.ofList_toList, Recoverable, Captured, not_or, not_or]
  refine and_congr_right fun _ => ⟨fun found => ?_, fun apart => .inr ⟨apart.1, .inr ⟨apart.2, read⟩⟩⟩
  rcases found with found | ⟨apart, found | ⟨absent, _⟩⟩
  · obtain ⟨text, rest, _, same⟩ := exists_of_fromMarked found
    cases same
  · obtain ⟨text, rest, _, same⟩ := exists_of_fromMarked found
    cases same
  · exact ⟨apart, absent⟩

theorem HasLabel.recoverable {id : ExternalContentId crate} (has : id.HasLabel) :
    id.Recoverable := by
  cases id with
  | url | blockchainTransaction | blockchainAddress => exact has.elim
  | _ => trivial

theorem fromStr_toString_iff (law : crate.RoundTrips) (id : ExternalContentId crate) :
    fromStr crate id.toString = .ok id ↔ id.Recoverable := by
  by_cases has : id.HasLabel
  · obtain ⟨label, make, rest, member, same⟩ := has.exists_make
    refine iff_of_true ?_ has.recoverable
    rw [same]
    exact fromStr_make member rest
  · cases id with
    | url location => exact fromStr_url_iff law location
    | blockchainTransaction chain transactionHash chainId =>
        exact fromStr_transaction_iff chain transactionHash chainId
    | blockchainAddress chain address chainId => exact fromStr_address_iff chain address chainId
    | _ => exact absurd trivial has

/-! ## What is read -/

/-- Behind a chain without a colon a marker comes first. -/
theorem markedFirst_of_plain {chain : String} (rest : List Char) (plain : ':' ∉ chain.toList) :
    MarkedFirst (':' :: rest) chain none := by
  intro inside
  have text : chainText chain none = chain.toList := List.append_nil _
  rw [text] at inside
  have length := (infix_right_of_notMem plain inside).length_le
  rw [List.length_dropLast] at length
  simp at length

/-- No label goes on after its first colon as a marker does. -/
theorem labels_after_colon : ∀ label ∈ Nip73.labels, ∀ parts, splitOnce [':'] label = some parts →
    parts.2.head? ≠ some 't' ∧ parts.2.head? ≠ some 'a' := by
  have all : Nip73.labels.all fun label => (splitOnce [':'] label).all fun parts =>
      parts.2.head? ≠ some 't' && parts.2.head? ≠ some 'a' := by decide
  intro label member parts split
  have here := List.all_eq_true.mp all label member
  rw [split] at here
  simpa using here

theorem labelled_of_chain {chain tail : List Char} {first : Char} (plain : ':' ∉ chain)
    (marks : first = 't' ∨ first = 'a') (begins : Labelled (chain ++ ':' :: first :: tail))
    (other : List Char) : Labelled (chain ++ ':' :: other) := by
  obtain ⟨label, member, begins⟩ := begins
  refine ⟨label, member, ?_⟩
  have joined : ∀ after : List Char, chain ++ ':' :: after = (chain ++ [':']) ++ after := by simp
  rw [joined] at begins ⊢
  rcases List.prefix_or_prefix_of_prefix begins (List.prefix_append _ _) with short | long
  · exact short.trans (List.prefix_append _ _)
  · obtain ⟨more, shape⟩ := long
    cases more with
    | nil =>
        rw [List.append_nil] at shape
        rw [← shape]
        exact List.prefix_append _ _
    | cons second more =>
        rw [← shape, List.prefix_append_right_inj, List.cons_prefix_cons] at begins
        rw [← joined] at shape
        have split := (splitOnce_colon (second :: more)).mpr plain
        rw [shape] at split
        have apart := labels_after_colon label member _ split
        rw [List.head?_cons, begins.1] at apart
        rcases marks with rfl | rfl
        · exact absurd rfl apart.1
        · exact absurd rfl apart.2

/-- Extracting the chain keeps what a reader looks for in the text. -/
theorem extracted_recoverable {content text rest marker : List Char} {first : Char}
    (marks : first = 't' ∨ first = 'a') (unlabelled : ¬ Labelled content)
    (split : splitOnce (':' :: first :: marker) content = some (text, rest))
    {chain : String} {chainId : Option String} (extracted : Extracted text (chain, chainId)) :
    ¬ Labelled (chainText chain chainId ++ (':' :: first :: marker ++ rest)) ∧
      PlainChain chain chainId ∧ MarkedFirst (':' :: first :: marker) chain chainId ∧
      ∀ other, ':' :: other <:+: chainText chain chainId ++ (':' :: first :: marker ++ rest) →
        ':' :: other <:+: content := by
  have shape := eq_append_of_splitOnce split
  have plain := extracted.plain
  have whole : chainText chain chainId = text →
      ¬ Labelled (chainText chain chainId ++ (':' :: first :: marker ++ rest)) ∧
      PlainChain chain chainId ∧ MarkedFirst (':' :: first :: marker) chain chainId ∧
      ∀ other, ':' :: other <:+: chainText chain chainId ++ (':' :: first :: marker ++ rest) →
        ':' :: other <:+: content := by
    intro same
    rw [shape] at split
    rw [MarkedFirst, same, ← shape]
    exact ⟨unlabelled, plain, (splitOnce_append (List.cons_ne_nil _ _) text rest).mp split, fun _ inside => inside⟩
  cases extracted with
  | whole => exact whole (by simp [chainText])
  | withId _ _ made => exact whole (by simp [chainText, made])
  | @trailingColon chain apart made =>
      have text' : chainText (String.ofList chain) none = chain := by simp [chainText]
      rw [text']
      refine ⟨fun begins => unlabelled ?_, plain, markedFirst_of_plain _ plain.1, fun other inside => ?_⟩
      · have again := labelled_of_chain apart marks begins (':' :: first :: marker ++ rest)
        rwa [shape, made, List.append_assoc]
      · have later := infix_right_of_notMem apart inside
        rw [shape]
        exact later.trans (List.suffix_append text _).isInfix

theorem infix_of_splitOnce {text before after : List Char} {marker : List Char}
    (split : splitOnce marker text = some (before, after)) : marker <:+: text :=
  ⟨before, after, by rw [eq_append_of_splitOnce split, List.append_assoc]⟩

/-- What was read is read back, but for a URL whose normal form is captured. -/
theorem recoverable_of_fromStr {content : String} {id : ExternalContentId crate}
    (read : fromStr crate content = .ok id) :
    id.Recoverable ↔ Captured content.toList ∨
      ∀ serialization, crate.parse content = .ok serialization →
        ¬ Captured serialization.toList := by
  by_cases begins : Labelled content.toList
  · obtain ⟨label, make, rest, member, _, made⟩ := @fromStr_of_labelled crate content begins
    cases made.symm.trans read
    exact iff_of_true (hasLabel_make member _).recoverable (.inl (.inl begins))
  · rw [fromStr_of_unlabelled begins] at read
    rcases fromUnlabelled_eq_ok.mp read with read | ⟨apart, read | ⟨absent, read⟩⟩
    · obtain ⟨text, rest, split, rfl⟩ := exists_of_fromMarked read
      obtain ⟨unlabelled, plain, first, _⟩ :=
        extracted_recoverable (.inl rfl) begins split (extracted text)
      refine iff_of_true ⟨?_, plain, first⟩ (.inl (.inr (.inl (infix_of_splitOnce split))))
      rwa [toText, String.toList_ofList]
    · obtain ⟨text, rest, split, rfl⟩ := exists_of_fromMarked read
      obtain ⟨unlabelled, plain, first, inside⟩ :=
        extracted_recoverable (.inr rfl) begins split (extracted text)
      refine iff_of_true ⟨?_, fun earlier => apart ?_, plain, first⟩
        (.inl (.inr (.inr (infix_of_splitOnce split))))
      · rwa [toText, String.toList_ofList]
      · rw [toText, String.toList_ofList] at earlier
        exact inside _ earlier
    · obtain ⟨location, rfl, parsed⟩ := fromUrl_eq_ok.mp read
      have free : ¬ Captured content.toList := by
        rw [Captured, not_or, not_or]
        exact ⟨begins, apart, absent⟩
      constructor
      · intro clear
        refine .inr fun serialization known => ?_
        cases parsed.symm.trans known
        exact clear
      · intro clear
        exact (clear.resolve_left free) _ parsed

/-- A text that is accepted is printed as one that is read as the same again, and a
value is recovered from its printed form, exactly under these conditions. -/
theorem externalContent_recovered (law : crate.RoundTrips) :
    (∀ content (id : ExternalContentId crate), fromStr crate content = .ok id →
      (fromStr crate id.toString = .ok id ↔ Captured content.toList ∨
        ∀ serialization, crate.parse content = .ok serialization →
          ¬ Captured serialization.toList)) ∧
    ∀ id : ExternalContentId crate, fromStr crate id.toString = .ok id ↔ id.Recoverable := by
  refine ⟨fun content id read => ?_, fromStr_toString_iff law⟩
  rw [fromStr_toString_iff law, recoverable_of_fromStr read]

/-! ## Two URLs -/

/-- Two URLs in their normal forms and one that is not. -/
def sampleUrls : UrlCrate where
  parse text :=
    if text = "https://example.com/" ∨ text = "https://example.com/a:tx:b" ∨ text = "isbn:1" then
      .ok text
    else if text = "ISBN:1" then .ok "isbn:1"
    else .error "relative URL without a base"
  scheme url := String.ofList (url.toList.takeWhile (· ≠ ':'))

theorem sampleUrls_roundTrips : sampleUrls.RoundTrips := by
  intro text url parsed
  simp only [sampleUrls] at parsed ⊢
  split at parsed
  next known =>
    cases parsed
    rw [if_pos known]
  next =>
    split at parsed
    next =>
      cases parsed
      simp
    next => cases parsed

def sampleUrl : Url sampleUrls := ⟨"https://example.com/", "https://example.com/", rfl⟩

def transactionUrl : Url sampleUrls :=
  ⟨"https://example.com/a:tx:b", "https://example.com/a:tx:b", rfl⟩

theorem externalContent_recovered_url :
    fromStr sampleUrls (url sampleUrl).toString = .ok (url sampleUrl) ∧
    fromStr sampleUrls (blockchainTransaction "ethereum" "0x98" (some "100") :
      ExternalContentId sampleUrls).toString =
        .ok (blockchainTransaction "ethereum" "0x98" (some "100")) := by
  have recovered := (externalContent_recovered sampleUrls_roundTrips).2
  refine ⟨(recovered _).mpr ?_, (recovered _).mpr ?_⟩
  · have clear : ¬ Captured "https://example.com/".toList := by decide
    exact clear
  · refine ⟨by decide, ⟨by decide, by decide⟩, ?_⟩
    have first : ¬ blockchainTx <:+: chainText "ethereum" (some "100") ++ blockchainTx.dropLast := by
      decide
    exact first

/-- A URL with a marker in its path, and a URL whose scheme is a label. -/
theorem externalContent_captured :
    fromStr sampleUrls (url transactionUrl).toString =
      .ok (blockchainTransaction "https" "b" (some "//example.com/a")) ∧
    (∃ location, fromStr sampleUrls "ISBN:1" = .ok (url location) ∧
      fromStr sampleUrls (url location).toString = .ok (book "1")) ∧
    ¬ ∀ id : ExternalContentId sampleUrls, fromStr sampleUrls id.toString = .ok id := by
  have captured : fromStr sampleUrls (url transactionUrl).toString =
      .ok (blockchainTransaction "https" "b" (some "//example.com/a")) := by decide +kernel
  refine ⟨captured, ⟨⟨"isbn:1", "ISBN:1", rfl⟩, by decide +kernel, by decide +kernel⟩, ?_⟩
  intro recovered
  cases captured.symm.trans (recovered (url transactionUrl))

end ExternalContentId

end RustNostr
