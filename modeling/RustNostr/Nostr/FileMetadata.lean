import Mathlib
import RustNostr.Library.FirstWins
import RustNostr.Nostr.TagValues

/-!
# File metadata

The tags of a file's metadata, written and read (`nostr/src/nips/nip94.rs`).
-/

set_option autoImplicit false

namespace RustNostr

open Library

abbrev Sha256Hash := FixedBytes 32

def Sha256Hash.fromStr (externals : Externals) (text : String) : Except Error Sha256Hash :=
  match externals.hexDecode text with
  | some hash => .ok hash
  | none => .error .invalidHex

structure ImageDimensions where
  width : UInt64
  height : UInt64
  deriving DecidableEq

namespace ImageDimensions

def toString (dim : ImageDimensions) : String :=
  String.ofList (Nat.toDigits 10 dim.width.toNat ++ 'x' :: Nat.toDigits 10 dim.height.toNat)

/-- What follows a second `x` is ignored. -/
def fromStr (text : String) : Except Error ImageDimensions :=
  match text.toList.splitOn 'x' with
  | width :: height :: _ => do
      let width ← parseU64 (String.ofList width)
      let height ← parseU64 (String.ofList height)
      .ok { width, height }
  | _ => .error ⟨.malformed, "invalid dimensions"⟩

end ImageDimensions

namespace Error

def missingUrl : Error := ⟨.missing, "missing url"⟩

def missingMimeType : Error := ⟨.missing, "missing mime type"⟩

def missingSha : Error := ⟨.missing, "missing file sha256"⟩

end Error

inductive Nip94Tag (crate : UrlCrate) where
  | url (url : Url crate)
  | mimeType (value : String)
  | sha256 (hash : Sha256Hash)
  | originalHash (hash : Sha256Hash)
  | size (size : UInt64)
  | dim (dim : ImageDimensions)
  | magnet (uri : String)
  | torrentInfohash (infohash : String)
  | blurhash (blurhash : String)
  | thumb (url : Url crate) (hash : Option Sha256Hash)
  | image (url : Url crate) (hash : Option Sha256Hash)
  | summary (summary : String)
  | alt (alt : String)
  | fallback (url : Url crate)
  | service (service : String)

variable {crate : UrlCrate} (externals : Externals)

namespace Nip94Tag

def parseThumbOrImageTag (missing : String) (values : List String) :
    Except Error (Url crate × Option Sha256Hash) := do
  let (location, values) ← takeAndParse (Url.parse crate) missing values
  let (hash, _) ← takeAndParseOptional (Sha256Hash.fromStr externals) values
  .ok (location, hash)

def parse (tag : List String) : Except Error (Nip94Tag crate) :=
  match tag with
  | [] => .error .missingTagKind
  | "url" :: values => (takeAndParse (Url.parse crate) "URL" values).map fun (value, _) => url value
  | "m" :: values => (takeString "mime type" values).map fun (value, _) => mimeType value
  | "x" :: values => (takeAndParse (Sha256Hash.fromStr externals) "sha256" values).map fun (hash, _) => sha256 hash
  | "ox" :: values =>
      (takeAndParse (Sha256Hash.fromStr externals) "original hash" values).map fun (hash, _) => originalHash hash
  | "size" :: values => (takeAndParse parseU64 "size" values).map fun (value, _) => size value
  | "dim" :: values => (takeAndParse ImageDimensions.fromStr "dimensions" values).map fun (value, _) => dim value
  | "magnet" :: values => (takeString "magnet link" values).map fun (value, _) => magnet value
  | "i" :: values => (takeString "infohash" values).map fun (value, _) => torrentInfohash value
  | "blurhash" :: values => (takeString "blurhash" values).map fun (value, _) => blurhash value
  | "thumb" :: values =>
      (parseThumbOrImageTag externals "thumb URL" values).map fun (location, hash) => thumb location hash
  | "image" :: values =>
      (parseThumbOrImageTag externals "image URL" values).map fun (location, hash) => image location hash
  | "summary" :: values => (takeString "summary" values).map fun (value, _) => summary value
  | "alt" :: values => (takeString "alt" values).map fun (value, _) => alt value
  | "fallback" :: values =>
      (takeAndParse (Url.parse crate) "fallback URL" values).map fun (value, _) => fallback value
  | "service" :: values => (takeString "service name" values).map fun (value, _) => service value
  | _ => .error .unknownTag

def hashText (hash : Sha256Hash) : String := externals.hexEncode hash.val

def urlAndHash (location : Url crate) (hash : Option Sha256Hash) : List String :=
  location.serialization :: (hash.map (hashText externals)).toList

def kindAndValues : Nip94Tag crate → String × List String
  | url value => ("url", [value.serialization])
  | mimeType value => ("m", [value])
  | sha256 hash => ("x", [hashText externals hash])
  | originalHash hash => ("ox", [hashText externals hash])
  | size value => ("size", [toString value.toNat])
  | dim value => ("dim", [value.toString])
  | magnet value => ("magnet", [value])
  | torrentInfohash value => ("i", [value])
  | blurhash value => ("blurhash", [value])
  | thumb location hash => ("thumb", urlAndHash externals location hash)
  | image location hash => ("image", urlAndHash externals location hash)
  | summary value => ("summary", [value])
  | alt value => ("alt", [value])
  | fallback value => ("fallback", [value.serialization])
  | service value => ("service", [value])

def toTag (tag : Nip94Tag crate) : Tag :=
  ⟨(kindAndValues externals tag).1 :: (kindAndValues externals tag).2, List.cons_ne_nil _ _⟩

end Nip94Tag

/-! ## The metadata -/

structure FileDetails (crate : UrlCrate) where
  originalHash : Option Sha256Hash := none
  size : Option UInt64 := none
  dim : Option ImageDimensions := none
  magnet : Option String := none
  torrentInfohash : Option String := none
  blurhash : Option String := none
  thumb : Option (Url crate) := none
  thumbHash : Option Sha256Hash := none
  image : Option (Url crate) := none
  imageHash : Option Sha256Hash := none
  summary : Option String := none
  alt : Option String := none
  fallback : List (Url crate) := []
  service : Option String := none

structure FileMetadata (crate : UrlCrate) extends FileDetails crate where
  url : Url crate
  mimeType : String
  hash : Sha256Hash

/-- What has been read of the tags so far. -/
structure FoundMetadata (crate : UrlCrate) extends FileDetails crate where
  url : Option (Url crate) := none
  mimeType : Option String := none
  hash : Option Sha256Hash := none

namespace FoundMetadata

/-- Of each field the first value is kept; the two values of a thumbnail or of an image
are fields of their own. -/
def add (found : FoundMetadata crate) : Nip94Tag crate → FoundMetadata crate
  | .url value => { found with url := found.url.or (some value) }
  | .mimeType value => { found with mimeType := found.mimeType.or (some value) }
  | .sha256 value => { found with hash := found.hash.or (some value) }
  | .originalHash value => { found with originalHash := found.originalHash.or (some value) }
  | .size value => { found with size := found.size.or (some value) }
  | .dim value => { found with dim := found.dim.or (some value) }
  | .magnet value => { found with magnet := found.magnet.or (some value) }
  | .torrentInfohash value => { found with torrentInfohash := found.torrentInfohash.or (some value) }
  | .blurhash value => { found with blurhash := found.blurhash.or (some value) }
  | .thumb url hash => { found with thumb := found.thumb.or (some url), thumbHash := found.thumbHash.or hash }
  | .image url hash => { found with image := found.image.or (some url), imageHash := found.imageHash.or hash }
  | .summary value => { found with summary := found.summary.or (some value) }
  | .alt value => { found with alt := found.alt.or (some value) }
  | .fallback value => { found with fallback := found.fallback ++ [value] }
  | .service value => { found with service := found.service.or (some value) }

def finish (found : FoundMetadata crate) : Except Error (FileMetadata crate) :=
  match found.url with
  | none => .error .missingUrl
  | some url =>
      match found.mimeType with
      | none => .error .missingMimeType
      | some mimeType =>
          match found.hash with
          | none => .error .missingSha
          | some hash => .ok { toFileDetails := found.toFileDetails, url, mimeType, hash }

end FoundMetadata

namespace FileMetadata

def fieldTags (metadata : FileMetadata crate) : List (Nip94Tag crate) :=
  List.flatten [
    [.url metadata.url, .mimeType metadata.mimeType, .sha256 metadata.hash],
    (metadata.originalHash.map .originalHash).toList,
    (metadata.size.map .size).toList,
    (metadata.dim.map .dim).toList,
    (metadata.magnet.map .magnet).toList,
    (metadata.torrentInfohash.map .torrentInfohash).toList,
    (metadata.blurhash.map .blurhash).toList,
    (metadata.thumb.map fun url => .thumb url metadata.thumbHash).toList,
    (metadata.image.map fun url => .image url metadata.imageHash).toList,
    (metadata.summary.map .summary).toList,
    (metadata.alt.map .alt).toList,
    metadata.fallback.map .fallback,
    (metadata.service.map .service).toList]

/-- `From<FileMetadata> for Vec<Tag>` -/
def toTags (metadata : FileMetadata crate) : List Tag := metadata.fieldTags.map (Nip94Tag.toTag externals)

def readTags (tags : List Tag) : List (Nip94Tag crate) :=
  tags.filterMap fun tag => (Nip94Tag.parse externals tag.buf).toOption

/-- `TryFrom<Vec<Tag>>` -/
def tryFrom (tags : List Tag) : Except Error (FileMetadata crate) :=
  ((readTags externals tags).foldl FoundMetadata.add {}).finish

def found (metadata : FileMetadata crate) : FoundMetadata crate where
  toFileDetails := metadata.toFileDetails
  url := some metadata.url
  mimeType := some metadata.mimeType
  hash := some metadata.hash

end FileMetadata

/-! ## What is written is read -/

variable {externals}

theorem ImageDimensions.fromStr_toString (dim : ImageDimensions) : fromStr dim.toString = .ok dim := by
  have digits (number : Nat) : 'x' ∉ Nat.toDigits 10 number := notMem_toDigits rfl number
  have number (number : UInt64) : parseU64 (String.ofList (Nat.toDigits 10 number.toNat)) = .ok number := by
    rw [parseU64, String.toList_ofList, parseUnsigned_toDigits number.toNat_lt]
    simp
  have split : dim.toString.toList.splitOn 'x' =
      [Nat.toDigits 10 dim.width.toNat, Nat.toDigits 10 dim.height.toNat] := by
    rw [toString, String.toList_ofList, List.splitOn_append_cons_self_of_not_mem (digits _),
      List.splitOn_eq_singleton (digits _)]
  rw [fromStr, split]
  simp only [number]
  rfl

theorem Sha256Hash.fromStr_hashText (codec : HexCodec externals) (hash : Sha256Hash) :
    fromStr externals (Nip94Tag.hashText externals hash) = .ok hash := by
  rw [fromStr, Nip94Tag.hashText, codec.encode, codec.decode]

namespace Nip94Tag

theorem hashText_ne_empty (codec : HexCodec externals) (hash : Sha256Hash) : hashText externals hash ≠ "" :=
  codec.hexEncode_ne_empty (List.ne_nil_of_length_eq_add_one hash.property)

theorem parseThumbOrImageTag_urlAndHash (codec : HexCodec externals) (law : crate.RoundTrips) (missing : String)
    (location : Url crate) (hash : Option Sha256Hash) :
    parseThumbOrImageTag externals missing (urlAndHash externals location hash) = .ok (location, hash) := by
  have back := takeAndParseOptional_of_ok (Sha256Hash.fromStr_hashText codec) (hashText_ne_empty codec) hash
  simp only [parseThumbOrImageTag, urlAndHash, takeAndParse, Url.parse_serialization law, bind, Except.bind, back]

theorem parse_toTag (codec : HexCodec externals) (law : crate.RoundTrips) (tag : Nip94Tag crate) :
    parse externals (tag.toTag externals).buf = .ok tag := by
  have url {missing : String} (location : Url crate) : takeAndParse (Url.parse crate) missing
      [location.serialization] = .ok (location, []) := takeAndParse_of_ok (Url.parse_serialization law location)
  have hash {missing : String} (hash : Sha256Hash) : takeAndParse (Sha256Hash.fromStr externals) missing
      [hashText externals hash] = .ok (hash, []) := takeAndParse_of_ok (Sha256Hash.fromStr_hashText codec hash)
  cases tag with
  | url location => simp only [toTag, kindAndValues, parse, url, Except.map]
  | mimeType value => rfl
  | sha256 value => simp only [toTag, kindAndValues, parse, hash, Except.map]
  | originalHash value => simp only [toTag, kindAndValues, parse, hash, Except.map]
  | size value => simp only [toTag, kindAndValues, parse, takeAndParse_of_ok (parseU64_toString value), Except.map]
  | dim value =>
      simp only [toTag, kindAndValues, parse, takeAndParse_of_ok (ImageDimensions.fromStr_toString value), Except.map]
  | magnet value => rfl
  | torrentInfohash value => rfl
  | blurhash value => rfl
  | thumb location hash =>
      simp only [toTag, kindAndValues, parse, parseThumbOrImageTag_urlAndHash codec law, Except.map]
  | image location hash =>
      simp only [toTag, kindAndValues, parse, parseThumbOrImageTag_urlAndHash codec law, Except.map]
  | summary value => rfl
  | alt value => rfl
  | fallback location => simp only [toTag, kindAndValues, parse, url, Except.map]
  | service value => rfl

end Nip94Tag

namespace FoundMetadata

def merge (first second : FoundMetadata crate) : FoundMetadata crate where
  url := first.url.or second.url
  mimeType := first.mimeType.or second.mimeType
  hash := first.hash.or second.hash
  originalHash := first.originalHash.or second.originalHash
  size := first.size.or second.size
  dim := first.dim.or second.dim
  magnet := first.magnet.or second.magnet
  torrentInfohash := first.torrentInfohash.or second.torrentInfohash
  blurhash := first.blurhash.or second.blurhash
  thumb := first.thumb.or second.thumb
  thumbHash := first.thumbHash.or second.thumbHash
  image := first.image.or second.image
  imageHash := first.imageHash.or second.imageHash
  summary := first.summary.or second.summary
  alt := first.alt.or second.alt
  fallback := first.fallback ++ second.fallback
  service := first.service.or second.service

theorem add_eq_merge (found : FoundMetadata crate) (tag : Nip94Tag crate) :
    found.add tag = found.merge (add {} tag) := by
  cases tag <;> simp [add, merge]

theorem merge_assoc (first second third : FoundMetadata crate) :
    (first.merge second).merge third = first.merge (second.merge third) := by
  simp only [merge, Option.or_assoc, List.append_assoc]

theorem foldl_add (found : FoundMetadata crate) (tags : List (Nip94Tag crate)) :
    tags.foldl add found = found.merge (tags.foldl add {}) := by
  induction tags generalizing found with
  | nil => simp [merge]
  | cons tag tags ih =>
      rw [List.foldl_cons, List.foldl_cons, ih, ih (add {} tag), add_eq_merge, merge_assoc]

theorem foldl_append (front back : List (Nip94Tag crate)) :
    (front ++ back).foldl add {} = (front.foldl add {}).merge (back.foldl add {}) := by
  rw [List.foldl_append, foldl_add]

theorem foldl_optional {α : Type} (make : α → Nip94Tag crate) (set : Option α → FoundMetadata crate)
    (kept : set none = {}) (taken : ∀ value, add {} (make value) = set (some value)) (value : Option α) :
    (value.map make).toList.foldl add {} = set value := by
  cases value with
  | none => rw [kept]; rfl
  | some value => exact taken value

theorem foldl_fallback (urls : List (Url crate)) : (urls.map .fallback).foldl add {} = { fallback := urls } := by
  induction urls with
  | nil => rfl
  | cons url urls ih =>
      rw [List.map_cons, List.foldl_cons, foldl_add, ih]
      rfl

theorem finish_eq_ok {found : FoundMetadata crate} {metadata : FileMetadata crate} :
    found.finish = .ok metadata ↔ found = metadata.found := by
  obtain ⟨details, url, mimeType, hash⟩ := found
  cases url with
  | none => simp [finish, FileMetadata.found]
  | some url =>
      cases mimeType with
      | none => simp [finish, FileMetadata.found]
      | some mimeType =>
          cases hash with
          | none => simp [finish, FileMetadata.found]
          | some hash =>
              simp only [finish, Except.ok.injEq, FileMetadata.found]
              constructor
              · intro same
                rw [← same]
              · intro same
                cases same
                rfl

end FoundMetadata

namespace FileMetadata

open FoundMetadata

/-- A hash is there only together with its URL. -/
structure Paired (metadata : FileMetadata crate) : Prop where
  thumb : metadata.thumb = none → metadata.thumbHash = none
  image : metadata.image = none → metadata.imageHash = none

theorem foldl_fieldTags (metadata : FileMetadata crate) (paired : metadata.Paired) :
    (metadata.fieldTags.foldl add {}) = metadata.found := by
  have thumb : metadata.thumb.bind (fun _ => metadata.thumbHash) = metadata.thumbHash := by
    cases there : metadata.thumb with
    | none => exact (paired.thumb there).symm
    | some url => rfl
  have image : metadata.image.bind (fun _ => metadata.imageHash) = metadata.imageHash := by
    cases there : metadata.image with
    | none => exact (paired.image there).symm
    | some url => rfl
  simp only [fieldTags, List.flatten_cons, List.flatten_nil, foldl_append, foldl_fallback]
  rw [foldl_optional .originalHash (fun originalHash => { originalHash }) rfl fun _ => rfl,
    foldl_optional .size (fun size => { size }) rfl fun _ => rfl,
    foldl_optional .dim (fun dim => { dim }) rfl fun _ => rfl,
    foldl_optional .magnet (fun magnet => { magnet }) rfl fun _ => rfl,
    foldl_optional .torrentInfohash (fun torrentInfohash => { torrentInfohash }) rfl fun _ => rfl,
    foldl_optional .blurhash (fun blurhash => { blurhash }) rfl fun _ => rfl,
    foldl_optional (.thumb · metadata.thumbHash)
      (fun thumb => { thumb, thumbHash := thumb.bind fun _ => metadata.thumbHash }) rfl fun _ => rfl,
    foldl_optional (.image · metadata.imageHash)
      (fun image => { image, imageHash := image.bind fun _ => metadata.imageHash }) rfl fun _ => rfl,
    foldl_optional .summary (fun summary => { summary }) rfl fun _ => rfl,
    foldl_optional .alt (fun alt => { alt }) rfl fun _ => rfl,
    foldl_optional .service (fun service => { service }) rfl fun _ => rfl, thumb, image]
  simp [add, merge, found]

theorem readTags_toTag (codec : HexCodec externals) (law : crate.RoundTrips) (tags : List (Nip94Tag crate)) :
    readTags externals (tags.map (Nip94Tag.toTag externals)) = tags := by
  simp only [readTags, List.filterMap_map, Function.comp_def, Nip94Tag.parse_toTag codec law, Except.toOption,
    List.filterMap_some]

theorem tryFrom_toTags (codec : HexCodec externals) (law : crate.RoundTrips) {metadata : FileMetadata crate}
    (paired : metadata.Paired) : tryFrom externals (metadata.toTags externals) = .ok metadata := by
  rw [tryFrom, toTags, readTags_toTag codec law, finish_eq_ok]
  exact foldl_fieldTags metadata paired

end FileMetadata

/-! ## Where the hashes come from -/

namespace Nip94Tag

def thumbPair : Nip94Tag crate → Option (Url crate × Option Sha256Hash)
  | thumb location hash => some (location, hash)
  | _ => none

def imagePair : Nip94Tag crate → Option (Url crate × Option Sha256Hash)
  | image location hash => some (location, hash)
  | _ => none

end Nip94Tag

/-- A hash that was read is of the tag that the URL was read of, the first of its kind. -/
def OfFirst (pairs : List (Url crate × Option Sha256Hash)) (url : Option (Url crate))
    (hash : Option Sha256Hash) : Prop :=
  ∀ value, hash = some value → ∃ location, url = some location ∧ pairs.head? = some (location, some value)

/-- The first has a hash, or none has. -/
def FirstHasHash (pairs : List (Url crate × Option Sha256Hash)) : Prop :=
  ∀ pair, pairs.head? = some pair → pair.2 = none → ∀ other ∈ pairs, other.2 = none

namespace FileMetadata

open FoundMetadata

variable (externals) in
def thumbs (tags : List Tag) : List (Url crate × Option Sha256Hash) :=
  (readTags externals tags).filterMap Nip94Tag.thumbPair

variable (externals) in
def images (tags : List Tag) : List (Url crate × Option Sha256Hash) :=
  (readTags externals tags).filterMap Nip94Tag.imagePair

variable (externals) in
structure HashesTogether (tags : List Tag) (metadata : FileMetadata crate) : Prop where
  thumb : OfFirst (thumbs externals tags) metadata.thumb metadata.thumbHash
  image : OfFirst (images externals tags) metadata.image metadata.imageHash

/-- The two fields of a pair, each the first of its own. -/
theorem ofFirst_iff (tags : List (Nip94Tag crate)) {pair : Nip94Tag crate → Option (Url crate × Option Sha256Hash)}
    {url : FoundMetadata crate → Option (Url crate)} {hash : FoundMetadata crate → Option Sha256Hash}
    (firstUrl : ∀ found tag, url (add found tag) = (url found).or ((pair tag).bind (some ∘ Prod.fst)))
    (firstHash : ∀ found tag, hash (add found tag) = (hash found).or ((pair tag).bind Prod.snd))
    (noUrl : url {} = none) (noHash : hash {} = none) :
    OfFirst (tags.filterMap pair) (url (tags.foldl add {})) (hash (tags.foldl add {})) ↔
      FirstHasHash (tags.filterMap pair) := by
  rw [foldl_firstWins firstUrl, foldl_firstWins firstHash, noUrl, noHash, Option.none_or, Option.none_or,
    ← findSome?_filterMap, ← findSome?_filterMap]
  exact secondOfFirst_iff _

theorem hashesTogether_iff {tags : List Tag} {metadata : FileMetadata crate}
    (accepted : tryFrom externals tags = .ok metadata) :
    HashesTogether externals tags metadata ↔
      FirstHasHash (thumbs externals tags : List (Url crate × Option Sha256Hash)) ∧
      FirstHasHash (images externals tags : List (Url crate × Option Sha256Hash)) := by
  have found := finish_eq_ok.mp accepted
  have thumb := @ofFirst_iff crate (readTags externals tags) Nip94Tag.thumbPair (·.thumb) (·.thumbHash)
    (fun found tag => by cases tag <;> simp [add, Nip94Tag.thumbPair])
    (fun found tag => by cases tag <;> simp [add, Nip94Tag.thumbPair]) rfl rfl
  have image := @ofFirst_iff crate (readTags externals tags) Nip94Tag.imagePair (·.image) (·.imageHash)
    (fun found tag => by cases tag <;> simp [add, Nip94Tag.imagePair])
    (fun found tag => by cases tag <;> simp [add, Nip94Tag.imagePair]) rfl rfl
  rw [found] at thumb image
  constructor
  · intro together
    exact ⟨thumb.mp together.thumb, image.mp together.image⟩
  · intro first
    exact ⟨thumb.mpr first.1, image.mpr first.2⟩

theorem tryFrom_codec_iff (codec : HexCodec externals) (law : crate.RoundTrips) :
    (∀ metadata : FileMetadata crate, metadata.Paired →
      tryFrom externals (metadata.toTags externals) = .ok metadata) ∧
    ∀ (tags : List Tag) (metadata : FileMetadata crate), tryFrom externals tags = .ok metadata →
      (HashesTogether externals tags metadata ↔
        FirstHasHash (thumbs externals tags : List (Url crate × Option Sha256Hash)) ∧
        FirstHasHash (images externals tags : List (Url crate × Option Sha256Hash))) :=
  ⟨fun _ paired => tryFrom_toTags codec law paired, fun _ _ accepted => hashesTogether_iff accepted⟩

/-! ## A thumbnail with a hash, and the hash of another one -/

open ExternalContentId (sampleUrls sampleUrls_roundTrips sampleUrl transactionUrl)

def sampleMetadata : FileMetadata sampleUrls where
  url := sampleUrl
  mimeType := "image/png"
  hash := .replicate 32 0
  size := some 5
  dim := some { width := 640, height := 480 }
  thumb := some transactionUrl
  thumbHash := some (.replicate 32 1)
  fallback := [sampleUrl]

theorem tryFrom_codec_thumb :
    tryFrom hexExternals (sampleMetadata.toTags hexExternals) = .ok sampleMetadata ∧
    HashesTogether hexExternals (sampleMetadata.toTags hexExternals) sampleMetadata := by
  have codec := @tryFrom_codec_iff sampleUrls hexExternals hexExternals_hexCodec sampleUrls_roundTrips
  have paired : sampleMetadata.Paired := {
    thumb := fun absent => by cases absent
    image := fun _ => rfl }
  have back := codec.1 sampleMetadata paired
  have read : readTags hexExternals (sampleMetadata.toTags hexExternals) = sampleMetadata.fieldTags :=
    readTags_toTag hexExternals_hexCodec sampleUrls_roundTrips _
  refine ⟨back, (codec.2 _ sampleMetadata back).mpr ?_⟩
  rw [thumbs, images, read]
  constructor
  · intro pair head bare
    cases head
    cases bare
  · intro pair head
    cases head

/-- A thumbnail without a hash before another one that has one. -/
def twoThumbs : List (Nip94Tag sampleUrls) :=
  [.url sampleUrl, .mimeType "image/png", .sha256 (.replicate 32 0), .thumb sampleUrl none,
    .thumb transactionUrl (some (.replicate 32 1))]

def twoThumbsRead : FileMetadata sampleUrls where
  url := sampleUrl
  mimeType := "image/png"
  hash := .replicate 32 0
  thumb := some sampleUrl
  thumbHash := some (.replicate 32 1)

theorem tryFrom_twoThumbs :
    tryFrom hexExternals (twoThumbs.map (Nip94Tag.toTag hexExternals)) = .ok twoThumbsRead ∧
    ¬ HashesTogether hexExternals (twoThumbs.map (Nip94Tag.toTag hexExternals)) twoThumbsRead := by
  have read : readTags hexExternals (twoThumbs.map (Nip94Tag.toTag hexExternals)) = twoThumbs :=
    readTags_toTag hexExternals_hexCodec sampleUrls_roundTrips _
  constructor
  · rw [tryFrom, read]
    rfl
  · intro together
    obtain ⟨location, first, same⟩ := together.thumb _ rfl
    rw [thumbs, read] at same
    cases same

end FileMetadata

end RustNostr
