import Mathlib
import RustNostr.Nostr.ExternalKind
import RustNostr.Nostr.TagValues

/-!
# Comments

Comments on events and on other content (`nostr/src/nips/nip22.rs`), with the tags they
share with other kinds of events (`nostr/src/nips/nip01/tags.rs`, `nostr/src/nips/nip73.rs`).
-/

set_option autoImplicit false

namespace RustNostr

variable {crate : UrlCrate} (externals : Externals)

namespace Nip01Tag

def parseATag (crate : UrlCrate) (values : List String) :
    Except Error (Coordinate × Option (FullRelayUrl crate)) := do
  let (coordinate, values) ← takeCoordinate externals values
  let (relayHint, _) ← takeAndParseOptionalRelayUrl crate values
  .ok (coordinate, relayHint)

def serializeATag (coordinate : Coordinate) (relayHint : Option (FullRelayUrl crate)) : Tag :=
  ⟨"a" :: coordinate.display externals :: (relayHint.map FullRelayUrl.asStr).toList, List.cons_ne_nil _ _⟩

def parseETag (crate : UrlCrate) (values : List String) :
    Except Error (EventId × Option (FullRelayUrl crate) × Option PublicKey) := do
  let (id, values) ← takeEventId externals values
  let (relayHint, values) ← takeAndParseOptionalRelayUrl crate values
  let (publicKey, _) ← takeAndParseOptionalPublicKey externals values
  .ok (id, relayHint, publicKey)

/-- A public key without a relay stands after an empty value. -/
def hintValues (relayHint : Option (FullRelayUrl crate)) (publicKey : Option PublicKey) : List String :=
  (match relayHint with
    | some relayHint => [relayHint.asStr]
    | none => if publicKey.isSome then [""] else []) ++
    (publicKey.map (PublicKey.toHex externals)).toList

def serializeETag (id : EventId) (relayHint : Option (FullRelayUrl crate)) (publicKey : Option PublicKey) : Tag :=
  ⟨"e" :: externals.hexEncode id.val :: hintValues externals relayHint publicKey, List.cons_ne_nil _ _⟩

def parsePTag (crate : UrlCrate) (values : List String) :
    Except Error (PublicKey × Option (FullRelayUrl crate)) := do
  let (publicKey, values) ← takePublicKey externals values
  let (relayHint, _) ← takeAndParseOptionalRelayUrl crate values
  .ok (publicKey, relayHint)

def serializePTag (publicKey : PublicKey) (relayHint : Option (FullRelayUrl crate)) : Tag :=
  ⟨"p" :: publicKey.toHex externals :: (relayHint.map FullRelayUrl.asStr).toList, List.cons_ne_nil _ _⟩

end Nip01Tag

namespace Nip73

def parseITag (crate : UrlCrate) (values : List String) :
    Except Error (ExternalContentId crate × Option (Url crate)) := do
  let (content, values) ← takeAndParse
    (fun text => (ExternalContentId.fromStr crate text).mapError fun error => ⟨.malformed, error.message⟩)
    "content" values
  let (hint, _) ← takeAndParseOptional (Url.parse crate) values
  .ok (content, hint)

def serializeITag (content : ExternalContentId crate) (hint : Option (Url crate)) : Tag :=
  ⟨"i" :: content.toString :: (hint.map Url.serialization).toList, List.cons_ne_nil _ _⟩

def serializeKTag (kind : Nip73Kind) : Tag := ⟨["k", kind.display], List.cons_ne_nil _ _⟩

end Nip73

/-! ## Tags -/

inductive Nip22Tag (crate : UrlCrate) where
  | coordinate (coordinate : Coordinate) (relayHint : Option (FullRelayUrl crate)) (uppercase : Bool)
  | event (id : EventId) (relayHint : Option (FullRelayUrl crate)) (publicKey : Option PublicKey) (uppercase : Bool)
  | externalContent (content : ExternalContentId crate) (hint : Option (Url crate)) (uppercase : Bool)
  | kind (kind : Kind) (uppercase : Bool)
  | nip73Kind (kind : Nip73Kind) (uppercase : Bool)
  | publicKey (publicKey : PublicKey) (relayHint : Option (FullRelayUrl crate)) (uppercase : Bool)

/-- `str::to_ascii_uppercase` -/
def toAsciiUppercase (text : String) : String := String.ofList (text.toList.map Char.toUpper)

def Tag.maybeUppercase (tag : Tag) (uppercase : Bool) : Tag :=
  if uppercase then ⟨toAsciiUppercase tag.kind :: tag.buf.tail, List.cons_ne_nil _ _⟩ else tag

namespace Nip22Tag

def parseATag (values : List String) (uppercase : Bool) : Except Error (Nip22Tag crate) :=
  (Nip01Tag.parseATag externals crate values).map fun (address, relayHint) => coordinate address relayHint uppercase

def parseETag (values : List String) (uppercase : Bool) : Except Error (Nip22Tag crate) :=
  (Nip01Tag.parseETag externals crate values).map fun (id, relayHint, key) => event id relayHint key uppercase

def parseITag (values : List String) (uppercase : Bool) : Except Error (Nip22Tag crate) :=
  (Nip73.parseITag crate values).map fun (content, hint) => externalContent content hint uppercase

def parseKTag (values : List String) (uppercase : Bool) : Except Error (Nip22Tag crate) :=
  match values with
  | [] => .error ⟨.missing, "kind"⟩
  | text :: _ =>
      match parseUnsigned 65536 text.toList with
      | some number => .ok (kind (.fromU16 (.ofNat number)) uppercase)
      | none => (Nip73Kind.fromStr text).map fun named => nip73Kind named uppercase

def parsePTag (values : List String) (uppercase : Bool) : Except Error (Nip22Tag crate) :=
  (Nip01Tag.parsePTag externals crate values).map fun (key, relayHint) => publicKey key relayHint uppercase

def parse (tag : List String) : Except Error (Nip22Tag crate) :=
  match tag with
  | [] => .error .missingTagKind
  | "a" :: values => parseATag externals values false
  | "A" :: values => parseATag externals values true
  | "e" :: values => parseETag externals values false
  | "E" :: values => parseETag externals values true
  | "i" :: values => parseITag values false
  | "I" :: values => parseITag values true
  | "k" :: values => parseKTag values false
  | "K" :: values => parseKTag values true
  | "p" :: values => parsePTag externals values false
  | "P" :: values => parsePTag externals values true
  | _ => .error .unknownTag

def toTag : Nip22Tag crate → Tag
  | coordinate address relayHint uppercase => (Nip01Tag.serializeATag externals address relayHint).maybeUppercase uppercase
  | event id relayHint key uppercase => (Nip01Tag.serializeETag externals id relayHint key).maybeUppercase uppercase
  | externalContent content hint uppercase => (Nip73.serializeITag content hint).maybeUppercase uppercase
  | kind number uppercase => ⟨[if uppercase then "K" else "k", toString number.asU16.toNat], List.cons_ne_nil _ _⟩
  | nip73Kind named uppercase => (Nip73.serializeKTag named).maybeUppercase uppercase
  | publicKey key relayHint uppercase => (Nip01Tag.serializePTag externals key relayHint).maybeUppercase uppercase

end Nip22Tag

/-! ## Targets -/

inductive CommentTarget (crate : UrlCrate) where
  | event (id : EventId) (relayHint : Option (FullRelayUrl crate)) (pubkeyHint : Option PublicKey)
      (kind : Option Kind)
  | coordinate (address : Coordinate) (relayHint : Option (FullRelayUrl crate))
  | external (content : ExternalContentId crate) (hint : Option (Url crate))

namespace CommentTarget

/-- The derived equality. -/
def beq : CommentTarget crate → CommentTarget crate → Bool
  | event id relayHint pubkeyHint kind, event id' relayHint' pubkeyHint' kind' =>
      id == id' && relayHint == relayHint' && pubkeyHint == pubkeyHint' && kind == kind'
  | coordinate address relayHint, coordinate address' relayHint' => address == address' && relayHint == relayHint'
  | external content hint, external content' hint' => content == content' && hint == hint'
  | _, _ => false

instance : BEq (CommentTarget crate) := ⟨beq⟩

/-- The tags of a target, before they are written. -/
def asTags (isRoot : Bool) : CommentTarget crate → List (Nip22Tag crate)
  | event id relayHint pubkeyHint kind =>
      .event id relayHint pubkeyHint isRoot :: (pubkeyHint.map fun key => .publicKey key relayHint isRoot).toList ++
        (kind.map fun kind => .kind kind isRoot).toList
  | coordinate address relayHint =>
      [.coordinate address relayHint isRoot, .publicKey address.publicKey relayHint isRoot,
        .kind address.kind isRoot]
  | external content hint => [.externalContent content hint isRoot, .nip73Kind content.kind isRoot]

def asVec (target : CommentTarget crate) (isRoot : Bool) : List Tag :=
  (target.asTags isRoot).map (Nip22Tag.toTag externals)

end CommentTarget

structure CommentBuilder (crate : UrlCrate) where
  content : String
  commentTo : CommentTarget crate
  root : Option (CommentTarget crate) := none

def commentKind : UInt16 := 1111

def CommentBuilder.intoEventBuilder (builder : CommentBuilder crate) : EventBuilder where
  kind := .fromU16 commentKind
  tags := (builder.root.map fun target => target.asVec externals true).getD [] ++
    builder.commentTo.asVec externals false
  content := builder.content

/-! ## Extraction -/

def checkReturn {α : Type} (value : α) (isRoot uppercase : Bool) : Option α :=
  if (isRoot && uppercase) || (!isRoot && !uppercase) then some value else none

namespace Nip22Tag

def checkKind (isRoot : Bool) : Nip22Tag crate → Option Kind
  | kind number uppercase => checkReturn number isRoot uppercase
  | _ => none

def checkNip73Kind (isRoot : Bool) : Nip22Tag crate → Option Nip73Kind
  | nip73Kind named uppercase => checkReturn named isRoot uppercase
  | _ => none

def checkEvent (isRoot : Bool) : Nip22Tag crate → Option (EventId × Option (FullRelayUrl crate) × Option PublicKey)
  | event id relayHint key uppercase => checkReturn (id, relayHint, key) isRoot uppercase
  | _ => none

def checkCoordinate (isRoot : Bool) : Nip22Tag crate → Option (Coordinate × Option (FullRelayUrl crate))
  | coordinate address relayHint uppercase => checkReturn (address, relayHint) isRoot uppercase
  | _ => none

def checkExternal (isRoot : Bool) : Nip22Tag crate → Option (ExternalContentId crate × Option (Url crate))
  | externalContent content hint uppercase => checkReturn (content, hint) isRoot uppercase
  | _ => none

end Nip22Tag

section Extraction

variable {α : Type} (crate : UrlCrate) (event : Event) (isRoot : Bool)

/-- What is found in the first tag that passes the check. -/
def findTag (check : Nip22Tag crate → Option α) : Option α :=
  event.tags.findSome? fun tag => (Nip22Tag.parse externals tag.buf).toOption.bind check

def extractKind : Option Kind := findTag externals crate event (Nip22Tag.checkKind isRoot)

def extractNip73Kind : Option Nip73Kind := findTag externals crate event (Nip22Tag.checkNip73Kind isRoot)

def extractEvent : Option (EventId × Option (FullRelayUrl crate) × Option PublicKey) :=
  findTag externals crate event (Nip22Tag.checkEvent isRoot)

def extractCoordinate : Option (Coordinate × Option (FullRelayUrl crate)) :=
  findTag externals crate event (Nip22Tag.checkCoordinate isRoot)

def extractExternal : Option (ExternalContentId crate × Option (Url crate)) :=
  findTag externals crate event (Nip22Tag.checkExternal isRoot)

def extractData : Option (CommentTarget crate) :=
  match extractEvent externals crate event isRoot with
  | some (id, relayHint, publicKey) =>
      some (.event id relayHint publicKey (extractKind externals crate event isRoot))
  | none =>
      match extractCoordinate externals crate event isRoot with
      | some (address, relayHint) => do
          let kind ← extractKind externals crate event isRoot
          if kind != address.kind then none else some (.coordinate address relayHint)
      | none =>
          match extractExternal externals crate event isRoot with
          | some (content, hint) => do
              let kind ← extractNip73Kind externals crate event isRoot
              if kind != content.kind then none else some (.external content hint)
          | none => none

def extractRoot : Option (CommentTarget crate) := extractData externals crate event true

def extractParent : Option (CommentTarget crate) := extractData externals crate event false

end Extraction

end RustNostr
