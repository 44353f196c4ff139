import Mathlib
import RustNostr.Nostr.Event

/-!
# Relay lists

The relays that events list (`nostr/src/nips/nip65.rs`, `nip17.rs`) and the relay hints
of `p` tags (`nip01/tags.rs`). A tag that cannot be parsed is passed over, so an error
is `none`.
-/

set_option autoImplicit false

namespace RustNostr

inductive RelayMetadata where
  | read
  | write
  deriving DecidableEq

def RelayMetadata.fromStr (text : String) : Option RelayMetadata :=
  if text = "read" then some .read else if text = "write" then some .write else none

namespace Nip65

/-- `Nip65Tag::parse` -/
def parse (externals : Externals) (tag : Tag) : Option (RelayUrl × Option RelayMetadata) :=
  if tag.kind ≠ "r" then none
  else
    match tag.buf.tail with
    | [] => none
    | [url] => (externals.relayUrlParse url).map fun relay => (relay, none)
    | url :: metadata :: _ => do
        let relay ← externals.relayUrlParse url
        let metadata ← RelayMetadata.fromStr metadata
        some (relay, some metadata)

def extractRelayList (externals : Externals) (event : Event) : List (RelayUrl × Option RelayMetadata) :=
  event.tags.filterMap (parse externals)

end Nip65

namespace Nip17

/-- `Nip17Tag::parse` -/
def parse (externals : Externals) (tag : Tag) : Option RelayUrl :=
  if tag.kind ≠ "relay" then none else tag.content.bind externals.relayUrlParse

def extractRelayList (externals : Externals) (event : Event) : List RelayUrl :=
  event.tags.filterMap (parse externals)

end Nip17

namespace Nip01

/-- `parse_p_tag`: an empty hint is none, but one that is not a relay URL makes the tag
invalid. -/
def parsePTag (externals : Externals) (tag : Tag) : Option (PublicKey × Option RelayUrl) :=
  match tag.buf.tail with
  | [] => none
  | key :: rest => do
      let publicKey ← externals.hexDecode key
      match rest with
      | [] => some (publicKey, none)
      | hint :: _ =>
          if hint = "" then some (publicKey, none)
          else (externals.relayUrlParse hint).map fun relay => (publicKey, some relay)

/-- The keys with relay hints among the `p` tags. -/
def relayHints (externals : Externals) (event : Event) : List (PublicKey × RelayUrl) :=
  event.tags.filterMap fun tag =>
    if tag.kind ≠ "p" then none
    else (parsePTag externals tag).bind fun found => found.2.map fun relay => (found.1, relay)

end Nip01

end RustNostr
