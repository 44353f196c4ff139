import Mathlib
import RustNostr.Nostr.EventJson

/-!
# Messages between clients and relays

The messages of the protocol (`nostr/src/message`) and the checks of two NIPs
on the events in them: proof of work (`nip13`) and authentication (`nip42`).
-/

set_option autoImplicit false

namespace RustNostr

open Library

abbrev SubscriptionId := String

inductive ClientMessage where
  | event (event : Event)
  | req (subscriptionId : SubscriptionId) (filters : List Filter)
  | count (subscriptionId : SubscriptionId) (filter : Filter)
  | close (subscriptionId : SubscriptionId)
  | auth (event : Event)
  | negOpen (subscriptionId : SubscriptionId) (filter : Filter) (initialMessage : String)
  | negMsg (subscriptionId : SubscriptionId) (message : String)
  | negClose (subscriptionId : SubscriptionId)

namespace ClientMessage

def isEvent : ClientMessage → Bool
  | .event _ => true
  | _ => false

def isReq : ClientMessage → Bool
  | .req _ _ => true
  | _ => false

def isClose : ClientMessage → Bool
  | .close _ => true
  | _ => false

end ClientMessage

inductive RelayMessage where
  | event (subscriptionId : SubscriptionId) (event : Event)
  | ok (eventId : EventId) (status : Bool) (message : String)
  | endOfStoredEvents (subscriptionId : SubscriptionId)
  | closed (subscriptionId : SubscriptionId) (message : String)
  | notice (message : String)
  | auth (challenge : String)
  | count (subscriptionId : SubscriptionId) (count : Nat)
  | negMsg (subscriptionId : SubscriptionId) (message : String)
  | negErr (subscriptionId : SubscriptionId) (message : String)
  deriving DecidableEq

inductive MachineReadablePrefix where
  | duplicate
  | pow
  | blocked
  | rateLimited
  | invalid
  | error
  | unsupported
  | authRequired
  | restricted
  | custom (word : String)
  deriving DecidableEq

namespace MachineReadablePrefix

def asStr : MachineReadablePrefix → String
  | duplicate => "duplicate"
  | pow => "pow"
  | blocked => "blocked"
  | rateLimited => "rate-limited"
  | invalid => "invalid"
  | error => "error"
  | unsupported => "unsupported"
  | authRequired => "auth-required"
  | restricted => "restricted"
  | custom word => word

/-- `format!("{prefix}: {message}")` -/
def text (machineReadablePrefix : MachineReadablePrefix) (message : String) : String :=
  machineReadablePrefix.asStr ++ ": " ++ message

def isAsciiWhitespace (char : Char) : Bool :=
  char = ' ' || char = '\t' || char = '\n' || char = '\x0c' || char = '\r'

/-- `SingleWord::parse` -/
def parseSingleWord (word : List Char) : Option String :=
  if word.isEmpty || word.any isAsciiWhitespace then none else some (String.ofList word)

/-- The prefixes that stand for themselves, in the order they are tried. -/
def standard : List MachineReadablePrefix :=
  [duplicate, pow, blocked, rateLimited, invalid, error, unsupported, authRequired, restricted]

def parse (message : String) : Option MachineReadablePrefix :=
  let text := message.toList
  match standard.find? fun known => (known.asStr.toList ++ [':']).isPrefixOf text with
  | some known => some known
  | none =>
      if ':' ∈ text then (parseSingleWord (text.takeWhile (· ≠ ':'))).map custom else none

end MachineReadablePrefix

namespace Nip13

/-- The difficulty that a `nonce` tag commits to. -/
def nonceDifficulty (tag : Tag) : Option Nat :=
  match tag.buf with
  | "nonce" :: nonce :: difficulty :: _ =>
      (parseUnsigned 340282366920938463463374607431768211456 nonce.toList).bind fun _ =>
        parseUnsigned 256 difficulty.toList
  | _ => none

def targetDifficulty (tags : List Tag) : Nat := (tags.findSome? nonceDifficulty).getD 0

end Nip13

namespace Tags

/-- The value of the first `challenge` tag, if that tag has one. -/
def challenge (tags : List Tag) : Option String :=
  (tags.find? fun tag => tag.kind = "challenge").bind Tag.content

end Tags

namespace Nip42

def authenticationKind : UInt16 := 22242

def isValidAuthEvent (externals : Externals) (event : Event) (relayUrl : RelayUrl)
    (challenge : String) : Bool :=
  event.kind.asU16 = authenticationKind &&
    (event.tags.any fun tag =>
      tag.kind = "relay" && (tag.content.bind externals.relayUrlParse) = some relayUrl) &&
    event.tags.any fun tag => tag.kind = "challenge" && tag.content = some challenge

end Nip42

end RustNostr
