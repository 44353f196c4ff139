import Mathlib
import RustNostr.Nostr.Event

/-!
# Events databases

What a database answers about an event (`nostr-database/src/lib.rs`).
-/

set_option autoImplicit false

namespace RustNostr

inductive DatabaseEventStatus where
  | saved
  | deleted
  | notExistent
  deriving DecidableEq

inductive RejectedReason where
  | ephemeral
  | duplicate
  | deleted
  | expired
  | replaced
  | invalidDelete
  | vanished
  | other
  deriving DecidableEq

inductive SaveEventStatus where
  | success
  | rejected (reason : RejectedReason)
  deriving DecidableEq

end RustNostr
