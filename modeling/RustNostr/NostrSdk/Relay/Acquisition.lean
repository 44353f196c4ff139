import Mathlib
import RustNostr.NostrSdk.Shared

/-!
# Bounded acquisitions

One relay's bounded acquisition (`nostr-sdk/src/relay/api/acquire_events.rs`):
the result that the collector fills, and the evidence about the raw frames of
the request that the frame handler and the collector share. A `usize` is a
natural number with the checks the source makes at its bound.
-/

set_option autoImplicit false

namespace RustNostr.NostrSdk

open Library

/-- `usize::MAX` on 64-bit targets -/
def usizeMax : Nat := 18446744073709551615

def checkedAdd (left right : Nat) : Option Nat :=
  if left + right ≤ usizeMax then some (left + right) else none

def saturatingAdd (left right : Nat) : Nat := min (left + right) usizeMax

/-- Addition in a build without overflow checks. -/
def wrappingAdd (left right : Nat) : Nat := (left + right) % (usizeMax + 1)

/-- The exit policies of a request; durations in milliseconds. -/
inductive ReqExitPolicy where
  | exitOnEose
  | waitForEvents (num : UInt16)
  | waitForEventsAfterEose (num : UInt16)
  | waitDurationAfterEose (duration : Nat)
  deriving DecidableEq

inductive AutoClosedReason where
  | authenticationFailed
  | closed (message : String)
  | relayClosed (message : String)
  | lagged (skipped : Nat)
  | receiverClosed
  | timedOut
  | disconnected
  | limitReached
  | completed
  deriving DecidableEq

inductive AcquisitionEnd where
  | completed
  | exitLimitReached
  | itemBudgetExceeded
  | byteBudgetExceeded
  | cancelled
  | timedOut
  | disconnected
  | receiveLoss (skipped : Nat)
  | invalidMessage
  | receiverClosed
  | authenticationFailed
  | rejected (message : String)
  | relayClosed (message : String)
  | failed (error : Error)
  deriving DecidableEq

/-- `From<SubscriptionAutoClosedReason>` -/
def AcquisitionEnd.ofReason : AutoClosedReason → AcquisitionEnd
  | .completed => completed
  | .limitReached => exitLimitReached
  | .timedOut => timedOut
  | .disconnected => disconnected
  | .lagged skipped => receiveLoss skipped
  | .receiverClosed => receiverClosed
  | .authenticationFailed => authenticationFailed
  | .closed message => rejected message
  | .relayClosed message => relayClosed message

structure AcquisitionLimits where
  maxItems : Nat
  maxItems_le : maxItems ≤ usizeMax
  maxEventBytes : Nat
  maxEventBytes_le : maxEventBytes ≤ usizeMax
  policy : ReqExitPolicy

/-! ## Raw evidence -/

inductive ItemBudget where
  | within
  | exceeded
  deriving DecidableEq

inductive RawPhase where
  | active
  | exhausted
  | exhaustedValid
  deriving DecidableEq

structure RawEvidence where
  phase : RawPhase := .active
  closed : Bool := false
  items : Nat := 0
  oldest : Option Timestamp := none
  forwarded : Nat := 0
  rejected : Bool := false
  deriving DecidableEq

/-- The evidence of one request. `terminal` is the permit of its `Notify`:
notifying a pending permit again has no effect, waiting takes the permit. -/
structure RawAcquisition where
  evidence : RawEvidence
  maxItems : Nat
  stopOnEose : Bool
  terminal : Bool

namespace RawAcquisition

def new (maxItems : Nat) (policy : ReqExitPolicy) : RawAcquisition where
  evidence := {}
  maxItems := maxItems
  stopOnEose := policy = .exitOnEose
  terminal := false

def close (raw : RawAcquisition) : RawAcquisition :=
  { raw with evidence := { raw.evidence with closed := true } }

def receivedEose (raw : RawAcquisition) : RawAcquisition :=
  if raw.stopOnEose then raw.close else raw

/-- Whether an EVENT is still recorded. -/
def records (raw : RawAcquisition) : Bool :=
  !(raw.evidence.closed || raw.evidence.phase ≠ .active || raw.evidence.rejected)

/-- Counts a parsed EVENT; the first one over the budget exhausts it and still
counts. -/
def record (raw : RawAcquisition) (createdAt : Timestamp) : Bool × RawAcquisition :=
  if raw.records then
    let next := checkedAdd raw.evidence.items 1
    let items := next.getD usizeMax
    (true, { raw with evidence := { raw.evidence with
      items
      oldest := some ((raw.evidence.oldest).elim createdAt fun oldest => min oldest createdAt)
      phase := if next.isNone || raw.maxItems < items then .exhausted else raw.evidence.phase } })
  else (false, raw)

def forward (raw : RawAcquisition) : RawAcquisition :=
  if raw.evidence.closed then raw
  else
    match raw.evidence.phase with
    | .active =>
        { raw with evidence := { raw.evidence with
          forwarded := saturatingAdd raw.evidence.forwarded 1 } }
    | .exhausted =>
        { raw with evidence := { raw.evidence with
          forwarded := saturatingAdd raw.evidence.forwarded 1, phase := .exhaustedValid } }
    | .exhaustedValid => raw

/-- Whether a frame has gone over the item budget. -/
def isExhausted (raw : RawAcquisition) : Bool := raw.evidence.phase ≠ .active

/-- The frame has been rejected or forwarded. -/
def processed (raw : RawAcquisition) : RawAcquisition :=
  if raw.isExhausted then { raw with terminal := true } else raw

/-- Input that may have been this request's was lost. -/
def rejectInput (raw : RawAcquisition) : RawAcquisition :=
  if raw.evidence.closed || raw.evidence.rejected then raw
  else { raw with evidence := { raw.evidence with rejected := true }, terminal := true }

def terminalEnd (raw : RawAcquisition) : AcquisitionEnd :=
  if raw.evidence.rejected then .invalidMessage else .itemBudgetExceeded

def itemBudget (raw : RawAcquisition) (received : Nat) : ItemBudget :=
  if raw.evidence.phase = .exhaustedValid ∧ raw.evidence.forwarded ≤ saturatingAdd received 1 then
    .exceeded
  else .within

def drained (raw : RawAcquisition) (received : Nat) : Bool := raw.evidence.forwarded ≤ received

end RawAcquisition

/-! ## The result -/

/-- A `BTreeSet<Event>` -/
abbrev EventSet := SortedTable (Timestampᵒᵈ ×ₗ EventId) Event

namespace EventSet

def contains (events : EventSet) (event : Event) : Bool := (events.get? event.orderingKey).isSome

def insert (events : EventSet) (event : Event) : EventSet :=
  events.putNew event.orderingKey event

/-- The distinct events of a list; of equal ones, the first. -/
def ofList (events : List Event) : EventSet := events.foldl insert .empty

/-- The lengths of the retained events as JSON, added up. -/
def jsonBytes (externals : Externals) (events : EventSet) : Nat :=
  (events.values.map fun event => event.jsonLen externals).sum

end EventSet

structure RelayAcquisition where
  events : EventSet := .empty
  end_ : AcquisitionEnd := .receiverClosed
  rawReceivedItems : Nat := 0
  oldestRawCreatedAt : Option Timestamp := none
  receivedItems : Nat := 0
  receivedEventBytes : Nat := 0
  duplicates : Nat := 0
  highWaterItems : Nat := 0
  highWaterEventBytes : Nat := 0

namespace RelayAcquisition

variable (externals : Externals)

/-- Takes a validated event, or ends the acquisition at a budget. -/
def acceptEvent (result : RelayAcquisition) (event : Event) (limits : AcquisitionLimits)
    (budget : ItemBudget) : Bool × RelayAcquisition :=
  let eventBytes := event.jsonLen externals
  match checkedAdd result.receivedItems 1 with
  | none => (false, { result with end_ := .itemBudgetExceeded })
  | some items =>
      let result := { result with receivedItems := items }
      match checkedAdd result.receivedEventBytes eventBytes with
      | none => (false, { result with end_ := .byteBudgetExceeded })
      | some bytes =>
          let result := { result with receivedEventBytes := bytes }
          if budget = .exceeded ∨ limits.maxItems < result.receivedItems then
            (false, { result with end_ := .itemBudgetExceeded })
          else if limits.maxEventBytes < result.receivedEventBytes then
            (false, { result with end_ := .byteBudgetExceeded })
          else if result.events.contains event then
            (true, { result with duplicates := wrappingAdd result.duplicates 1 })
          else
            let events := result.events.insert event
            (true, { result with
              events
              highWaterItems := events.len
              highWaterEventBytes := saturatingAdd result.highWaterEventBytes eventBytes })

end RelayAcquisition

/-- `RawAcquisition::finish`: writes the evidence into the result, where an
overflow or a rejected frame overrides a successful end. -/
def RawAcquisition.finish (raw : RawAcquisition) (result : RelayAcquisition) :
    RelayAcquisition × RawAcquisition :=
  let result := { result with
    rawReceivedItems := raw.evidence.items
    oldestRawCreatedAt := raw.evidence.oldest }
  let overridden := result.end_ = .completed ∨ result.end_ = .exitLimitReached ∨
    result.end_ = .receiverClosed
  let result :=
    if (raw.evidence.rejected || raw.isExhausted) ∧ overridden then
      { result with end_ := raw.terminalEnd }
    else result
  (result, raw.close)

end RustNostr.NostrSdk
