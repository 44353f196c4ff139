import Mathlib
import RustNostr.NostrGossip.Agreement

/-!
# The order in which relay lists arrive

Which flags the store in SQLite keeps for an author after a run in which lists of that
author arrive in some order, old ones among them and some of them again.
-/

set_option autoImplicit false

namespace RustNostr.NostrGossip.Sqlite

open Library

/-- `GossipListKind::to_event_kind` -/
def listEventKind : GossipListKind → UInt16
  | .nip17 => 10050
  | .nip65 => 10002

/-- The flags that lists of a kind set. -/
def listFlags : GossipListKind → List GossipFlags
  | .nip17 => [.privateMessage]
  | .nip65 => [.read, .write]

/-- The event is a list of the kind by the author. -/
def IsListOf (list : GossipListKind) (author : PublicKey) (event : Event) : Prop :=
  event.kind.asU16 = listEventKind list ∧ event.pubkey = author

instance (list : GossipListKind) (author : PublicKey) (event : Event) : Decidable (IsListOf list author event) :=
  inferInstanceAs (Decidable (_ ∧ _))

/-- The entries of a list, with their flags. -/
def listEntries (externals : Externals) (list : GossipListKind) (event : Event) : List (RelayUrl × GossipFlags) :=
  match list with
  | .nip17 => (Nip17.extractRelayList externals event).map fun relay => (relay, .privateMessage)
  | .nip65 => (Nip65.extractRelayList externals event).map fun entry => (entry.1, listedFlags entry.2)

/-- The list gives the relay the flag. -/
def Gives (externals : Externals) (list : GossipListKind) (event : Event) (relay : RelayUrl) (flag : GossipFlags) :
    Prop :=
  ∃ entry ∈ listEntries externals list event, urlText relay = urlText entry.1 ∧ entry.2.has flag = true

theorem mem_allFlags {list : GossipListKind} {flag : GossipFlags} (member : flag ∈ listFlags list) :
    flag ∈ allFlags := by
  revert flag
  cases list <;> decide

/-! ## One event -/

section Event

variable {externals : Externals} {now : Timestamp} {database : Database} {event : Event}
  {relayUrl : Option RelayUrl} {author : PublicKey} {relay : RelayUrl} {list : GossipListKind} {flag : GossipFlags}

/-- The relay that an event came from is marked with another flag. -/
theorem has_received (member : flag ∈ listFlags list) (publicKey : PublicKey) (relayUrl : RelayUrl) :
    hasFlag (flagsOf (updateRelayPerUser now database publicKey relayUrl .received) author relay) flag = true ↔
      hasFlag (flagsOf database author relay) flag = true := by
  have other : GossipFlags.received.has flag = false := by
    revert flag
    cases list <;> decide
  rw [has_updateRelayPerUser (mem_allFlags member), other]
  simp

/-- So are the relays that an event hints at. -/
theorem has_updateHints (member : flag ∈ listFlags list) :
    hasFlag (flagsOf (updateHints externals now database event) author relay) flag = true ↔
      hasFlag (flagsOf database author relay) flag = true := by
  have other : GossipFlags.hint.has flag = false := by
    revert flag
    cases list <;> decide
  unfold updateHints
  induction Nip01.relayHints externals event generalizing database with
  | nil => rfl
  | cons hint hints ih =>
      have first : hasFlag (flagsOf (updateRelayPerUser now database hint.1 hint.2 .hint) author relay) flag = true ↔
          hasFlag (flagsOf database author relay) flag = true := by
        rw [has_updateRelayPerUser (mem_allFlags member), other]
        simp
      exact ih.trans first

/-- A list takes the flags of its kind from all relays of its author and sets its own. -/
theorem has_updateNip65Relays {entries : List (RelayUrl × Option RelayMetadata)} {publicKey : PublicKey}
    (member : flag ∈ allFlags) :
    hasFlag (flagsOf (updateNip65Relays database publicKey entries) author relay) flag = true ↔
      (hasFlag (flagsOf database author relay) flag = true ∧ ¬ (author = publicKey ∧ readWriteFlags.has flag = true)) ∨
        author = publicKey ∧
          ∃ entry ∈ entries, urlText relay = urlText entry.1 ∧ (listedFlags entry.2).has flag = true := by
  rw [updateNip65Relays, has_foldl_listRelay member, has_removeFlag member]

theorem has_updateNip17Relays {entries : List RelayUrl} {publicKey : PublicKey} (member : flag ∈ allFlags) :
    hasFlag (flagsOf (updateNip17Relays database publicKey entries) author relay) flag = true ↔
      (hasFlag (flagsOf database author relay) flag = true ∧
        ¬ (author = publicKey ∧ GossipFlags.privateMessage.has flag = true)) ∨
        author = publicKey ∧
          ∃ entry ∈ entries, urlText relay = urlText entry ∧ GossipFlags.privateMessage.has flag = true := by
  rw [updateNip17Relays, has_foldl_listRelay member, has_removeFlag member]

/-- Lists for reading and writing say nothing of other flags. -/
theorem listedFlags_other (other : readWriteFlags.has flag = false) (metadata : Option RelayMetadata) :
    (listedFlags metadata).has flag = false := by
  rw [sqlite_listedFlags]
  exact Memory.has_listedFlags_other other metadata

theorem has_nip65List (member : flag ∈ listFlags list) (kind : event.kind.asU16 = 10002) :
    hasFlag (flagsOf (updateNip65Relays database event.pubkey (Nip65.extractRelayList externals event)) author relay)
        flag = true ↔
      if IsListOf list author event then Gives externals list event relay flag
      else hasFlag (flagsOf database author relay) flag = true := by
  rw [has_updateNip65Relays (mem_allFlags member)]
  cases list with
  | nip17 =>
      have other : readWriteFlags.has flag = false := by
        revert flag
        decide
      have notList : ¬ IsListOf .nip17 author event := fun isList => absurd (kind.symm.trans isList.1) (by decide)
      rw [if_neg notList]
      simp [other, listedFlags_other other]
  | nip65 =>
      have own : readWriteFlags.has flag = true := by
        revert flag
        decide
      by_cases same : author = event.pubkey
      · rw [if_pos ⟨kind, same.symm⟩]
        simp [own, same, Gives, listEntries]
      · rw [if_neg fun isList => same isList.2.symm]
        simp [same]

theorem has_nip17List (member : flag ∈ listFlags list) (kind : event.kind.asU16 = 10050) :
    hasFlag (flagsOf (updateNip17Relays database event.pubkey (Nip17.extractRelayList externals event)) author relay)
        flag = true ↔
      if IsListOf list author event then Gives externals list event relay flag
      else hasFlag (flagsOf database author relay) flag = true := by
  rw [has_updateNip17Relays (mem_allFlags member)]
  cases list with
  | nip65 =>
      have other : GossipFlags.privateMessage.has flag = false := by
        revert flag
        decide
      have notList : ¬ IsListOf .nip65 author event := fun isList => absurd (kind.symm.trans isList.1) (by decide)
      rw [if_neg notList]
      simp [other]
  | nip17 =>
      have own : GossipFlags.privateMessage.has flag = true := by
        revert flag
        decide
      by_cases same : author = event.pubkey
      · rw [if_pos ⟨kind, same.symm⟩]
        simp [own, same, Gives, listEntries]
      · rw [if_neg fun isList => same isList.2.symm]
        simp [same]

/-- What an event leaves of a flag: a list of the kind by the author sets it as it says,
and every other event leaves it as it is. -/
theorem has_processEvent (member : flag ∈ listFlags list) :
    hasFlag (flagsOf (processEvent externals now database event relayUrl) author relay) flag = true ↔
      if IsListOf list author event then Gives externals list event relay flag
      else hasFlag (flagsOf database author relay) flag = true := by
  have lists : hasFlag (flagsOf (processEvent externals now database event relayUrl) author relay) flag = true ↔
      hasFlag (flagsOf (processEvent externals now database event none) author relay) flag = true := by
    cases relayUrl with
    | none => rfl
    | some relayUrl => exact has_received member event.pubkey relayUrl
  rw [lists, processEvent]
  split
  next kind => exact has_nip65List member kind
  next notNip65 =>
    split
    next kind => exact has_nip17List member kind
    next notNip17 =>
      have notList : ¬ IsListOf list author event := by
        intro isList
        cases list with
        | nip17 => exact notNip17 isList.1
        | nip65 => exact notNip65 isList.1
      rw [if_neg notList]
      exact has_updateHints member

end Event

/-! ## Runs -/

/-- The lists of a kind by an author, as they arrive. -/
def arrivals (list : GossipListKind) (author : PublicKey) (run : List Processed) : List Event :=
  (run.map Processed.event).filter fun event => IsListOf list author event

theorem arrivals_concat (list : GossipListKind) (author : PublicKey) (run : List Processed) (step : Processed) :
    arrivals list author (run ++ [step]) =
      arrivals list author run ++ if IsListOf list author step.event then [step.event] else [] := by
  rw [arrivals, List.map_append, List.filter_append]
  by_cases isList : IsListOf list author step.event
  · simp [isList, arrivals]
  · simp [isList, arrivals]

section Runs

variable {externals : Externals} {database : Database} {author : PublicKey} {relay : RelayUrl}
  {list : GossipListKind} {flag : GossipFlags}

/-- After a run the flags are those of the list that arrived last, or as they were. -/
theorem has_databaseAfter (member : flag ∈ listFlags list) (run : List Processed) :
    hasFlag (flagsOf (databaseAfter externals database run) author relay) flag = true ↔
      ((arrivals list author run).getLast?.elim (hasFlag (flagsOf database author relay) flag = true)
        fun last => Gives externals list last relay flag) := by
  induction run using List.reverseRecOn with
  | nil => rfl
  | append_singleton run step ih =>
      rw [databaseAfter, List.foldl_concat, has_processEvent member, arrivals_concat]
      split
      next => rw [List.getLast?_concat, Option.elim_some]
      next =>
        rw [List.append_nil]
        exact ih

end Runs

/-- The author's newest list among those that arrive. -/
def IsNewest (list : GossipListKind) (author : PublicKey) (run : List Processed) (newest : Event) : Prop :=
  newest ∈ arrivals list author run ∧ ∀ event ∈ arrivals list author run, event.createdAt ≤ newest.createdAt

/-- Both lists give every relay the same flags. -/
def SameFlags (externals : Externals) (list : GossipListKind) (left right : Event) : Prop :=
  ∀ relay, ∀ flag ∈ listFlags list, Gives externals list left relay flag ↔ Gives externals list right relay flag

/-- In whatever order the lists of an author arrive, and whatever else does, the flags are
in the end those of the newest one if and only if the last one to arrive has the same. -/
theorem relayLists_newest_iff (externals : Externals) (database : Database) (list : GossipListKind)
    (author : PublicKey) (run : List Processed) (newest : Event) (isNewest : IsNewest list author run newest) :
    (∀ relay, ∀ flag ∈ listFlags list,
      hasFlag (flagsOf (databaseAfter externals database run) author relay) flag = true ↔
        Gives externals list newest relay flag) ↔
    ∀ last, (arrivals list author run).getLast? = some last → SameFlags externals list last newest := by
  obtain ⟨last, isLast⟩ : ∃ last, (arrivals list author run).getLast? = some last := by
    rw [← Option.isSome_iff_exists, List.getLast?_isSome]
    exact List.ne_nil_of_mem isNewest.1
  rw [isLast]
  simp only [Option.some.injEq, forall_eq', SameFlags]
  refine forall_congr' fun relay => forall₂_congr fun flag member => ?_
  rw [has_databaseAfter member, isLast]
  rfl

namespace ListArrival

open Memory.LatestLists

/-- The older list before the newer one. -/
def inOrder : List Processed := [⟨first, none, 0, 0⟩, ⟨second, none, 0, 0⟩]

/-- The older list again behind the newer one. -/
def olderLast : List Processed := [⟨second, none, 0, 0⟩, ⟨first, none, 0, 0⟩]

def author : PublicKey := first.pubkey

theorem second_isNewest : IsNewest .nip65 author inOrder second ∧ IsNewest .nip65 author olderLast second := by
  have ordered : arrivals .nip65 author inOrder = [first, second] := by decide +kernel
  have reversed : arrivals .nip65 author olderLast = [second, first] := by decide +kernel
  rw [IsNewest, IsNewest, ordered, reversed]
  simp [first, second, sampleList]

end ListArrival

open ListArrival Memory.LatestLists in
theorem relayLists_newest_inOrder : IsNewest .nip65 author inOrder second ∧
    ∀ relay, ∀ flag ∈ listFlags .nip65,
      hasFlag (flagsOf (databaseAfter sampleExternals .empty inOrder) author relay) flag = true ↔
        Gives sampleExternals .nip65 second relay flag := by
  refine ⟨second_isNewest.1, ?_⟩
  refine (relayLists_newest_iff sampleExternals .empty .nip65 author inOrder second second_isNewest.1).mpr ?_
  intro last isLast
  cases isLast
  intro relay flag _
  rfl

open ListArrival Memory.LatestLists in
/-- The older list takes the newer one's flags away when it arrives last. -/
theorem relayLists_not_newest : ¬ ∀ run newest,
    (arrivals .nip65 author run).Pairwise (fun earlier later => earlier.createdAt ≠ later.createdAt) →
    IsNewest .nip65 author run newest → ∀ relay, ∀ flag ∈ listFlags .nip65,
      hasFlag (flagsOf (databaseAfter sampleExternals .empty run) author relay) flag = true ↔
        Gives sampleExternals .nip65 newest relay flag := by
  intro newest
  have given : Gives sampleExternals .nip65 second ⟨"wss://b.example"⟩ .read :=
    ⟨(⟨"wss://b.example"⟩, readWriteFlags), by decide, rfl, by decide⟩
  have kept := (newest olderLast second (by decide +kernel) second_isNewest.2 ⟨"wss://b.example"⟩ .read (by decide)).mpr given
  revert kept
  decide

end RustNostr.NostrGossip.Sqlite
