import Mathlib
import RustNostr.NostrGossip.Memory

/-!
# The latest relay list in memory

Which flags a relay carries after a relay list of its author. A list never takes a flag
from a relay that it leaves out, and each of its entries flips the flags that the relay
had, so that the flags are those of the list only under a condition on both.
-/

set_option autoImplicit false

namespace RustNostr.NostrGossip.Memory

open Library

/-! ## A flag and its marks -/

/-- One more entry of a relay, with or without the flag; `none` is a relay not known yet. -/
def flip (known : Option Bool) (mark : Bool) : Option Bool :=
  some (known.elim mark fun carried => !carried || mark)

/-- The entries behind the last one with the flag. -/
def behindLast (marks : List Bool) : Nat := (marks.reverse.takeWhile fun mark => !mark).length

theorem behindLast_concat (marks : List Bool) (mark : Bool) :
    behindLast (marks ++ [mark]) = if mark then 0 else behindLast marks + 1 := by
  rw [behindLast, List.reverse_concat, List.takeWhile_cons]
  cases mark with
  | true => rfl
  | false => rfl

theorem exists_foldl_flip {marks : List Bool} (nonempty : marks ≠ []) (known : Option Bool) :
    ∃ carried, marks.foldl flip known = some carried := by
  cases marks using List.reverseRecOn with
  | nil => exact absurd rfl nonempty
  | append_singleton marks mark => exact ⟨_, List.foldl_concat ..⟩

theorem odd_succ (number : Nat) : ((number + 1) % 2 == 1) = !(number % 2 == 1) := by
  cases Nat.mod_two_eq_zero_or_one number with
  | inl even => simp [Nat.add_mod, even]
  | inr odd => simp [Nat.add_mod, odd]

theorem even_succ (number : Nat) : ((number + 1) % 2 == 0) = !(number % 2 == 0) := by
  cases Nat.mod_two_eq_zero_or_one number with
  | inl even => simp [Nat.add_mod, even]
  | inr odd => simp [Nat.add_mod, odd]

/-- The flag is set by an entry with it and flipped by the entries that follow. Where no
entry has it, it is flipped from what it was, and a relay that is new counts as having
had it. -/
theorem foldl_flip (marks : List Bool) (known : Option Bool) :
    (marks.foldl flip known).getD false =
      if true ∈ marks then behindLast marks % 2 == 0
      else if marks = [] then known.getD false
      else known.getD true ^^ marks.length % 2 == 1 := by
  induction marks using List.reverseRecOn with
  | nil => simp
  | append_singleton marks mark ih =>
      rw [List.foldl_concat, behindLast_concat, List.length_append, List.length_singleton]
      cases mark with
      | true =>
          have set : ∀ before, flip before true = some true := by
            intro before
            cases before <;> simp [flip]
          simp [set]
      | false =>
          have member : true ∈ marks ++ [false] ↔ true ∈ marks := by simp
          have nonempty : ¬ marks ++ [false] = [] := by simp
          simp only [member, nonempty, if_false, Bool.false_eq_true, even_succ, odd_succ]
          by_cases first : marks = []
          · subst first
            cases known <;> simp [flip]
          · obtain ⟨carried, before⟩ := exists_foldl_flip first known
            rw [before] at ih
            simp only [before, flip, Option.elim_some, Option.getD_some, Bool.or_false] at ih ⊢
            rw [ih, if_neg first]
            split
            next => rfl
            next => rw [Bool.xor_not]

/-! ## The flags of one relay -/

/-- Whether the relay carries the flag, if it is known. -/
def carried (data : PkData) (relay : RelayUrl) (flag : GossipFlags) : Option Bool :=
  (data.relays.get? relay).map fun data => data.bitflags.has flag

/-- What the relay's entries of the list say of the flag. -/
def marksOf {β : Type} (list : List (RelayUrl × β)) (relay : RelayUrl) (marked : β → Bool) : List Bool :=
  (list.filter fun entry => entry.1 = relay).map fun entry => marked entry.2

def forReading (metadata : Option RelayMetadata) : Bool := metadata ≠ some .write

def forWriting (metadata : Option RelayMetadata) : Bool := metadata ≠ some .read

theorem has_listedFlags_read (metadata : Option RelayMetadata) :
    (listedFlags metadata).has .read = forReading metadata := by
  cases metadata with
  | none => decide
  | some metadata => cases metadata <;> decide

theorem has_listedFlags_write (metadata : Option RelayMetadata) :
    (listedFlags metadata).has .write = forWriting metadata := by
  cases metadata with
  | none => decide
  | some metadata => cases metadata <;> decide

theorem carried_updateNip65Relays {list : List (RelayUrl × Option RelayMetadata)} {data : PkData}
    {relay : RelayUrl} {flag : GossipFlags} {marked : Option RelayMetadata → Bool}
    (removes : ∀ flags : GossipFlags, (flags.remove readWriteMask).has flag = !flags.has flag)
    (adds : ∀ metadata, (listedFlags metadata).has flag = marked metadata) :
    carried (updateNip65Relays list data) relay flag =
      (marksOf list relay marked).foldl flip (carried data relay flag) := by
  have relays : (updateNip65Relays list data).relays =
      list.foldl (fun map entry => map.upsert entry.1 (markListed entry.2)) data.relays := by
    unfold updateNip65Relays
    induction list generalizing data with
    | nil => rfl
    | cons entry list ih => exact ih
  rw [carried, relays, IndexMap.get?_foldl_upsert, marksOf, carried]
  generalize data.relays.get? relay = known
  generalize list.filter (fun entry => entry.1 = relay) = entries
  induction entries generalizing known with
  | nil => rfl
  | cons entry entries ih =>
      rw [List.map_cons, List.foldl_cons, ih, List.map_cons, List.foldl_cons]
      congr 1
      cases known with
      | none => simp [markListed, flip, adds]
      | some data => simp [markListed, flip, adds, removes]

theorem carried_updateNip17Relays {list : List RelayUrl} {data : PkData} {relay : RelayUrl} :
    (carried (updateNip17Relays list data) relay .privateMessage).getD false =
      ((carried data relay .privateMessage).getD false || list.contains relay) := by
  induction list using List.reverseRecOn with
  | nil => simp [updateNip17Relays]
  | append_singleton list last ih =>
      have step : updateNip17Relays (list ++ [last]) data =
          { updateNip17Relays list data with
            relays := (updateNip17Relays list data).relays.upsert last markPrivateMessage } :=
        List.foldl_concat ..
      have contains : (list ++ [last]).contains relay = (list.contains relay || decide (relay = last)) := by
        simp
      rw [step, contains, ← Bool.or_assoc, ← ih, carried, carried]
      dsimp only
      rw [IndexMap.get?_upsert]
      by_cases same : relay = last
      · have marked : ∀ known, (markPrivateMessage known).bitflags.has .privateMessage = true := by
          intro known
          have self : GossipFlags.privateMessage.has .privateMessage = true := by decide
          cases known <;> simp [markPrivateMessage, self]
        simp [same, marked]
      · simp [same]

theorem carried_updateRelayPerUser {now : Timestamp} {data : PkData} {relayUrl relay : RelayUrl}
    {flags flag : GossipFlags} (other : flags.has flag = false) :
    (carried (updateRelayPerUser now data relayUrl flags) relay flag).getD false =
      (carried data relay flag).getD false := by
  unfold updateRelayPerUser
  dsimp only
  split
  next =>
    rw [carried, carried]
    dsimp only
    rw [IndexMap.get?_upsert]
    split
    next same =>
      rw [same]
      cases data.relays.get? relayUrl <;> simp [countReceived, other]
    next => rfl
  next => rfl

theorem has_flagsOf (store : Store) (publicKey : PublicKey) (relay : RelayUrl) (flag : GossipFlags) :
    (flagsOf store publicKey relay).has flag =
      (carried ((store.peek publicKey).getD {}) relay flag).getD false := by
  unfold flagsOf carried
  cases store.peek publicKey with
  | none => simp
  | some data =>
      simp only [Option.bind_some, Option.getD_some]
      cases data.relays.get? relay <;> simp

/-! ## After an event -/

section Events

variable (externals : Externals)

/-- The relays carry the flags of the event's list. -/
structure Latest (event : Event) (store : Store) : Prop where
  read : event.kind.asU16 = 10002 → ∀ relay,
    (flagsOf store event.pubkey relay).has .read = true ↔
      ∃ metadata, (relay, metadata) ∈ Nip65.extractRelayList externals event ∧ forReading metadata = true
  write : event.kind.asU16 = 10002 → ∀ relay,
    (flagsOf store event.pubkey relay).has .write = true ↔
      ∃ metadata, (relay, metadata) ∈ Nip65.extractRelayList externals event ∧ forWriting metadata = true
  privateMessage : event.kind.asU16 = 10050 → ∀ relay,
    (flagsOf store event.pubkey relay).has .privateMessage = true ↔
      relay ∈ Nip17.extractRelayList externals event

/-- The relay's entries among the first of the list, and the flag it had before, come
out as the whole list has it: with an entry that has the flag, an even number of entries
follows the last such one; without one, the flag as it was, flipped by every entry, is
what the entries behind the first ones say. -/
def SettlesOn (list : List (RelayUrl × Option RelayMetadata)) (before : Option Bool) (relay : RelayUrl)
    (marked : Option RelayMetadata → Bool) : Prop :=
  let marks := marksOf (list.take maxNip65Size) relay marked
  if true ∈ marks then behindLast marks % 2 = 0
  else (if marks = [] then before.getD false else before.getD true ^^ marks.length % 2 == 1) =
    (marksOf (list.drop maxNip65Size) relay marked).contains true

/-- What is asked of the list and of the flags before it. -/
structure Settles (event : Event) (store : Store) : Prop where
  read : event.kind.asU16 = 10002 → ∀ relay,
    SettlesOn (Nip65.extractRelayList externals event)
      (carried ((store.peek event.pubkey).getD {}) relay .read) relay forReading
  write : event.kind.asU16 = 10002 → ∀ relay,
    SettlesOn (Nip65.extractRelayList externals event)
      (carried ((store.peek event.pubkey).getD {}) relay .write) relay forWriting
  /-- No relay that is left out had the flag, and relays listed late had it already. -/
  privateMessage : event.kind.asU16 = 10050 → ∀ relay,
    ((flagsOf store event.pubkey relay).has .privateMessage = true →
      relay ∈ Nip17.extractRelayList externals event) ∧
    (relay ∈ (Nip17.extractRelayList externals event).drop maxNip17Size →
      relay ∈ (Nip17.extractRelayList externals event).take maxNip17Size ∨
        (flagsOf store event.pubkey relay).has .privateMessage = true)

theorem true_mem_marksOf {β : Type} {list : List (RelayUrl × β)} {relay : RelayUrl} {marked : β → Bool} :
    true ∈ marksOf list relay marked ↔ ∃ metadata, (relay, metadata) ∈ list ∧ marked metadata = true := by
  simp only [marksOf, List.mem_map, List.mem_filter, decide_eq_true_eq]
  constructor
  · intro found
    obtain ⟨entry, ⟨member, same⟩, marks⟩ := found
    exact ⟨entry.2, same ▸ member, marks⟩
  · intro found
    obtain ⟨metadata, member, marks⟩ := found
    exact ⟨(relay, metadata), ⟨member, rfl⟩, marks⟩

/-- The flags that come out are those of the list exactly if they settle on it. -/
theorem settlesOn_iff {list : List (RelayUrl × Option RelayMetadata)} {before : Option Bool}
    {relay : RelayUrl} {marked : Option RelayMetadata → Bool} :
    SettlesOn list before relay marked ↔
      (((marksOf (list.take maxNip65Size) relay marked).foldl flip before).getD false = true ↔
        ∃ metadata, (relay, metadata) ∈ list ∧ marked metadata = true) := by
  have parts : (∃ metadata, (relay, metadata) ∈ list ∧ marked metadata = true) ↔
      true ∈ marksOf (list.take maxNip65Size) relay marked ∨
        true ∈ marksOf (list.drop maxNip65Size) relay marked := by
    rw [true_mem_marksOf, true_mem_marksOf, ← exists_or]
    refine exists_congr fun metadata => ?_
    rw [← or_and_right, ← List.mem_append, List.take_append_drop]
  rw [parts, foldl_flip, SettlesOn]
  split
  next here => simp [here]
  next absent =>
    rw [or_iff_right absent, ← List.contains_iff_mem]
    exact Bool.eq_iff_iff

/-- Where the event came from changes no other flag. -/
theorem has_processEvent {now : Timestamp} {store : Store} {event : Event}
    {change : Option PkData → PkData}
    (lists : processLists externals now store event = store.touch event.pubkey change)
    (relayUrl : Option RelayUrl) {relay : RelayUrl} {flag : GossipFlags}
    (other : GossipFlags.received.has flag = false) :
    (flagsOf (processEvent externals now store event relayUrl) event.pubkey relay).has flag =
      (carried (change (store.peek event.pubkey)) relay flag).getD false := by
  unfold processEvent
  rw [has_flagsOf, lists]
  cases relayUrl with
  | none =>
      dsimp only
      rw [LruMap.peek_touch_self]
      rfl
  | some relayUrl =>
      dsimp only
      rw [LruMap.peek_touch_self, LruMap.peek_touch_self]
      exact carried_updateRelayPerUser other

variable {externals}

theorem processLists_nip65 {now : Timestamp} {store : Store} {event : Event}
    (kind : event.kind.asU16 = 10002) :
    processLists externals now store event = store.touch event.pubkey fun data =>
      updateNip65Relays ((Nip65.extractRelayList externals event).take maxNip65Size) (data.getD {}) :=
  if_pos kind

theorem processLists_nip17 {now : Timestamp} {store : Store} {event : Event}
    (kind : event.kind.asU16 = 10050) :
    processLists externals now store event = store.touch event.pubkey fun data =>
      updateNip17Relays ((Nip17.extractRelayList externals event).take maxNip17Size) (data.getD {}) := by
  have notNip65 : ¬ event.kind.asU16 = 10002 := by
    rw [kind]
    decide
  rw [processLists, if_neg notNip65, if_pos kind]

theorem has_nip65_iff {now : Timestamp} {store : Store} {event : Event} {relayUrl : Option RelayUrl}
    (kind : event.kind.asU16 = 10002) {relay : RelayUrl} {flag : GossipFlags}
    {marked : Option RelayMetadata → Bool} (other : GossipFlags.received.has flag = false)
    (removes : ∀ flags : GossipFlags, (flags.remove readWriteMask).has flag = !flags.has flag)
    (adds : ∀ metadata, (listedFlags metadata).has flag = marked metadata) :
    ((flagsOf (processEvent externals now store event relayUrl) event.pubkey relay).has flag = true ↔
      ∃ metadata, (relay, metadata) ∈ Nip65.extractRelayList externals event ∧ marked metadata = true) ↔
    SettlesOn (Nip65.extractRelayList externals event)
      (carried ((store.peek event.pubkey).getD {}) relay flag) relay marked := by
  rw [has_processEvent externals (processLists_nip65 kind) relayUrl other,
    carried_updateNip65Relays removes adds, settlesOn_iff]

theorem removes_read (flags : GossipFlags) : (flags.remove readWriteMask).has .read = !flags.has .read := by
  have mask : readWriteMask.has .read = true := by decide
  rw [GossipFlags.has_remove flags readWriteMask (show 0 < 32 by decide) rfl, mask, Bool.xor_true]

theorem removes_write (flags : GossipFlags) : (flags.remove readWriteMask).has .write = !flags.has .write := by
  have mask : readWriteMask.has .write = true := by decide
  rw [GossipFlags.has_remove flags readWriteMask (show 1 < 32 by decide) rfl, mask, Bool.xor_true]

theorem has_nip17_iff {now : Timestamp} {store : Store} {event : Event} {relayUrl : Option RelayUrl}
    (kind : event.kind.asU16 = 10050) {relay : RelayUrl} :
    ((flagsOf (processEvent externals now store event relayUrl) event.pubkey relay).has .privateMessage = true ↔
      relay ∈ Nip17.extractRelayList externals event) ↔
    ((flagsOf store event.pubkey relay).has .privateMessage = true →
      relay ∈ Nip17.extractRelayList externals event) ∧
    (relay ∈ (Nip17.extractRelayList externals event).drop maxNip17Size →
      relay ∈ (Nip17.extractRelayList externals event).take maxNip17Size ∨
        (flagsOf store event.pubkey relay).has .privateMessage = true) := by
  have whole : relay ∈ Nip17.extractRelayList externals event ↔
      relay ∈ (Nip17.extractRelayList externals event).take maxNip17Size ∨
        relay ∈ (Nip17.extractRelayList externals event).drop maxNip17Size := by
    rw [← List.mem_append, List.take_append_drop]
  rw [has_processEvent externals (processLists_nip17 kind) relayUrl (by decide),
    carried_updateNip17Relays, ← has_flagsOf, Bool.or_eq_true, List.contains_iff_mem, whole]
  tauto

/-- After a relay list the relays carry its flags exactly if the flags settle on it. -/
theorem processEvent_latest_iff (now : Timestamp) (store : Store) (event : Event)
    (relayUrl : Option RelayUrl) :
    Latest externals event (processEvent externals now store event relayUrl) ↔
      Settles externals event store := by
  constructor
  · intro latest
    exact {
      read := fun kind relay =>
        (has_nip65_iff kind (by decide) removes_read has_listedFlags_read).mp (latest.read kind relay)
      write := fun kind relay =>
        (has_nip65_iff kind (by decide) removes_write has_listedFlags_write).mp (latest.write kind relay)
      privateMessage := fun kind relay =>
        (has_nip17_iff kind).mp (latest.privateMessage kind relay) }
  · intro settles
    exact {
      read := fun kind relay =>
        (has_nip65_iff kind (by decide) removes_read has_listedFlags_read).mpr (settles.read kind relay)
      write := fun kind relay =>
        (has_nip65_iff kind (by decide) removes_write has_listedFlags_write).mpr (settles.write kind relay)
      privateMessage := fun kind relay =>
        (has_nip17_iff kind).mpr (settles.privateMessage kind relay) }

end Events

namespace LatestLists

/-- Relay URLs are their texts. -/
def sampleExternals : Externals where
  hexDecode _ := none
  hexEncode _ := ""
  relayUrlParse text := some ⟨text⟩

/-- A NIP-65 list of one relay, for reading and writing. -/
def sampleList (createdAt : Timestamp) (relay : String) : Event where
  id := ⟨List.replicate 32 0, rfl⟩
  pubkey := ⟨List.replicate 32 1, rfl⟩
  createdAt := createdAt
  kind := .custom 10002
  tags := [⟨["r", relay], List.cons_ne_nil _ _⟩]
  content := ""
  sig := ⟨List.replicate 64 0, rfl⟩

def first : Event := sampleList 1 "wss://a.example"

def second : Event := sampleList 2 "wss://b.example"

end LatestLists

open LatestLists in
/-- The relay of the first list keeps its flags when the second one leaves it out. -/
theorem processEvent_not_latest :
    ¬ Latest sampleExternals second (processEvent sampleExternals 0
      (processEvent sampleExternals 0 .unbounded first none) second none) := by
  intro latest
  have kept : (flagsOf (processEvent sampleExternals 0
      (processEvent sampleExternals 0 .unbounded first none) second none) second.pubkey
      ⟨"wss://a.example"⟩).has .read = true := by decide
  obtain ⟨metadata, member, _⟩ := (latest.read rfl ⟨"wss://a.example"⟩).mp kept
  have list : Nip65.extractRelayList sampleExternals second = [(⟨"wss://b.example"⟩, none)] := by decide
  rw [list, List.mem_singleton] at member
  have same : "wss://a.example" = "wss://b.example" := congrArg (fun entry => entry.1.url) member
  exact absurd same (by decide)

end RustNostr.NostrGossip.Memory
