import Mathlib
import RustNostr.NostrGossip.LatestLists
import RustNostr.NostrGossip.Sqlite

/-!
# The two gossip stores

The store in memory and the one in SQLite take the same updates from an event. They keep
the same flags in every run whose updates meet a condition: lists on which the flags in
memory settle, room for the relays and keys that are new, and URLs with texts of their
own.
-/

set_option autoImplicit false

namespace RustNostr.NostrGossip

open Library

/-! ## Flags of one bit -/

def allFlags : List GossipFlags := [.read, .write, .privateMessage, .hint, .received]

theorem exists_index {flag : GossipFlags} (member : flag ∈ allFlags) :
    ∃ index < 32, flag.bits.toBitVec = BitVec.twoPow 32 index := by
  simp only [allFlags, List.mem_cons, List.not_mem_nil, or_false] at member
  obtain same | same | same | same | same := member
  · exact ⟨0, by decide, by subst same; rfl⟩
  · exact ⟨1, by decide, by subst same; rfl⟩
  · exact ⟨2, by decide, by subst same; rfl⟩
  · exact ⟨3, by decide, by subst same; rfl⟩
  · exact ⟨4, by decide, by subst same; rfl⟩

namespace Sqlite

/-- `bitflags & ?2 = ?2` -/
def hasFlag (bitflags : BitVec 64) (flag : GossipFlags) : Bool := bitflags &&& column flag == column flag

variable {flag : GossipFlags} (member : flag ∈ allFlags)

include member

theorem hasFlag_eq_getLsbD : ∃ index < 32, (∀ bitflags, hasFlag bitflags flag = bitflags.getLsbD index) ∧
    ∀ flags : GossipFlags, (column flags).getLsbD index = flags.has flag := by
  obtain ⟨index, small, single⟩ := exists_index member
  have column_eq : column flag = BitVec.twoPow 64 index := by
    rw [column, single]
    apply BitVec.eq_of_getLsbD_eq
    intro other below
    simp only [BitVec.getLsbD_setWidth, BitVec.getLsbD_twoPow]
    by_cases same : index = other
    · subst same
      simp [small, below]
    · simp [same]
  refine ⟨index, small, ?_, ?_⟩
  · intro bitflags
    have nonzero : BitVec.twoPow 64 index ≠ 0#64 := by
      intro zero
      have bit := congrArg (fun bits : BitVec 64 => bits.getLsbD index) zero
      simp [show index < 64 by omega] at bit
    rw [hasFlag, column_eq, BitVec.and_twoPow]
    cases bitflags.getLsbD index with
    | true => simp
    | false => simpa using nonzero.symm
  · intro flags
    rw [GossipFlags.has_eq_getLsbD flags small single, column, BitVec.getLsbD_setWidth]
    simp [show index < 64 by omega]

theorem hasFlag_or (bitflags : BitVec 64) (flags : GossipFlags) :
    hasFlag (bitflags ||| column flags) flag = (hasFlag bitflags flag || flags.has flag) := by
  obtain ⟨index, _, bit, columns⟩ := hasFlag_eq_getLsbD member
  rw [bit, bit, BitVec.getLsbD_or, columns]

theorem hasFlag_andNot (bitflags : BitVec 64) (flags : GossipFlags) :
    hasFlag (bitflags &&& ~~~column flags) flag = (hasFlag bitflags flag && !flags.has flag) := by
  obtain ⟨index, small, bit, columns⟩ := hasFlag_eq_getLsbD member
  have below : index < 64 := by omega
  rw [bit, bit, BitVec.getLsbD_and, BitVec.getLsbD_not, columns]
  simp [below]

theorem hasFlag_zero : hasFlag 0#64 flag = false := by
  obtain ⟨index, _, bit, _⟩ := hasFlag_eq_getLsbD member
  rw [bit]
  exact BitVec.getLsbD_zero

omit member in
theorem rowKey_inj {publicKey publicKey' : PublicKey} {relay relay' : RelayUrl} :
    rowKey publicKey relay = rowKey publicKey' relay' ↔
      publicKey = publicKey' ∧ urlText relay = urlText relay' := by
  rw [rowKey, rowKey, toLex_inj, Prod.mk.injEq]

theorem has_upsert {database : Database} {publicKey publicKey' : PublicKey} {relay relay' : RelayUrl}
    {flags : GossipFlags} {inserted : RelayPerUser} {update : RelayPerUser → RelayPerUser}
    (inserts : inserted.bitflags = column flags)
    (updates : ∀ row, (update row).bitflags = row.bitflags ||| column flags) :
    hasFlag (flagsOf (upsert database (rowKey publicKey' relay') inserted update) publicKey relay) flag = true ↔
      hasFlag (flagsOf database publicKey relay) flag = true ∨
        (publicKey = publicKey' ∧ urlText relay = urlText relay') ∧ flags.has flag = true := by
  rw [← rowKey_inj, flagsOf, upsert, SortedTable.get?_put]
  split
  next same =>
    rw [same, flagsOf, same]
    cases database.get? (rowKey publicKey' relay') with
    | none =>
        have zeroOr : column flags = 0 ||| column flags := (BitVec.zero_or).symm
        simp only [Option.elim_none, Option.map_some, Option.getD_some, Option.map_none, Option.getD_none,
          inserts]
        rw [zeroOr, hasFlag_or member, Bool.or_eq_true]
        simp
    | some row =>
        simp only [Option.elim_some, Option.map_some, Option.getD_some, updates, hasFlag_or member,
          Bool.or_eq_true, true_and]
  next other => simp only [flagsOf, other, false_and, or_false]

theorem has_updateRelayPerUser {now : Timestamp} {database : Database} {publicKey publicKey' : PublicKey}
    {relay relay' : RelayUrl} {flags : GossipFlags} :
    hasFlag (flagsOf (updateRelayPerUser now database publicKey' relay' flags) publicKey relay) flag = true ↔
      hasFlag (flagsOf database publicKey relay) flag = true ∨
        (publicKey = publicKey' ∧ urlText relay = urlText relay') ∧ flags.has flag = true :=
  has_upsert member rfl fun _ => rfl

theorem has_listRelay {database : Database} {publicKey publicKey' : PublicKey}
    {relay relay' : RelayUrl} {flags : GossipFlags} :
    hasFlag (flagsOf (listRelay database publicKey' relay' flags) publicKey relay) flag = true ↔
      hasFlag (flagsOf database publicKey relay) flag = true ∨
        (publicKey = publicKey' ∧ urlText relay = urlText relay') ∧ flags.has flag = true :=
  has_upsert member rfl fun _ => rfl

theorem has_foldl_listRelay {β : Type} {list : List β} {url : β → RelayUrl} {flags : β → GossipFlags}
    {database : Database} {publicKey publicKey' : PublicKey} {relay : RelayUrl} :
    hasFlag (flagsOf (list.foldl (fun database entry =>
        listRelay database publicKey' (url entry) (flags entry)) database) publicKey relay) flag = true ↔
      hasFlag (flagsOf database publicKey relay) flag = true ∨
        publicKey = publicKey' ∧
          ∃ entry ∈ list, urlText relay = urlText (url entry) ∧ (flags entry).has flag = true := by
  induction list generalizing database with
  | nil => simp
  | cons entry list ih =>
      rw [List.foldl_cons, ih, has_listRelay member, List.exists_mem_cons_iff, and_or_left, ← or_assoc,
        and_assoc]

theorem has_removeFlag {database : Database} {publicKey publicKey' : PublicKey} {relay : RelayUrl}
    {flags : GossipFlags} :
    hasFlag (flagsOf (removeFlagFromUserRelays database publicKey' flags) publicKey relay) flag = true ↔
      hasFlag (flagsOf database publicKey relay) flag = true ∧
        ¬ (publicKey = publicKey' ∧ flags.has flag = true) := by
  rw [flagsOf, removeFlagFromUserRelays, SortedTable.get?_mapValues, flagsOf]
  cases database.get? (rowKey publicKey relay) with
  | none => simp [hasFlag_zero member]
  | some row =>
      simp only [Option.map_some, Option.getD_some]
      by_cases same : publicKey = publicKey'
      · have own : (ofLex (rowKey publicKey relay)).1 = publicKey' := same
        rw [if_pos own, hasFlag_andNot member]
        simp [same]
      · have notOwn : ¬ (ofLex (rowKey publicKey relay)).1 = publicKey' := same
        rw [if_neg notOwn]
        simp [same]

end Sqlite

/-! ## Updates -/

/-- The parts of what the stores take from an event. -/
inductive Update where
  | nip65 (publicKey : PublicKey) (list : List (RelayUrl × Option RelayMetadata))
  | nip17 (publicKey : PublicKey) (list : List RelayUrl)
  | count (publicKey : PublicKey) (relay : RelayUrl) (flags : GossipFlags)

def updates (externals : Externals) (event : Event) (relayUrl : Option RelayUrl) : List Update :=
  (if event.kind.asU16 = 10002 then [.nip65 event.pubkey (Nip65.extractRelayList externals event)]
    else if event.kind.asU16 = 10050 then [.nip17 event.pubkey (Nip17.extractRelayList externals event)]
    else (Nip01.relayHints externals event).map fun hint => .count hint.1 hint.2 .hint) ++
  relayUrl.toList.map fun relay => .count event.pubkey relay .received

namespace Memory

def applyUpdate (now : Timestamp) (store : Store) : Update → Store
  | .nip65 publicKey list => store.touch publicKey fun data =>
      updateNip65Relays (list.take maxNip65Size) (data.getD {})
  | .nip17 publicKey list => store.touch publicKey fun data =>
      updateNip17Relays (list.take maxNip17Size) (data.getD {})
  | .count publicKey relay flags => store.touch publicKey fun data =>
      updateRelayPerUser now (data.getD {}) relay flags

theorem processEvent_eq_foldl (externals : Externals) (now : Timestamp) (store : Store) (event : Event)
    (relayUrl : Option RelayUrl) : processEvent externals now store event relayUrl =
      (updates externals event relayUrl).foldl (applyUpdate now) store := by
  have lists : processLists externals now store event = (if event.kind.asU16 = 10002 then
      [Update.nip65 event.pubkey (Nip65.extractRelayList externals event)]
      else if event.kind.asU16 = 10050 then [.nip17 event.pubkey (Nip17.extractRelayList externals event)]
      else (Nip01.relayHints externals event).map fun hint => .count hint.1 hint.2 .hint).foldl
        (applyUpdate now) store := by
    unfold processLists
    split
    next => rfl
    next =>
      split
      next => rfl
      next => rw [List.foldl_map]; rfl
  unfold processEvent updates
  rw [List.foldl_append, lists]
  cases relayUrl with
  | none => rfl
  | some relayUrl => rfl

end Memory

namespace Sqlite

def applyUpdate (now : Timestamp) (database : Database) : Update → Database
  | .nip65 publicKey list => updateNip65Relays database publicKey list
  | .nip17 publicKey list => updateNip17Relays database publicKey list
  | .count publicKey relay flags => updateRelayPerUser now database publicKey relay flags

theorem processEvent_eq_foldl (externals : Externals) (now : Timestamp) (database : Database)
    (event : Event) (relayUrl : Option RelayUrl) : processEvent externals now database event relayUrl =
      (updates externals event relayUrl).foldl (applyUpdate now) database := by
  unfold processEvent updates
  rw [List.foldl_append]
  have lists : (if event.kind.asU16 = 10002 then
      updateNip65Relays database event.pubkey (Nip65.extractRelayList externals event)
      else if event.kind.asU16 = 10050 then
        updateNip17Relays database event.pubkey (Nip17.extractRelayList externals event)
      else updateHints externals now database event) = (if event.kind.asU16 = 10002 then
      [Update.nip65 event.pubkey (Nip65.extractRelayList externals event)]
      else if event.kind.asU16 = 10050 then [.nip17 event.pubkey (Nip17.extractRelayList externals event)]
      else (Nip01.relayHints externals event).map fun hint => .count hint.1 hint.2 .hint).foldl
        (applyUpdate now) database := by
    split
    next => rfl
    next =>
      split
      next => rfl
      next => rw [List.foldl_map]; rfl
  rw [← lists]
  cases relayUrl with
  | none => rfl
  | some relayUrl => rfl

end Sqlite

/-! ## Flags in memory -/

namespace Memory

theorem removes_other {flag : GossipFlags} (member : flag ∈ allFlags)
    (other : readWriteMask.has flag = false) (flags : GossipFlags) :
    (flags.remove readWriteMask).has flag = flags.has flag := by
  obtain ⟨index, small, single⟩ := exists_index member
  rw [GossipFlags.has_remove flags readWriteMask small single, other, Bool.xor_false]

theorem has_listedFlags_other {flag : GossipFlags} (other : readWriteMask.has flag = false)
    (metadata : Option RelayMetadata) : (listedFlags metadata).has flag = false := by
  rw [readWriteMask, GossipFlags.has_add, Bool.or_eq_false_iff] at other
  cases metadata with
  | none => simp [listedFlags, other.1, other.2]
  | some metadata =>
      cases metadata with
      | read => exact other.1
      | write => exact other.2

/-- A list for reading and writing leaves the other flags alone. -/
theorem carried_updateNip65Relays_other {list : List (RelayUrl × Option RelayMetadata)} {data : PkData}
    {relay : RelayUrl} {flag : GossipFlags} (member : flag ∈ allFlags)
    (other : readWriteMask.has flag = false) :
    (carried (updateNip65Relays list data) relay flag).getD false =
      (carried data relay flag).getD false := by
  induction list generalizing data with
  | nil => rfl
  | cons entry list ih =>
      change (carried (updateNip65Relays list
        { data with relays := data.relays.upsert entry.1 (markListed entry.2) }) relay flag).getD false = _
      rw [ih, carried, IndexMap.get?_upsert, carried]
      split
      next same =>
        rw [same]
        cases data.relays.get? entry.1 with
        | none => simp [markListed, has_listedFlags_other other]
        | some data => simp [markListed, has_listedFlags_other other, removes_other member other]
      next => rfl

theorem carried_updateNip17Relays_other {list : List RelayUrl} {data : PkData} {relay : RelayUrl}
    {flag : GossipFlags} (other : GossipFlags.privateMessage.has flag = false) :
    (carried (updateNip17Relays list data) relay flag).getD false =
      (carried data relay flag).getD false := by
  induction list generalizing data with
  | nil => rfl
  | cons first list ih =>
      change (carried (updateNip17Relays list
        { data with relays := data.relays.upsert first markPrivateMessage }) relay flag).getD false = _
      rw [ih, carried, IndexMap.get?_upsert, carried]
      split
      next same =>
        rw [same]
        cases data.relays.get? first <;> simp [markPrivateMessage, other]
      next => rfl

theorem eq_of_mask {flag : GossipFlags} (member : flag ∈ allFlags)
    (mask : readWriteMask.has flag = true) : flag = .read ∨ flag = .write := by
  revert mask
  revert flag
  decide

theorem eq_privateMessage {flag : GossipFlags} (member : flag ∈ allFlags)
    (own : GossipFlags.privateMessage.has flag = true) : flag = .privateMessage := by
  revert own
  revert flag
  decide

/-- A relay that is counted is known, or there is room for it. -/
def Counts (data : PkData) (relay : RelayUrl) : Prop :=
  (data.relays.get? relay).isSome ∨ data.relays.len ≤ maxRelaysPerPk

theorem carried_counted {now : Timestamp} {data : PkData} {relayUrl relay : RelayUrl}
    {flags flag : GossipFlags} (counts : Counts data relayUrl) :
    (carried (updateRelayPerUser now data relayUrl flags) relay flag).getD false = true ↔
      (carried data relay flag).getD false = true ∨ relay = relayUrl ∧ flags.has flag = true := by
  have taken : (data.relays.get? relayUrl).isSome ∨ data.relays.len ≤ maxRelaysPerPk := counts
  unfold updateRelayPerUser
  dsimp only
  rw [if_pos taken, carried, carried]
  dsimp only
  rw [IndexMap.get?_upsert]
  split
  next same =>
    rw [same]
    cases data.relays.get? relayUrl <;> simp [countReceived]
  next other => simp [other]

/-- What an update finds so that it leaves the flags that it names and no others. -/
def Fits (named : RelayUrl → Prop) (store : Store) : Update → Prop
  | .nip65 publicKey list => store.Room publicKey ∧ ∀ relay, named relay →
      SettlesOn list (carried ((store.peek publicKey).getD {}) relay .read) relay forReading ∧
        SettlesOn list (carried ((store.peek publicKey).getD {}) relay .write) relay forWriting
  | .nip17 publicKey list => store.Room publicKey ∧ ∀ relay, named relay →
      ((flagsOf store publicKey relay).has .privateMessage = true → relay ∈ list) ∧
        (relay ∈ list.drop maxNip17Size → relay ∈ list.take maxNip17Size ∨
          (flagsOf store publicKey relay).has .privateMessage = true)
  | .count publicKey relay _ => store.Room publicKey ∧ Counts ((store.peek publicKey).getD {}) relay

end Memory

/-- Every relay of the update is one of those that are named. -/
def Update.Names (named : RelayUrl → Prop) : Update → Prop
  | .nip65 _ list => ∀ entry ∈ list, named entry.1
  | .nip17 _ list => ∀ relay ∈ list, named relay
  | .count _ relay _ => named relay

/-- The stores hold the same flags for every key and every relay that is named. -/
def Agree (named : RelayUrl → Prop) (memory : Memory.Store) (database : Sqlite.Database) : Prop :=
  ∀ publicKey relay, named relay → ∀ flag ∈ allFlags,
    (Sqlite.hasFlag (Sqlite.flagsOf database publicKey relay) flag = true ↔
      (Memory.flagsOf memory publicKey relay).has flag = true)

section Agreement

variable {named : RelayUrl → Prop}
  (ownTexts : ∀ relay relay', named relay → named relay' →
    Sqlite.urlText relay = Sqlite.urlText relay' → relay = relay')

theorem sqlite_listedFlags (metadata : Option RelayMetadata) :
    Sqlite.listedFlags metadata = Memory.listedFlags metadata := by
  cases metadata with
  | none => rfl
  | some metadata => cases metadata <;> rfl

include ownTexts in
/-- A list gives the named relay the flag in the database. -/
theorem exists_listed_iff {β : Type} {list : List (RelayUrl × β)} (names : ∀ entry ∈ list, named entry.1)
    {relay : RelayUrl} (isNamed : named relay) {marked : β → Bool} :
    (∃ entry ∈ list, Sqlite.urlText relay = Sqlite.urlText entry.1 ∧ marked entry.2 = true) ↔
      ∃ metadata, (relay, metadata) ∈ list ∧ marked metadata = true := by
  constructor
  · intro found
    obtain ⟨entry, member, texts, marks⟩ := found
    have same := ownTexts relay entry.1 isNamed (names entry member) texts
    exact ⟨entry.2, same ▸ member, marks⟩
  · intro found
    obtain ⟨metadata, member, marks⟩ := found
    exact ⟨(relay, metadata), member, rfl, marks⟩

include ownTexts in
/-- What a flag of a NIP-65 list is in the end, where the flags in memory settle on it. -/
theorem agree_nip65_marked {data : Memory.PkData} {database : Sqlite.Database} {publicKey : PublicKey}
    {list : List (RelayUrl × Option RelayMetadata)} (names : ∀ entry ∈ list, named entry.1)
    {relay : RelayUrl} (isNamed : named relay) {flag : GossipFlags} (member : flag ∈ allFlags)
    {marked : Option RelayMetadata → Bool} (mask : Memory.readWriteMask.has flag = true)
    (removes : ∀ flags : GossipFlags, (flags.remove Memory.readWriteMask).has flag = !flags.has flag)
    (adds : ∀ metadata, (Memory.listedFlags metadata).has flag = marked metadata)
    (settles : Memory.SettlesOn list (Memory.carried data relay flag) relay marked) :
    Sqlite.hasFlag (Sqlite.flagsOf (Sqlite.updateNip65Relays database publicKey list) publicKey relay) flag =
        true ↔
      (Memory.carried (Memory.updateNip65Relays (list.take Memory.maxNip65Size) data) relay flag).getD false =
        true := by
  have removed : Sqlite.readWriteFlags.has flag = true := mask
  rw [Memory.carried_updateNip65Relays removes adds, Memory.settlesOn_iff.mp settles,
    Sqlite.updateNip65Relays, Sqlite.has_foldl_listRelay member, Sqlite.has_removeFlag member]
  simp only [sqlite_listedFlags, adds, removed, and_self, not_true_eq_false, and_false, false_or, true_and,
    exists_listed_iff ownTexts names isNamed]

include ownTexts in
theorem agree_applyUpdate {memory : Memory.Store} {database : Sqlite.Database} {update : Update}
    (agree : Agree named memory database) (names : update.Names named)
    (fits : Memory.Fits named memory update) (memoryNow databaseNow : Timestamp) :
    Agree named (Memory.applyUpdate memoryNow memory update)
      (Sqlite.applyUpdate databaseNow database update) := by
  intro publicKey relay isNamed flag member
  have before := agree publicKey relay isNamed flag member
  rw [Memory.has_flagsOf] at before ⊢
  cases update with
  | nip65 publicKey' list =>
      obtain ⟨room, settles⟩ := fits
      rw [Sqlite.applyUpdate, Memory.applyUpdate, LruMap.peek_touch_of_room room]
      split
      next same =>
        subst same
        rw [Option.getD_some]
        obtain ⟨settlesRead, settlesWrite⟩ := settles relay isNamed
        cases mask : Memory.readWriteMask.has flag with
        | false =>
            have removed : Sqlite.readWriteFlags.has flag = false := mask
            rw [Memory.carried_updateNip65Relays_other member mask, ← before, Sqlite.updateNip65Relays,
              Sqlite.has_foldl_listRelay member, Sqlite.has_removeFlag member]
            simp [removed, sqlite_listedFlags, Memory.has_listedFlags_other mask]
        | true =>
            cases Memory.eq_of_mask member mask with
            | inl read =>
                subst read
                exact agree_nip65_marked ownTexts names isNamed member mask Memory.removes_read
                  Memory.has_listedFlags_read settlesRead
            | inr write =>
                subst write
                exact agree_nip65_marked ownTexts names isNamed member mask Memory.removes_write
                  Memory.has_listedFlags_write settlesWrite
      next other =>
        rw [← before, Sqlite.updateNip65Relays, Sqlite.has_foldl_listRelay member,
          Sqlite.has_removeFlag member]
        simp [other]
  | nip17 publicKey' list =>
      obtain ⟨room, settles⟩ := fits
      rw [Sqlite.applyUpdate, Memory.applyUpdate, LruMap.peek_touch_of_room room,
        Sqlite.updateNip17Relays, Sqlite.has_foldl_listRelay member, Sqlite.has_removeFlag member]
      split
      next same =>
        subst same
        rw [Option.getD_some]
        cases own : GossipFlags.privateMessage.has flag with
        | false =>
            rw [Memory.carried_updateNip17Relays_other own, ← before]
            simp
        | true =>
            have same := Memory.eq_privateMessage member own
            subst same
            have listed : (∃ entry ∈ list, Sqlite.urlText relay = Sqlite.urlText entry) ↔ relay ∈ list := by
              constructor
              · intro found
                obtain ⟨entry, here, texts⟩ := found
                exact ownTexts relay entry isNamed (names entry here) texts ▸ here
              · intro here
                exact ⟨relay, here, rfl⟩
            obtain ⟨kept, late⟩ := settles relay isNamed
            rw [Memory.has_flagsOf] at kept late
            have whole : relay ∈ list ↔
                relay ∈ list.take Memory.maxNip17Size ∨ relay ∈ list.drop Memory.maxNip17Size := by
              rw [← List.mem_append, List.take_append_drop]
            rw [Memory.carried_updateNip17Relays, Bool.or_eq_true, List.contains_iff_mem]
            simp only [and_self, not_true_eq_false, and_false, false_or, and_true, true_and, listed]
            rw [whole] at kept ⊢
            tauto
      next other => simp [other, before]
  | count publicKey' relay' flags =>
      obtain ⟨room, counts⟩ := fits
      rw [Sqlite.applyUpdate, Sqlite.has_updateRelayPerUser member, before, Memory.applyUpdate,
        LruMap.peek_touch_of_room room]
      split
      next same =>
        rw [Option.getD_some, Memory.carried_counted counts, same]
        have texts : Sqlite.urlText relay = Sqlite.urlText relay' ↔ relay = relay' :=
          ⟨ownTexts relay relay' isNamed names, congrArg _⟩
        simp [texts]
      next other => simp [other]

/-! ## Runs -/

/-- An event that both stores process, each at its own time. -/
structure Processed where
  event : Event
  relayUrl : Option RelayUrl
  memoryNow : Timestamp
  databaseNow : Timestamp

variable (externals : Externals)

def memoryAfter (memory : Memory.Store) (run : List Processed) : Memory.Store :=
  run.foldl (fun memory step =>
    Memory.processEvent externals step.memoryNow memory step.event step.relayUrl) memory

def databaseAfter (database : Sqlite.Database) (run : List Processed) : Sqlite.Database :=
  run.foldl (fun database step =>
    Sqlite.processEvent externals step.databaseNow database step.event step.relayUrl) database

/-- Each update finds what it needs in the store that the ones before it leave. -/
def FitInTurn (named : RelayUrl → Prop) (now : Timestamp) : Memory.Store → List Update → Prop
  | _, [] => True
  | memory, update :: rest => update.Names named ∧ Memory.Fits named memory update ∧
      FitInTurn named now (Memory.applyUpdate now memory update) rest

/-- Every update of every event of the run finds what it needs. -/
def RunFits (named : RelayUrl → Prop) : Memory.Store → List Processed → Prop
  | _, [] => True
  | memory, step :: rest =>
      FitInTurn named step.memoryNow memory (updates externals step.event step.relayUrl) ∧
        RunFits named (Memory.processEvent externals step.memoryNow memory step.event step.relayUrl) rest

include ownTexts in
theorem agree_foldl_applyUpdate {memoryNow databaseNow : Timestamp} {list : List Update}
    {memory : Memory.Store} {database : Sqlite.Database} (agree : Agree named memory database)
    (fits : FitInTurn named memoryNow memory list) :
    Agree named (list.foldl (Memory.applyUpdate memoryNow) memory)
      (list.foldl (Sqlite.applyUpdate databaseNow) database) := by
  induction list generalizing memory database with
  | nil => exact agree
  | cons update list ih =>
      obtain ⟨names, here, rest⟩ := fits
      exact ih (agree_applyUpdate ownTexts agree names here memoryNow databaseNow) rest

include ownTexts in
theorem agree_run {memory : Memory.Store} {database : Sqlite.Database} {run : List Processed}
    (agree : Agree named memory database) (fits : RunFits externals named memory run) :
    Agree named (memoryAfter externals memory run) (databaseAfter externals database run) := by
  induction run generalizing memory database with
  | nil => exact agree
  | cons step run ih =>
      obtain ⟨here, rest⟩ := fits
      refine ih ?_ rest
      dsimp only
      rw [Memory.processEvent_eq_foldl, Sqlite.processEvent_eq_foldl]
      exact agree_foldl_applyUpdate ownTexts agree here

theorem agree_empty {memory : Memory.Store} (empty : memory.entries = []) :
    Agree named memory .empty := by
  intro publicKey relay _ flag member
  have absent : memory.peek publicKey = none := by
    rw [LruMap.peek, empty]
    rfl
  rw [Memory.has_flagsOf, absent]
  change Sqlite.hasFlag 0#64 flag = true ↔ _
  rw [Sqlite.hasFlag_zero member]
  simp [Memory.carried]

include ownTexts in
/-- In a run whose updates all find what they need, the stores hold the same flags. -/
theorem stores_agree {memory : Memory.Store} (empty : memory.entries = []) {run : List Processed}
    (fits : RunFits externals named memory run) :
    Agree named (memoryAfter externals memory run) (databaseAfter externals .empty run) :=
  agree_run ownTexts externals (agree_empty empty) fits

end Agreement

namespace Agreement

open Memory.LatestLists

def sampleRelays : List RelayUrl := [⟨"wss://a.example"⟩, ⟨"wss://b.example"⟩]

theorem sampleRelays_ownTexts (relay relay' : RelayUrl) (member : relay ∈ sampleRelays)
    (member' : relay' ∈ sampleRelays) (same : Sqlite.urlText relay = Sqlite.urlText relay') :
    relay = relay' := by
  have each : ∀ relay ∈ sampleRelays, ∀ relay' ∈ sampleRelays,
      Sqlite.urlText relay = Sqlite.urlText relay' → relay = relay' := by decide
  exact each relay member relay' member' same

def sampleRun : List Processed := [⟨first, none, 0, 0⟩]

theorem sampleRun_fits : RunFits sampleExternals (· ∈ sampleRelays) .unbounded sampleRun := by
  have fits : Memory.Fits (· ∈ sampleRelays) .unbounded
      (.nip65 first.pubkey (Nip65.extractRelayList sampleExternals first)) := by
    have room : LruMap.Room (.unbounded : Memory.Store) first.pubkey :=
      .inr fun _ impossible => nomatch impossible
    refine ⟨room, ?_⟩
    unfold Memory.SettlesOn
    decide
  have names : (Update.nip65 first.pubkey (Nip65.extractRelayList sampleExternals first)).Names
      (· ∈ sampleRelays) := by
    unfold Update.Names
    decide
  exact ⟨⟨names, fits, trivial⟩, trivial⟩

end Agreement

open Agreement Memory.LatestLists in
theorem stores_agree_first : Agree (· ∈ sampleRelays)
    (memoryAfter sampleExternals .unbounded sampleRun)
    (databaseAfter sampleExternals .empty sampleRun) :=
  stores_agree sampleRelays_ownTexts sampleExternals rfl sampleRun_fits

open Agreement Memory.LatestLists in
/-- After the second list the store in memory still has the relay of the first one. -/
theorem stores_disagree : ¬ Agree (· ∈ sampleRelays)
    (memoryAfter sampleExternals .unbounded [⟨first, none, 0, 0⟩, ⟨second, none, 0, 0⟩])
    (databaseAfter sampleExternals .empty [⟨first, none, 0, 0⟩, ⟨second, none, 0, 0⟩]) := by
  intro agree
  have same := agree first.pubkey ⟨"wss://a.example"⟩ (by decide) .read (by decide)
  revert same
  decide

end RustNostr.NostrGossip
