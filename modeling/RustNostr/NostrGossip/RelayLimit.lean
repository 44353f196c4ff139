import Mathlib
import RustNostr.NostrGossip.Agreement

/-!
# The limit of relays per key in memory

How many relays the store in memory records for a key. Every part of an event names
relays for one key, and a relay that is named is recorded unless the key already has
more relays than the limit. So the limit holds as long as the relays of a key and those
that an event names for it fit into it.
-/

set_option autoImplicit false

namespace RustNostr.NostrGossip

open Library Memory.LatestLists

/-! ## What an update names -/

namespace Update

def publicKey : Update → PublicKey
  | .nip65 publicKey _ => publicKey
  | .nip17 publicKey _ => publicKey
  | .count publicKey _ _ => publicKey

/-- The relays that the store in memory takes from the update. -/
def relays : Update → List RelayUrl
  | .nip65 _ list => (list.take Memory.maxNip65Size).map Prod.fst
  | .nip17 _ list => list.take Memory.maxNip17Size
  | .count _ relay _ => [relay]

end Update

/-- The relays that the updates name for the key. -/
def namedRelays (list : List Update) (publicKey : PublicKey) : Finset RelayUrl :=
  ((list.filter fun update => update.publicKey = publicKey).flatMap Update.relays).toFinset

theorem namedRelays_concat (list : List Update) (update : Update) (publicKey : PublicKey) :
    namedRelays (list ++ [update]) publicKey = namedRelays list publicKey ∪
      if update.publicKey = publicKey then update.relays.toFinset else ∅ := by
  unfold namedRelays
  rw [List.filter_append, List.flatMap_append, List.toFinset_append, List.filter_singleton]
  by_cases own : update.publicKey = publicKey
  · simp [own]
  · simp [own]

theorem namedRelays_subset (list : List Update) (publicKey : PublicKey) :
    namedRelays list publicKey ⊆ (list.flatMap Update.relays).toFinset := by
  intro relay member
  obtain ⟨update, kept, own⟩ := List.mem_flatMap.mp (List.mem_toFinset.mp member)
  exact List.mem_toFinset.mpr (List.mem_flatMap.mpr ⟨update, List.mem_of_mem_filter kept, own⟩)

namespace Memory

/-! ## One key -/

/-- What an update does to the relays of its key. -/
def change (now : Timestamp) : Update → PkData → PkData
  | .nip65 _ list => updateNip65Relays (list.take maxNip65Size)
  | .nip17 _ list => updateNip17Relays (list.take maxNip17Size)
  | .count _ relay flags => fun data => updateRelayPerUser now data relay flags

theorem applyUpdate_eq (now : Timestamp) (store : Store) (update : Update) :
    applyUpdate now store update =
      store.touch update.publicKey fun data => change now update (data.getD {}) := by
  cases update with
  | nip65 => rfl
  | nip17 => rfl
  | count => rfl

theorem keys_updateNip65Relays (list : List (RelayUrl × Option RelayMetadata)) (data : PkData) :
    (updateNip65Relays list data).relays.keys = data.relays.keys ∪ (list.map Prod.fst).toFinset := by
  induction list using List.reverseRecOn with
  | nil => simp [updateNip65Relays]
  | append_singleton list entry ih =>
      have step : (updateNip65Relays (list ++ [entry]) data).relays =
          (updateNip65Relays list data).relays.upsert entry.1 (markListed entry.2) := by
        rw [updateNip65Relays, List.foldl_concat]
        rfl
      rw [step, IndexMap.keys_upsert, ih]
      simp [Finset.union_comm]

theorem keys_updateNip17Relays (list : List RelayUrl) (data : PkData) :
    (updateNip17Relays list data).relays.keys = data.relays.keys ∪ list.toFinset := by
  induction list using List.reverseRecOn with
  | nil => simp [updateNip17Relays]
  | append_singleton list relay ih =>
      have step : (updateNip17Relays (list ++ [relay]) data).relays =
          (updateNip17Relays list data).relays.upsert relay markPrivateMessage := by
        rw [updateNip17Relays, List.foldl_concat]
        rfl
      rw [step, IndexMap.keys_upsert, ih]
      simp [Finset.union_comm]

/-- The relays of an update are recorded, or the key has more than the limit and stays as
it is. -/
theorem keys_change (now : Timestamp) (update : Update) (data : PkData) :
    (change now update data).relays.keys = data.relays.keys ∪ update.relays.toFinset ∨
      change now update data = data ∧ maxRelaysPerPk < data.relays.len := by
  cases update with
  | nip65 publicKey list => exact .inl (keys_updateNip65Relays _ data)
  | nip17 publicKey list => exact .inl (keys_updateNip17Relays _ data)
  | count publicKey relay flags =>
      unfold change updateRelayPerUser
      dsimp only
      split
      next =>
        apply Or.inl
        rw [IndexMap.keys_upsert, Finset.insert_eq, Finset.union_comm]
        rfl
      next full => exact .inr ⟨rfl, by omega⟩

/-! ## The store -/

/-- The relays that are recorded for a key. -/
def recorded (store : Store) (publicKey : PublicKey) : Finset RelayUrl :=
  ((store.peek publicKey).getD {}).relays.keys

/-- No key has more relays than the limit. -/
def Limited (store : Store) : Prop :=
  ∀ publicKey, (recorded store publicKey).card ≤ maxRelaysPerPk

theorem recorded_of_empty {store : Store} (empty : store.entries = []) (publicKey : PublicKey) :
    recorded store publicKey = ∅ := by
  rw [recorded, LruMap.peek, empty]
  rfl

theorem recorded_applyUpdate_self (now : Timestamp) (store : Store) (update : Update) :
    recorded (applyUpdate now store update) update.publicKey =
      (change now update ((store.peek update.publicKey).getD {})).relays.keys := by
  rw [recorded, applyUpdate_eq, LruMap.peek_touch_self]
  rfl

/-- A key that is not the update's own stays or is evicted. -/
theorem recorded_applyUpdate_other {now : Timestamp} {store : Store} {update : Update}
    {publicKey : PublicKey} (other : update.publicKey ≠ publicKey) :
    recorded (applyUpdate now store update) publicKey ⊆ recorded store publicKey := by
  rw [recorded, applyUpdate_eq]
  cases found : (store.touch update.publicKey fun data => change now update (data.getD {})).peek
      publicKey with
  | none => exact Finset.empty_subset _
  | some data =>
      rw [recorded, LruMap.peek_of_peek_touch other.symm found]

theorem recorded_applyUpdate_subset (now : Timestamp) (store : Store) (update : Update)
    (publicKey : PublicKey) :
    recorded (applyUpdate now store update) publicKey ⊆ recorded store publicKey ∪
      if update.publicKey = publicKey then update.relays.toFinset else ∅ := by
  by_cases own : update.publicKey = publicKey
  · subst own
    rw [recorded_applyUpdate_self, if_pos rfl]
    cases keys_change now update ((store.peek update.publicKey).getD {}) with
    | inl taken => exact taken.subset
    | inr refused =>
        rw [refused.1]
        exact Finset.subset_union_left
  · rw [if_neg own, Finset.union_empty]
    exact recorded_applyUpdate_other own

/-- What the updates record, they name. -/
theorem recorded_foldl_subset (now : Timestamp) (store : Store) (list : List Update)
    (publicKey : PublicKey) :
    recorded (list.foldl (applyUpdate now) store) publicKey ⊆
      recorded store publicKey ∪ namedRelays list publicKey := by
  induction list using List.reverseRecOn with
  | nil => simp [namedRelays]
  | append_singleton list update ih =>
      rw [List.foldl_concat, namedRelays_concat, ← Finset.union_assoc]
      exact (recorded_applyUpdate_subset ..).trans (Finset.union_subset_union_left ih)

theorem cap_foldl_applyUpdate (now : Timestamp) (store : Store) (list : List Update) :
    (list.foldl (applyUpdate now) store).cap = store.cap := by
  induction list generalizing store with
  | nil => rfl
  | cons update list ih =>
      rw [List.foldl_cons, ih, applyUpdate_eq]
      rfl

/-- Without evictions, a key that ends up within the limit has all relays that the update
names for it. -/
theorem recorded_applyUpdate_of_limited {now : Timestamp} {store : Store} (unbounded : store.cap = none)
    {update : Update} {publicKey : PublicKey}
    (limited : (recorded (applyUpdate now store update) publicKey).card ≤ maxRelaysPerPk) :
    recorded (applyUpdate now store update) publicKey = recorded store publicKey ∪
      if update.publicKey = publicKey then update.relays.toFinset else ∅ := by
  by_cases own : update.publicKey = publicKey
  · subst own
    rw [recorded_applyUpdate_self] at limited ⊢
    rw [if_pos rfl]
    cases keys_change now update ((store.peek update.publicKey).getD {}) with
    | inl taken => exact taken
    | inr refused =>
        rw [refused.1, IndexMap.card_keys] at limited
        exact absurd limited (Nat.not_le.mpr refused.2)
  · have room : store.Room update.publicKey := .inr fun limit bounded => by
      rw [unbounded] at bounded
      cases bounded
    rw [if_neg own, Finset.union_empty, recorded, applyUpdate_eq, LruMap.peek_touch_of_room room,
      if_neg (Ne.symm own)]
    rfl

theorem recorded_foldl_of_limited {now : Timestamp} {store : Store} (unbounded : store.cap = none)
    {list : List Update} {publicKey : PublicKey}
    (limited : (recorded (list.foldl (applyUpdate now) store) publicKey).card ≤ maxRelaysPerPk) :
    recorded (list.foldl (applyUpdate now) store) publicKey =
      recorded store publicKey ∪ namedRelays list publicKey := by
  induction list using List.reverseRecOn with
  | nil => simp [namedRelays]
  | append_singleton list update ih =>
      rw [List.foldl_concat] at limited ⊢
      have free : (list.foldl (applyUpdate now) store).cap = none := by
        rw [cap_foldl_applyUpdate, unbounded]
      have last := recorded_applyUpdate_of_limited free limited
      have before : (recorded (list.foldl (applyUpdate now) store) publicKey).card ≤ maxRelaysPerPk := by
        rw [last] at limited
        exact (Finset.card_le_card Finset.subset_union_left).trans limited
      rw [last, ih before, namedRelays_concat, Finset.union_assoc]

/-! ## Runs -/

variable (externals : Externals)

/-- For every key, its relays and those that the event names for it are within the limit. -/
def RelaysFit (store : Store) (step : Processed) : Prop :=
  ∀ publicKey, (recorded store publicKey ∪
    namedRelays (updates externals step.event step.relayUrl) publicKey).card ≤ maxRelaysPerPk

variable {externals}

theorem limited_processEvent {store : Store} {step : Processed} (fit : RelaysFit externals store step) :
    Limited (processEvent externals step.memoryNow store step.event step.relayUrl) := by
  intro publicKey
  rw [processEvent_eq_foldl]
  exact (Finset.card_le_card (recorded_foldl_subset ..)).trans (fit publicKey)

theorem fit_of_limited {store : Store} (unbounded : store.cap = none) {step : Processed}
    (limited : Limited (processEvent externals step.memoryNow store step.event step.relayUrl)) :
    RelaysFit externals store step := by
  intro publicKey
  have within := limited publicKey
  rw [processEvent_eq_foldl] at within
  rw [← recorded_foldl_of_limited unbounded within]
  exact within

end Memory

open Memory

variable (externals : Externals)

theorem memoryAfter_concat (memory : Memory.Store) (run : List Processed) (step : Processed) :
    memoryAfter externals memory (run ++ [step]) =
      processEvent externals step.memoryNow (memoryAfter externals memory run) step.event step.relayUrl :=
  List.foldl_concat ..

theorem cap_memoryAfter (memory : Memory.Store) (run : List Processed) :
    (memoryAfter externals memory run).cap = memory.cap := by
  induction run using List.reverseRecOn with
  | nil => rfl
  | append_singleton run step ih =>
      rw [memoryAfter_concat, processEvent_eq_foldl, cap_foldl_applyUpdate, ih]

/-- The limit holds in every state of a run in which every event fits where it is
processed; in a store without a capacity it holds in no other run. -/
theorem relays_limited_iff {memory : Memory.Store} (empty : memory.entries = []) (run : List Processed) :
    ((∀ earlier step, earlier ++ [step] <+: run → RelaysFit externals (memoryAfter externals memory earlier) step) →
      ∀ earlier, earlier <+: run → Limited (memoryAfter externals memory earlier)) ∧
    (memory.cap = none → (∀ earlier, earlier <+: run → Limited (memoryAfter externals memory earlier)) →
      ∀ earlier step, earlier ++ [step] <+: run →
        RelaysFit externals (memoryAfter externals memory earlier) step) := by
  constructor
  · intro fit earlier before
    cases earlier using List.reverseRecOn with
    | nil =>
        intro publicKey
        rw [memoryAfter, List.foldl_nil, recorded_of_empty empty]
        exact Nat.zero_le _
    | append_singleton earlier step =>
        rw [memoryAfter_concat]
        exact limited_processEvent (fit earlier step before)
  · intro unbounded limited earlier step before
    have after := limited (earlier ++ [step]) before
    rw [memoryAfter_concat] at after
    exact fit_of_limited ((cap_memoryAfter externals memory earlier).trans unbounded) after

namespace Agreement

theorem sampleRun_fit (earlier : List Processed) (step : Processed) (before : earlier ++ [step] <+: sampleRun) :
    RelaysFit sampleExternals (memoryAfter sampleExternals .unbounded earlier) step := by
  have short := before.length_le
  rw [List.length_append, List.length_singleton, sampleRun, List.length_singleton] at short
  have first : earlier = [] := List.eq_nil_of_length_eq_zero (by omega)
  subst first
  obtain ⟨rfl, _⟩ := List.cons_prefix_cons.mp before
  intro publicKey
  rw [memoryAfter, List.foldl_nil, recorded_of_empty rfl, Finset.empty_union]
  exact (Finset.card_le_card (namedRelays_subset ..)).trans (by decide)

end Agreement

open Agreement in
theorem relays_limited_first : Limited (memoryAfter sampleExternals .unbounded sampleRun) :=
  (relays_limited_iff sampleExternals rfl sampleRun).1 sampleRun_fit sampleRun List.prefix_rfl

namespace Agreement

/-- A note of one author that comes from the relay. -/
def deliveredFrom (relay : String) : Processed where
  event := { first with kind := .custom 1, tags := [] }
  relayUrl := some ⟨relay⟩
  memoryNow := 0
  databaseNow := 0

def eightDeliveries : List Processed :=
  ["wss://a.example", "wss://b.example", "wss://c.example", "wss://d.example", "wss://e.example",
    "wss://f.example", "wss://g.example", "wss://h.example"].map deliveredFrom

end Agreement

open Agreement in
/-- With seven relays recorded, the eighth is not refused. -/
theorem eightDeliveries_not_limited :
    ¬ Limited (memoryAfter sampleExternals .unbounded eightDeliveries) := by
  intro limited
  have eight : (recorded (memoryAfter sampleExternals .unbounded eightDeliveries) first.pubkey).card = 8 := by
    decide +kernel
  have within := limited first.pubkey
  rw [eight] at within
  exact absurd within (by decide)

end RustNostr.NostrGossip
