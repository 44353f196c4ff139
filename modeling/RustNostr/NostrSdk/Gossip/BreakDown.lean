import Mathlib
import RustNostr.Nostr.Hex
import RustNostr.NostrSdk.Gossip.Resolver

/-!
# What breaking a filter down keeps

The lookups for a filter yield keys for relays. Where two lookups yield the same relay,
the later one takes the place of the earlier, so that a relay keeps the keys of the last
lookup only.
-/

set_option autoImplicit false

namespace RustNostr.NostrSdk.Gossip

open Library NostrGossip

section Lookups

variable (gossip : Store) (allowed : GossipAllowedRelays) (publicKeys : List PublicKey)

/-- The lookup returns the relay for the key, which is one of those that are looked up. -/
def Returned (selection : BestRelaySelection) (relay : RelayUrl) (key : PublicKey) : Prop :=
  key ∈ publicKeys ∧
    ∃ relays, gossip.getBestRelays key selection allowed = .ok relays ∧ relay ∈ relays.elems

variable {gossip allowed publicKeys}

variable {selection : BestRelaySelection} {β : Type} {add : β → SortedSet RelayUrl → PublicKey → β}

/-- What one answer adds, the lookups for all keys add together. -/
theorem foldlM_lookup_iff (holds : β → Prop) (wanted : PublicKey → SortedSet RelayUrl → Prop)
    (step : ∀ state relays key, holds (add state relays key) ↔ holds state ∨ wanted key relays)
    {start last : β} (ran : publicKeys.foldlM (fun state key => do
      let relays ← gossip.getBestRelays key selection allowed
      pure (add state relays key)) start = .ok last) :
    holds last ↔ holds start ∨ ∃ key ∈ publicKeys, ∃ relays,
      gossip.getBestRelays key selection allowed = .ok relays ∧ wanted key relays := by
  induction publicKeys generalizing start with
  | nil =>
      cases ran
      simp
  | cons key publicKeys ih =>
      rw [List.foldlM_cons] at ran
      cases looked : gossip.getBestRelays key selection allowed with
      | error failure =>
          rw [looked] at ran
          cases ran
      | ok relays =>
          rw [looked] at ran
          have here : (∃ relays, gossip.getBestRelays key selection allowed = .ok relays ∧
              wanted key relays) ↔ wanted key relays := by simp [looked]
          rw [ih ran, step, List.exists_mem_cons_iff, here, or_assoc]

theorem foldlM_lookup_preserves {holds : β → Prop}
    (step : ∀ state relays key, holds state → holds (add state relays key)) {start last : β}
    (ran : publicKeys.foldlM (fun state key => do
      let relays ← gossip.getBestRelays key selection allowed
      pure (add state relays key)) start = .ok last) (first : holds start) : holds last := by
  induction publicKeys generalizing start with
  | nil =>
      cases ran
      exact first
  | cons key publicKeys ih =>
      rw [List.foldlM_cons] at ran
      cases looked : gossip.getBestRelays key selection allowed with
      | error failure =>
          rw [looked] at ran
          cases ran
      | ok relays =>
          rw [looked] at ran
          exact ih ran (step start relays key first)

theorem mapRelays_ok {urls : Groups RelayUrl PublicKey}
    (mapped : mapRelays gossip allowed publicKeys selection = .ok urls) :
    urls.Inhabits ∧ ∀ relay key, urls.Has relay key ↔
      Returned gossip allowed publicKeys selection relay key := by
  refine ⟨foldlM_lookup_preserves (fun _ relays key inhabited => inhabited.addAll relays.elems key)
    mapped .empty, ?_⟩
  intro relay key
  have answers := foldlM_lookup_iff (fun urls => Groups.Has urls relay key)
    (fun other relays => relay ∈ relays.elems ∧ key = other)
    (fun _ _ _ => Groups.has_addAll.trans or_comm) mapped
  rw [answers, or_iff_right (Groups.not_has_empty relay key)]
  constructor
  · intro found
    obtain ⟨other, member, relays, looked, listed, same⟩ := found
    exact ⟨same ▸ member, relays, same ▸ looked, listed⟩
  · intro returned
    obtain ⟨member, relays, looked, listed⟩ := returned
    exact ⟨key, member, relays, looked, listed, rfl⟩

theorem mem_elems_extend {α : Type} [LinearOrder α] {left right : SortedSet α} {element : α} :
    element ∈ SortedSet.elems (left.extend right) ↔ element ∈ left.elems ∨ element ∈ right.elems := by
  simp only [SortedSet.mem_elems, SortedTable.get?_extend]
  cases right.get? element with
  | none => simp
  | some found => simp

theorem getRelays_ok {urls : SortedSet RelayUrl}
    (got : getRelays gossip allowed publicKeys selection = .ok urls) (relay : RelayUrl) :
    relay ∈ urls.elems ↔ ∃ key, Returned gossip allowed publicKeys selection relay key := by
  have answers := foldlM_lookup_iff (fun urls => relay ∈ SortedSet.elems urls)
    (fun _ relays => relay ∈ relays.elems) (fun _ _ _ => mem_elems_extend) got
  have nothing : relay ∉ SortedSet.elems (.empty : SortedSet RelayUrl) := by simp [SortedSet.mem_elems]
  rw [answers, or_iff_right nothing]
  constructor
  · intro found
    obtain ⟨key, member, relays, looked, listed⟩ := found
    exact ⟨key, member, relays, looked, listed⟩
  · intro found
    obtain ⟨key, member, relays, looked, listed⟩ := found
    exact ⟨key, member, relays, looked, listed⟩

/-- The lookups of a filter that has authors only or `p` tags only, in their order. -/
def singleLookups (selection : BestRelaySelection) (pattern : GossipFilterPattern)
    (limits : GossipRelayLimits) : List BestRelaySelection :=
  [selection, .hints limits.hintRelaysPerUser, .mostReceived limits.mostUsedRelaysPerUser] ++
    if pattern.hasNip17 then [.privateMessage limits.nip17Relays] else []

theorem nip17Relays_ok {α : Type} {pattern : GossipFilterPattern} {limits : GossipRelayLimits}
    {lookup : BestRelaySelection → Except Error α} {relays : Option α}
    (got : nip17Relays pattern limits lookup = .ok relays) :
    pattern.hasNip17 = false ∧ relays = none ∨ pattern.hasNip17 = true ∧
      ∃ found, relays = some found ∧ lookup (.privateMessage limits.nip17Relays) = .ok found := by
  unfold nip17Relays at got
  split at got
  next wanted =>
    cases looked : lookup (.privateMessage limits.nip17Relays) with
    | error failure =>
        rw [looked] at got
        cases got
    | ok found =>
        rw [looked] at got
        cases got
        exact .inr ⟨wanted, found, rfl, rfl⟩
  next unwanted =>
    cases got
    exact .inl ⟨Bool.eq_false_iff.mpr unwanted, rfl⟩

/-- A relay is left with the keys that the last lookup returns it for. -/
theorem keyRelays_ok {pattern : GossipFilterPattern} {limits : GossipRelayLimits}
    {urls : Groups RelayUrl PublicKey}
    (got : keyRelays gossip allowed publicKeys selection pattern limits = .ok urls) :
    urls.Inhabits ∧ ∀ relay key, urls.Has relay key ↔
      KeptBy (Returned gossip allowed publicKeys) (singleLookups selection pattern limits) relay key := by
  obtain ⟨listed, gotListed, got⟩ := ok_of_bind got
  obtain ⟨hints, gotHints, got⟩ := ok_of_bind got
  obtain ⟨received, gotReceived, got⟩ := ok_of_bind got
  obtain ⟨nip17, gotNip17, got⟩ := ok_of_bind got
  obtain ⟨listedInhabits, hasListed⟩ := mapRelays_ok gotListed
  obtain ⟨hintsInhabits, hasHints⟩ := mapRelays_ok gotHints
  obtain ⟨receivedInhabits, hasReceived⟩ := mapRelays_ok gotReceived
  have inhabits : Groups.Inhabits ((listed.extend hints).extend received) :=
    (listedInhabits.extend hintsInhabits).extend receivedInhabits
  cases got
  cases nip17Relays_ok gotNip17 with
  | inl without =>
      obtain ⟨unwanted, none⟩ := without
      subst none
      refine ⟨inhabits, ?_⟩
      intro relay key
      have each : ∀ groups ∈ [hints, received], groups.Inhabits := by
        simp [hintsInhabits, receivedInhabits]
      have left := Groups.has_foldl_extend each listed relay key
      rw [singleLookups, unwanted]
      refine left.trans (keptBy_congr ?_ relay key)
      exact .cons hasListed (.cons hasHints (.cons hasReceived .nil))
  | inr with_ =>
      obtain ⟨wanted, messages, some_, gotMessages⟩ := with_
      subst some_
      obtain ⟨messagesInhabits, hasMessages⟩ := mapRelays_ok gotMessages
      refine ⟨inhabits.extend messagesInhabits, ?_⟩
      intro relay key
      have each : ∀ groups ∈ [hints, received, messages], groups.Inhabits := by
        simp [hintsInhabits, receivedInhabits, messagesInhabits]
      have left := Groups.has_foldl_extend each listed relay key
      rw [singleLookups, wanted]
      refine left.trans (keptBy_congr ?_ relay key)
      exact .cons hasListed (.cons hasHints (.cons hasReceived (.cons hasMessages .nil)))

theorem allRelays_ok {pattern : GossipFilterPattern} {limits : GossipRelayLimits}
    {relays : SortedSet RelayUrl} {nip17 : Option (SortedSet RelayUrl)}
    (got : getRelays gossip allowed publicKeys selection = .ok relays)
    (gotNip17 : nip17Relays pattern limits (getRelays gossip allowed publicKeys) = .ok nip17)
    (relay : RelayUrl) : relay ∈ SortedSet.elems (nip17.elim relays relays.extend) ↔
      ∃ lookup ∈ selection :: (if pattern.hasNip17 then [.privateMessage limits.nip17Relays] else []),
        ∃ key, Returned gossip allowed publicKeys lookup relay key := by
  cases nip17Relays_ok gotNip17 with
  | inl without =>
      obtain ⟨unwanted, none⟩ := without
      simp [unwanted, none, getRelays_ok got]
  | inr with_ =>
      obtain ⟨wanted, messages, some_, gotMessages⟩ := with_
      simp [wanted, some_, mem_elems_extend, getRelays_ok got, getRelays_ok gotMessages]

end Lookups

/-! ## The filters of the relays -/

/-- The relay has a filter of which this holds. -/
def Carries (broken : BrokenDownFilters) (relay : RelayUrl) (holds : Filter → Prop) : Prop :=
  ∃ map sub, broken = .filters map ∧ map.get? relay = some sub ∧ holds sub

def HasAuthor (filter : Filter) (key : PublicKey) : Prop :=
  ∃ authors, filter.authors = some authors ∧ key ∈ authors.elems

/-- A value of the filter's `p` tag is read as the key. -/
def HasPTag (externals : Externals) (filter : Filter) (key : PublicKey) : Prop :=
  ∃ values, filter.genericTags.get? .lowercaseP = some values ∧
    ∃ value ∈ values.elems, externals.hexDecode value = some key

theorem carries_perRelay {ν : Type} {filter : Filter} {relays : SortedTable RelayUrl ν}
    {change : ν → Filter} {relay : RelayUrl} {holds : Filter → Prop} :
    Carries (perRelay filter relays change) relay holds ↔
      ∃ value, relays.get? relay = some value ∧ holds (change value) := by
  unfold perRelay Carries
  split
  next none =>
    have nothing : relays.get? relay = Option.none := by
      rw [SortedTable.get?, List.isEmpty_iff.mp none]
      rfl
    simp [nothing]
  next some_ => simp [SortedTable.get?_mapValues]

theorem hasAuthor_withAuthors {filter : Filter} {keys : SortedSet PublicKey} {key : PublicKey} :
    HasAuthor (withAuthors filter keys) key ↔ key ∈ keys.elems := by
  simp [HasAuthor, withAuthors]

variable {externals : Externals}

theorem mem_elems_ofList {α : Type} [LinearOrder α] {elements : List α} {element : α} :
    element ∈ (SortedSet.ofList elements).elems ↔ element ∈ elements := by
  rw [SortedSet.mem_elems, SortedSet.get?_ofList]

theorem hasPTag_withPTag (codec : HexCodec externals) {filter : Filter} {keys : SortedSet PublicKey}
    {key : PublicKey} : HasPTag externals (withPTag externals filter keys) key ↔ key ∈ keys.elems := by
  simp only [HasPTag, withPTag, SortedTable.get?_put, if_true, Option.some.injEq, exists_eq_left',
    mem_elems_ofList, List.mem_map, codec.encode]
  constructor
  · intro found
    obtain ⟨value, written, read⟩ := found
    obtain ⟨other, member, same⟩ := written
    rw [← same, codec.decode] at read
    cases read
    exact member
  · intro member
    exact ⟨_, ⟨key, member, rfl⟩, codec.decode key⟩

theorem mem_pTag {filter : Filter} {keys : SortedSet PublicKey} (tagged : pTag externals filter = some keys)
    {key : PublicKey} : key ∈ keys.elems ↔ HasPTag externals filter key := by
  unfold pTag at tagged
  cases values : filter.genericTags.get? .lowercaseP with
  | none =>
      rw [values] at tagged
      cases tagged
  | some values =>
      rw [values] at tagged
      cases tagged
      simp [HasPTag, values, mem_elems_ofList]

theorem not_hasPTag {filter : Filter} (untagged : pTag externals filter = none) (key : PublicKey) :
    ¬ HasPTag externals filter key := by
  intro found
  obtain ⟨values, tagged, _⟩ := found
  rw [pTag, tagged] at untagged
  cases untagged

/-! ## The three cases -/

section Cases

variable {gossip : Store} {allowed : GossipAllowedRelays} {filter : Filter}
  {pattern : GossipFilterPattern} {limits : GossipRelayLimits} {broken : BrokenDownFilters}
  (ok : breakDownFilter gossip allowed externals filter pattern limits = .ok broken)

include ok

theorem breakDownFilter_authors {authors : SortedSet PublicKey} (some_ : filter.authors = some authors)
    (untagged : pTag externals filter = none) :
    ∃ outbox : Groups RelayUrl PublicKey, broken = perRelay filter outbox (withAuthors filter) ∧
      outbox.Inhabits ∧ ∀ relay key, outbox.Has relay key ↔
        KeptBy (Returned gossip allowed authors.elems)
          (singleLookups (.write limits.writeRelaysPerUser) pattern limits) relay key := by
  unfold breakDownFilter at ok
  rw [some_, untagged] at ok
  obtain ⟨outbox, got, ok⟩ := ok_of_bind ok
  cases ok
  exact ⟨outbox, rfl, keyRelays_ok got⟩

theorem breakDownFilter_pTag {publicKeys : SortedSet PublicKey} (none_ : filter.authors = none)
    (tagged : pTag externals filter = some publicKeys) :
    ∃ inbox : Groups RelayUrl PublicKey, broken = perRelay filter inbox (withPTag externals filter) ∧
      inbox.Inhabits ∧ ∀ relay key, inbox.Has relay key ↔
        KeptBy (Returned gossip allowed publicKeys.elems)
          (singleLookups (.read limits.readRelaysPerUser) pattern limits) relay key := by
  unfold breakDownFilter at ok
  rw [none_, tagged] at ok
  obtain ⟨inbox, got, ok⟩ := ok_of_bind ok
  cases ok
  exact ⟨inbox, rfl, keyRelays_ok got⟩

theorem breakDownFilter_both {authors publicKeys : SortedSet PublicKey}
    (some_ : filter.authors = some authors) (tagged : pTag externals filter = some publicKeys) :
    ∃ relays : SortedSet RelayUrl, broken = perRelay filter relays (fun _ => filter) ∧
      ∀ relay, relay ∈ relays.elems ↔
        ∃ lookup ∈ BestRelaySelection.all limits.readRelaysPerUser limits.writeRelaysPerUser
            limits.hintRelaysPerUser limits.mostUsedRelaysPerUser ::
            (if pattern.hasNip17 then [.privateMessage limits.nip17Relays] else []),
          ∃ key, Returned gossip allowed (SortedSet.elems (authors.extend publicKeys)) lookup relay key := by
  unfold breakDownFilter at ok
  rw [some_, tagged] at ok
  obtain ⟨relays, got, ok⟩ := ok_of_bind ok
  obtain ⟨nip17, gotNip17, ok⟩ := ok_of_bind ok
  cases ok
  exact ⟨_, rfl, allRelays_ok got gotNip17⟩

end Cases

theorem carries_withAuthors {filter : Filter} {outbox : Groups RelayUrl PublicKey} {relay : RelayUrl}
    {key : PublicKey} : Carries (perRelay filter outbox (withAuthors filter)) relay
      (fun sub => HasAuthor sub key) ↔ outbox.Has relay key := by
  rw [carries_perRelay]
  simp only [hasAuthor_withAuthors, Groups.Has]

theorem carries_withPTag (codec : HexCodec externals) {filter : Filter}
    {inbox : Groups RelayUrl PublicKey} {relay : RelayUrl} {key : PublicKey} :
    Carries (perRelay filter inbox (withPTag externals filter)) relay
      (fun sub => HasPTag externals sub key) ↔ inbox.Has relay key := by
  rw [carries_perRelay]
  simp only [hasPTag_withPTag codec, Groups.Has]

/-! ## What is lost -/

section Loses

variable (externals) (filter : Filter) (pattern : GossipFilterPattern) (limits : GossipRelayLimits)

/-- The keys that relays are looked up for. -/
def routedKeys : List PublicKey :=
  match filter.authors, pTag externals filter with
  | some authors, none => authors.elems
  | none, some publicKeys => publicKeys.elems
  | some authors, some publicKeys => SortedSet.elems (authors.extend publicKeys)
  | none, none => []

/-- The lookups for every key, in their order. -/
def lookups : List BestRelaySelection :=
  match filter.authors, pTag externals filter with
  | some _, none => singleLookups (.write limits.writeRelaysPerUser) pattern limits
  | none, some _ => singleLookups (.read limits.readRelaysPerUser) pattern limits
  | some _, some _ =>
      .all limits.readRelaysPerUser limits.writeRelaysPerUser limits.hintRelaysPerUser
        limits.mostUsedRelaysPerUser ::
        if pattern.hasNip17 then [.privateMessage limits.nip17Relays] else []
  | none, none => []

variable (gossip : Store) (allowed : GossipAllowedRelays)

/-- Every relay that a lookup returns for a key has a filter with that key. -/
def LosesNothing (broken : BrokenDownFilters) : Prop :=
  ∀ selection ∈ lookups externals filter pattern limits, ∀ relay key,
    Returned gossip allowed (routedKeys externals filter) selection relay key →
      (HasAuthor filter key → Carries broken relay fun sub => HasAuthor sub key) ∧
      (HasPTag externals filter key → Carries broken relay fun sub => HasPTag externals sub key)

/-- Of the lookups that return a relay at all, the last returns it for every key that
any of them returns it for. -/
def LastReturnsAll : Prop :=
  ∀ selection ∈ lookups externals filter pattern limits, ∀ relay key,
    Returned gossip allowed (routedKeys externals filter) selection relay key →
      KeptBy (Returned gossip allowed (routedKeys externals filter))
        (lookups externals filter pattern limits) relay key

variable {externals filter pattern limits gossip allowed}

/-- No key is lost exactly if the filter has both authors and `p` tags, or no lookup
drops a key of a relay that an earlier one returned. -/
theorem breakDownFilter_losesNothing_iff (codec : HexCodec externals) {broken : BrokenDownFilters}
    (ok : breakDownFilter gossip allowed externals filter pattern limits = .ok broken) :
    LosesNothing externals filter pattern limits gossip allowed broken ↔
      filter.authors.isSome ∧ (pTag externals filter).isSome ∨
        LastReturnsAll externals filter pattern limits gossip allowed := by
  unfold LosesNothing LastReturnsAll routedKeys lookups
  cases some_ : filter.authors with
  | none =>
      cases tagged : pTag externals filter with
      | none => simp
      | some publicKeys =>
          obtain ⟨inbox, shape, _, has⟩ := breakDownFilter_pTag ok some_ tagged
          subst shape
          simp only [Option.isSome_none, Bool.false_eq_true, false_and, false_or, ← has,
            carries_withPTag codec]
          constructor
          · intro nothing selection member relay key returned
            exact (nothing selection member relay key returned).2 ((mem_pTag tagged).mp returned.1)
          · intro last selection member relay key returned
            refine ⟨?_, fun _ => last selection member relay key returned⟩
            intro author
            obtain ⟨others, absent, _⟩ := author
            rw [some_] at absent
            cases absent
  | some authors =>
      cases tagged : pTag externals filter with
      | none =>
          obtain ⟨outbox, shape, _, has⟩ := breakDownFilter_authors ok some_ tagged
          subst shape
          simp only [Option.isSome_none, Bool.false_eq_true, and_false, false_or, ← has,
            carries_withAuthors]
          constructor
          · intro nothing selection member relay key returned
            exact (nothing selection member relay key returned).1 ⟨authors, some_, returned.1⟩
          · intro last selection member relay key returned
            exact ⟨fun _ => last selection member relay key returned,
              fun tag => absurd tag (not_hasPTag tagged key)⟩
      | some publicKeys =>
          obtain ⟨relays, shape, listed⟩ := breakDownFilter_both ok some_ tagged
          subst shape
          simp only [Option.isSome_some, and_self, true_or, iff_true]
          intro selection member relay key returned
          have found := SortedSet.mem_elems.mp ((listed relay).mpr ⟨selection, member, key, returned⟩)
          have carries : ∀ holds : Filter → Prop, holds filter →
              Carries (perRelay filter relays fun _ => filter) relay holds :=
            fun holds held => carries_perRelay.mpr ⟨(), found, held⟩
          exact ⟨carries fun sub => HasAuthor sub key, carries fun sub => HasPTag externals sub key⟩

end Loses

namespace BreakDown

def sampleKey (byte : UInt8) : PublicKey := ⟨List.replicate 32 byte, rfl⟩

def sampleRelay : RelayUrl := ⟨"wss://relay.example.com"⟩

/-- Both keys write to the relay; only the first one has been hinted there. -/
def sampleStore : Store where
  getBestRelays key selection _ :=
    match selection with
    | .write _ => .ok (SortedSet.ofList [sampleRelay])
    | .hints _ => .ok (if key = sampleKey 1 then SortedSet.ofList [sampleRelay] else .empty)
    | _ => .ok .empty

def sampleFilter : Filter := { authors := some (SortedSet.ofList [sampleKey 1, sampleKey 2]) }

end BreakDown

open BreakDown in
theorem breakDownFilter_losesNothing_iff_twoAuthors : ∃ broken,
    breakDownFilter sampleStore {} hexExternals sampleFilter .nip65 {} = .ok broken ∧
      (LosesNothing hexExternals sampleFilter .nip65 {} sampleStore {} broken ↔
        sampleFilter.authors.isSome ∧ (pTag hexExternals sampleFilter).isSome ∨
          LastReturnsAll hexExternals sampleFilter .nip65 {} sampleStore {}) :=
  ⟨_, rfl, breakDownFilter_losesNothing_iff hexExternals_hexCodec rfl⟩

open BreakDown in
/-- The hint for the first key takes the second key away from the relay of both. -/
theorem breakDownFilter_losesKey : ∃ broken,
    breakDownFilter sampleStore {} hexExternals sampleFilter .nip65 {} = .ok broken ∧
      ¬ LosesNothing hexExternals sampleFilter .nip65 {} sampleStore {} broken := by
  refine ⟨_, rfl, ?_⟩
  intro nothing
  have second : sampleKey 2 ∈ SortedSet.elems (SortedSet.ofList [sampleKey 1, sampleKey 2]) :=
    mem_elems_ofList.mpr (by simp)
  have returned : Returned sampleStore {} (routedKeys hexExternals sampleFilter) (.write 3) sampleRelay
      (sampleKey 2) :=
    ⟨second, SortedSet.ofList [sampleRelay], rfl, mem_elems_ofList.mpr (List.mem_singleton_self _)⟩
  have author : HasAuthor sampleFilter (sampleKey 2) := ⟨_, rfl, second⟩
  have first : BestRelaySelection.write 3 ∈ lookups hexExternals sampleFilter .nip65 {} :=
    List.mem_cons_self
  obtain ⟨map, sub, shape, found, has⟩ :=
    (nothing (.write 3) first sampleRelay (sampleKey 2) returned).1 author
  cases shape
  cases found
  obtain ⟨authors, same, member⟩ := has
  cases same
  revert member
  decide

end RustNostr.NostrSdk.Gossip
