import Mathlib
import RustNostr.NostrSdk.Gossip.BreakDown

/-!
# What the filters of the relays match

Together they match what the filter matches, as far as the keys of the event have
relays. An event whose keys have none is left out.
-/

set_option autoImplicit false

namespace RustNostr.NostrSdk.Gossip

open Library NostrGossip

/-- The names and values that the tags of a filter are compared with. -/
def indexes (event : Event) : List (SingleLetterTag × String) :=
  event.tags.filterMap fun tag =>
    tag.singleLetterTag.bind fun name => tag.content.map fun value => (name, value)

/-- What a filter asks of an event apart from its author and its `p` tags. -/
structure Others (filter : Filter) (event : Event) : Prop where
  ids : filter.idsMatch event = true
  kinds : filter.kindMatch event = true
  since : (filter.since.all fun time => time ≤ event.createdAt) = true
  until_ : (filter.until_.all fun time => event.createdAt ≤ time) = true
  search : filter.searchMatch event = true
  tags : ∀ name, name ≠ .lowercaseP → ∀ values, filter.genericTags.get? name = some values →
    ∃ value ∈ values.elems, (name, value) ∈ indexes event

/-- The filter has no `p` tag, or one of its values is in the event. -/
def PTagMatch (filter : Filter) (event : Event) : Prop :=
  ∀ values, filter.genericTags.get? .lowercaseP = some values →
    ∃ value ∈ values.elems, (.lowercaseP, value) ∈ indexes event

theorem matchEvent_iff {filter : Filter} {event : Event} : filter.matchEvent event {} = true ↔
    filter.authorsMatch event = true ∧ PTagMatch filter event ∧ Others filter event := by
  have tags : filter.tagMatch event = true ↔ PTagMatch filter event ∧
      ∀ name, name ≠ .lowercaseP → ∀ values, filter.genericTags.get? name = some values →
        ∃ value ∈ values.elems, (name, value) ∈ indexes event := by
    rw [Filter.tagMatch_iff]
    constructor
    · intro each
      exact ⟨each .lowercaseP, fun name _ => each name⟩
    · intro both name
      by_cases same : name = .lowercaseP
      · subst same
        exact both.1
      · exact both.2 name same
  simp only [Filter.matchEvent, Bool.not_true, Bool.false_or, Bool.and_eq_true, tags]
  constructor
  · intro matched
    obtain ⟨⟨⟨⟨⟨⟨ids, authors⟩, kinds⟩, since⟩, until_⟩, pTag, others⟩, search⟩ := matched
    exact ⟨authors, pTag, ids, kinds, since, until_, search, others⟩
  · intro matched
    obtain ⟨authors, pTag, ids, kinds, since, until_, search, others⟩ := matched
    exact ⟨⟨⟨⟨⟨⟨ids, authors⟩, kinds⟩, since⟩, until_⟩, pTag, others⟩, search⟩

theorem matchEvent_withAuthors {filter : Filter} {keys : SortedSet PublicKey} {event : Event}
    (inhabited : ∃ key, key ∈ keys.elems) : (withAuthors filter keys).matchEvent event {} = true ↔
      event.pubkey ∈ keys.elems ∧ PTagMatch filter event ∧ Others filter event := by
  have nonempty : keys.isEmpty = false := by
    obtain ⟨key, member⟩ := inhabited
    rw [Bool.eq_false_iff]
    intro empty
    rw [SortedSet.elems, List.isEmpty_iff.mp empty] at member
    cases member
  have authors : (withAuthors filter keys).authorsMatch event = true ↔ event.pubkey ∈ keys.elems := by
    rw [Filter.authorsMatch, Filter.setMatch_iff]
    simp [withAuthors, nonempty]
  have others : Others (withAuthors filter keys) event ↔ Others filter event :=
    ⟨fun others => { others with }, fun others => { others with }⟩
  rw [matchEvent_iff, authors, others]
  rfl

variable {externals : Externals}

theorem matchEvent_withPTag {filter : Filter} {keys : SortedSet PublicKey} {event : Event} :
    (withPTag externals filter keys).matchEvent event {} = true ↔ filter.authorsMatch event = true ∧
      (∃ key ∈ keys.elems, (.lowercaseP, externals.hexEncode key.val) ∈ indexes event) ∧
      Others filter event := by
  have pTag : PTagMatch (withPTag externals filter keys) event ↔
      ∃ key ∈ keys.elems, (.lowercaseP, externals.hexEncode key.val) ∈ indexes event := by
    simp [PTagMatch, withPTag, SortedTable.get?_put, mem_elems_ofList]
  have others : Others (withPTag externals filter keys) event ↔ Others filter event := by
    have tags : ∀ name, name ≠ .lowercaseP →
        (withPTag externals filter keys).genericTags.get? name = filter.genericTags.get? name := by
      intro name other
      rw [withPTag, SortedTable.get?_put, if_neg other]
    constructor
    · intro others
      exact { others with tags := fun name other => tags name other ▸ others.tags name other }
    · intro others
      exact { others with tags := fun name other => (tags name other).symm ▸ others.tags name other }
  rw [matchEvent_iff, pTag, others]
  rfl

theorem perRelay_eq_filters {ν : Type} {filter : Filter} {relays : SortedTable RelayUrl ν}
    {change : ν → Filter} {map : SortedTable RelayUrl Filter}
    (broken : BrokenDownFilters.filters map = perRelay filter relays change) :
    relays.entries ≠ [] ∧ ∀ relay, map.get? relay = (relays.get? relay).map change := by
  unfold perRelay at broken
  split at broken
  next => cases broken
  next nonempty =>
    cases broken
    refine ⟨fun none => nonempty (List.isEmpty_iff.mpr none), ?_⟩
    intro relay
    rw [SortedTable.get?_mapValues]

/-! ## What is preserved -/

section Preserves

variable (externals) (filter : Filter) (pattern : GossipFilterPattern) (limits : GossipRelayLimits)
  (gossip : Store) (allowed : GossipAllowedRelays)

/-- The keys that an event can be looked for by: its author, or without authors in the
filter those whose texts are in its `p` tags. -/
def Names (event : Event) (key : PublicKey) : Prop :=
  match filter.authors with
  | some _ => event.pubkey = key
  | none => (.lowercaseP, externals.hexEncode key.val) ∈ indexes event

/-- The values of the filter's `p` tag that are read as keys are the keys' own texts. -/
def OwnTexts : Prop :=
  ∀ values, filter.genericTags.get? .lowercaseP = some values → ∀ value ∈ values.elems, ∀ key,
    externals.hexDecode value = some key → value = externals.hexEncode key.val

/-- The filter has authors or `p` tags, but not both. -/
def OneSided : Prop := filter.authors = none ∨ pTag externals filter = none

/-- What the filters of the relays have to do with the filter. -/
structure Preserves (map : SortedTable RelayUrl Filter) : Prop where
  /-- With both authors and `p` tags, every relay has the filter itself. -/
  whole : ¬ OneSided externals filter →
    (∃ relay, map.get? relay = some filter) ∧ ∀ relay sub, map.get? relay = some sub → sub = filter
  /-- A relay that keeps a key has a filter for the events of that key. -/
  kept : OneSided externals filter → ∀ event key relay, filter.matchEvent event {} = true →
    Names externals filter event key →
    KeptBy (Returned gossip allowed (routedKeys externals filter))
      (lookups externals filter pattern limits) relay key →
    ∃ sub, map.get? relay = some sub ∧ sub.matchEvent event {} = true
  /-- Events of keys without relays are left out. -/
  dropped : OneSided externals filter → ∀ event,
    (∀ key, Names externals filter event key → ∀ selection ∈ lookups externals filter pattern limits,
      ∀ relay, ¬ Returned gossip allowed (routedKeys externals filter) selection relay key) →
    ∀ relay sub, map.get? relay = some sub → ¬ sub.matchEvent event {} = true
  sound : (filter.authors = none → OwnTexts externals filter) →
    ∀ relay sub event, map.get? relay = some sub → sub.matchEvent event {} = true →
      filter.matchEvent event {} = true

variable {externals filter pattern limits gossip allowed}

theorem preserves_authors {authors : SortedSet PublicKey} (some_ : filter.authors = some authors)
    (untagged : pTag externals filter = none) {map : SortedTable RelayUrl Filter}
    (ok : breakDownFilter gossip allowed externals filter pattern limits = .ok (.filters map)) :
    Preserves externals filter pattern limits gossip allowed map := by
  obtain ⟨outbox, shape, inhabits, has⟩ := breakDownFilter_authors ok some_ untagged
  obtain ⟨_, found⟩ := perRelay_eq_filters shape
  have names : ∀ event key, Names externals filter event key ↔ event.pubkey = key := by
    intro event key
    rw [Names, some_]
  have keys : routedKeys externals filter = authors.elems := by rw [routedKeys, some_, untagged]
  have looked : lookups externals filter pattern limits =
      singleLookups (.write limits.writeRelaysPerUser) pattern limits := by
    rw [lookups, some_, untagged]
  have matches_ : ∀ relay sub event, map.get? relay = some sub → sub.matchEvent event {} = true →
      outbox.Has relay event.pubkey ∧ PTagMatch filter event ∧ Others filter event := by
    intro relay sub event here matched
    rw [found, Option.map_eq_some_iff] at here
    obtain ⟨set, here, same⟩ := here
    subst same
    obtain ⟨author, others⟩ := (matchEvent_withAuthors (inhabits relay set here)).mp matched
    exact ⟨⟨set, here, author⟩, others⟩
  exact {
    whole := fun both => absurd (.inr untagged) both
    kept := by
      intro _ event key relay matched named kept
      rw [names] at named
      rw [keys, looked, ← has, ← named] at kept
      obtain ⟨set, here, author⟩ := kept
      refine ⟨withAuthors filter set, by rw [found, here]; rfl, ?_⟩
      exact (matchEvent_withAuthors ⟨_, author⟩).mpr ⟨author, (matchEvent_iff.mp matched).2⟩
    dropped := by
      intro _ event unknown relay sub here matched
      obtain ⟨author, _⟩ := matches_ relay sub event here matched
      rw [has] at author
      obtain ⟨selection, member, returned⟩ := author.exists_gives
      rw [keys, looked] at unknown
      exact unknown event.pubkey ((names event event.pubkey).mpr rfl) selection member relay returned
    sound := by
      intro _ relay sub event here matched
      obtain ⟨author, others⟩ := matches_ relay sub event here matched
      rw [has] at author
      obtain ⟨_, _, listed, _⟩ := author.exists_gives
      refine matchEvent_iff.mpr ⟨?_, others⟩
      rw [Filter.authorsMatch, Filter.setMatch_iff, some_]
      intro elements same _
      cases same
      exact listed }

theorem preserves_pTag {publicKeys : SortedSet PublicKey} (none_ : filter.authors = none)
    (tagged : pTag externals filter = some publicKeys) {map : SortedTable RelayUrl Filter}
    (ok : breakDownFilter gossip allowed externals filter pattern limits = .ok (.filters map)) :
    Preserves externals filter pattern limits gossip allowed map := by
  obtain ⟨inbox, shape, _, has⟩ := breakDownFilter_pTag ok none_ tagged
  obtain ⟨_, found⟩ := perRelay_eq_filters shape
  have names : ∀ event key, Names externals filter event key ↔
      (.lowercaseP, externals.hexEncode key.val) ∈ indexes event := by
    intro event key
    rw [Names, none_]
  have keys : routedKeys externals filter = publicKeys.elems := by rw [routedKeys, none_, tagged]
  have looked : lookups externals filter pattern limits =
      singleLookups (.read limits.readRelaysPerUser) pattern limits := by
    rw [lookups, none_, tagged]
  have matches_ : ∀ relay sub event, map.get? relay = some sub → sub.matchEvent event {} = true →
      filter.authorsMatch event = true ∧
        (∃ key, inbox.Has relay key ∧ (.lowercaseP, externals.hexEncode key.val) ∈ indexes event) ∧
        Others filter event := by
    intro relay sub event here matched
    rw [found, Option.map_eq_some_iff] at here
    obtain ⟨set, here, same⟩ := here
    subst same
    obtain ⟨authors, named, others⟩ := matchEvent_withPTag.mp matched
    obtain ⟨key, member, value⟩ := named
    exact ⟨authors, ⟨key, ⟨set, here, member⟩, value⟩, others⟩
  exact {
    whole := fun both => absurd (.inl none_) both
    kept := by
      intro _ event key relay matched named kept
      rw [names] at named
      rw [keys, looked, ← has] at kept
      obtain ⟨set, here, member⟩ := kept
      obtain ⟨authors, _, others⟩ := matchEvent_iff.mp matched
      refine ⟨withPTag externals filter set, by rw [found, here]; rfl, ?_⟩
      exact matchEvent_withPTag.mpr ⟨authors, ⟨key, member, named⟩, others⟩
    dropped := by
      intro _ event unknown relay sub here matched
      obtain ⟨_, ⟨key, kept, value⟩, _⟩ := matches_ relay sub event here matched
      rw [has] at kept
      obtain ⟨selection, member, returned⟩ := kept.exists_gives
      rw [keys, looked] at unknown
      exact unknown key ((names event key).mpr value) selection member relay returned
    sound := by
      intro ownTexts relay sub event here matched
      obtain ⟨authors, ⟨key, kept, value⟩, others⟩ := matches_ relay sub event here matched
      rw [has] at kept
      obtain ⟨_, _, listed, _⟩ := kept.exists_gives
      obtain ⟨values, tag, text, member, read⟩ := (mem_pTag tagged).mp listed
      have own := ownTexts none_ values tag text member key read
      refine matchEvent_iff.mpr ⟨authors, ?_, others⟩
      intro values' tag'
      rw [tag] at tag'
      cases tag'
      exact ⟨text, member, own ▸ value⟩ }

theorem preserves_both {authors publicKeys : SortedSet PublicKey} (some_ : filter.authors = some authors)
    (tagged : pTag externals filter = some publicKeys) {map : SortedTable RelayUrl Filter}
    (ok : breakDownFilter gossip allowed externals filter pattern limits = .ok (.filters map)) :
    Preserves externals filter pattern limits gossip allowed map := by
  obtain ⟨relays, shape, _⟩ := breakDownFilter_both ok some_ tagged
  obtain ⟨nonempty, found⟩ := perRelay_eq_filters shape
  have whole : ∀ relay sub, map.get? relay = some sub → sub = filter := by
    intro relay sub here
    rw [found, Option.map_eq_some_iff] at here
    obtain ⟨_, _, same⟩ := here
    exact same.symm
  have twoSided : ¬ OneSided externals filter := by
    intro oneSided
    cases oneSided with
    | inl none_ =>
        rw [some_] at none_
        cases none_
    | inr untagged =>
        rw [tagged] at untagged
        cases untagged
  exact {
    whole := by
      intro _
      obtain ⟨⟨relay, found'⟩, member⟩ := List.exists_mem_of_ne_nil _ nonempty
      refine ⟨⟨relay, ?_⟩, whole⟩
      rw [found, SortedTable.get?_eq_some.mpr member]
      rfl
    kept := fun oneSided => absurd oneSided twoSided
    dropped := fun oneSided => absurd oneSided twoSided
    sound := by
      intro _ relay sub event here matched
      rw [whole relay sub here] at matched
      exact matched }

theorem breakDownFilter_preserves {map : SortedTable RelayUrl Filter}
    (ok : breakDownFilter gossip allowed externals filter pattern limits = .ok (.filters map)) :
    Preserves externals filter pattern limits gossip allowed map := by
  cases some_ : filter.authors with
  | none =>
      cases tagged : pTag externals filter with
      | none =>
          unfold breakDownFilter at ok
          rw [some_, tagged] at ok
          cases ok
      | some publicKeys => exact preserves_pTag some_ tagged ok
  | some authors =>
      cases tagged : pTag externals filter with
      | none => exact preserves_authors some_ tagged ok
      | some publicKeys => exact preserves_both some_ tagged ok

end Preserves

open BreakDown in
theorem breakDownFilter_preserves_twoAuthors : ∃ map,
    breakDownFilter sampleStore {} hexExternals sampleFilter .nip65 {} = .ok (.filters map) ∧
      Preserves hexExternals sampleFilter .nip65 {} sampleStore {} map :=
  ⟨_, rfl, breakDownFilter_preserves rfl⟩

namespace SubFilters

open BreakDown

/-- Relays are known for the first key only. -/
def sampleStore : Store where
  getBestRelays key _ _ :=
    .ok (if key = sampleKey 1 then SortedSet.ofList [sampleRelay] else .empty)

/-- An event of the second key. -/
def sampleEvent : Event where
  id := .replicate 32 0
  pubkey := sampleKey 2
  createdAt := 0
  kind := .custom 1
  tags := []
  content := ""
  sig := .replicate 64 0

end SubFilters

open BreakDown in
/-- An event of an author without relays is matched by no relay's filter. -/
theorem breakDownFilter_not_preserving : ∃ map,
    breakDownFilter SubFilters.sampleStore {} hexExternals sampleFilter .nip65 {} = .ok (.filters map) ∧
      sampleFilter.matchEvent SubFilters.sampleEvent {} = true ∧
      ¬ ∃ relay sub, map.get? relay = some sub ∧ sub.matchEvent SubFilters.sampleEvent {} = true := by
  refine ⟨_, rfl, by decide, ?_⟩
  intro found
  obtain ⟨relay, sub, here, matched⟩ := found
  have same : (relay, sub) = (sampleRelay, withAuthors sampleFilter (SortedSet.ofList [sampleKey 1])) :=
    List.mem_singleton.mp (SortedTable.get?_eq_some.mp here)
  cases same
  revert matched
  decide

end RustNostr.NostrSdk.Gossip
