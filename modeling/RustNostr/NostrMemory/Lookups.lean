import Mathlib
import RustNostr.NostrMemory.Coherence

/-!
# The index lookups

What the lookups and the queries find, in terms of the stored events.
-/

set_option autoImplicit false

namespace RustNostr.NostrMemory.MemoryStore

open Library EventSet

variable {store : MemoryStore} {stored : Event → Prop}

/-! ## Lookups -/

section Inner

variable {α : Type} [LinearOrder α] {table : SortedTable α (SortedTable EventKey Event)} {value : Event → α}
variable {outer : α}

/-- The events of a set of an index. -/
theorem mem_filter_inner {set : SortedTable EventKey Event} (found : table.get? outer = some set)
    (indexed : ∀ key other, table.getInner? outer key = some other ↔
      stored other ∧ value other = outer ∧ other.orderingKey = key) (test : Event → Bool) (other : Event) :
    other ∈ set.values.filter test ↔ stored other ∧ value other = outer ∧ test other = true := by
  simp only [List.mem_filter, SortedTable.mem_values_inner found, indexed]
  constructor
  · rintro ⟨⟨_, there, same, _⟩, passes⟩
    exact ⟨there, same, passes⟩
  · rintro ⟨there, same, passes⟩
    exact ⟨⟨_, there, same, rfl⟩, passes⟩

theorem not_stored_of_absent (absent : table.get? outer = none)
    (indexed : ∀ key other, table.getInner? outer key = some other ↔
      stored other ∧ value other = outer ∧ other.orderingKey = key) (other : Event) (there : stored other) :
    value other ≠ outer := by
  intro same
  have found := (indexed other.orderingKey other).mpr ⟨there, same, rfl⟩
  rw [SortedTable.getInner?_eq_none absent] at found
  cases found

end Inner

theorem Describes.mem_queryByAuthor (describes : store.Describes stored)
    (params : QueryByAuthorParams) (other : Event) :
    other ∈ store.queryByAuthor params ↔ stored other ∧ other.pubkey = params.author ∧
      store.inTime params.since params.until_ other = true := by
  have indexed := describes.author params.author
  unfold MemoryStore.queryByAuthor
  split
  next set found => exact mem_filter_inner found indexed _ other
  next absent =>
    constructor
    · intro member
      cases member
    · rintro ⟨there, same, _⟩
      exact absurd same (not_stored_of_absent absent indexed other there)

theorem Describes.mem_queryByKindAndAuthor (describes : store.Describes stored)
    (params : QueryByKindAndAuthorParams) (other : Event) :
    other ∈ store.queryByKindAndAuthor params ↔ stored other ∧
      kindAuthor other.kind.asU16 other.pubkey = kindAuthor params.kind params.author ∧
      store.inTime params.since params.until_ other = true := by
  have indexed := describes.kindAuthor (NostrMemory.kindAuthor params.kind params.author)
  unfold MemoryStore.queryByKindAndAuthor
  split
  next set found => exact mem_filter_inner found indexed _ other
  next absent =>
    constructor
    · intro member
      cases member
    · rintro ⟨there, same, _⟩
      exact absurd same (not_stored_of_absent absent indexed other there)

theorem kindAuthor_inj {kind kind' : UInt16} {author author' : PublicKey} :
    kindAuthor kind author = kindAuthor kind' author' ↔ kind = kind' ∧ author = author' := by
  simp [kindAuthor]

theorem address_inj {kind kind' : UInt16} {author author' : PublicKey}
    {identifier identifier' : String} :
    address kind author identifier = address kind' author' identifier' ↔
      kind = kind' ∧ author = author' ∧ identifier = identifier' := by
  simp [address]

theorem addressOf_eq_some {event : Event} {kind : UInt16} {author : PublicKey}
    {identifier : String} :
    addressOf event = some (address kind author identifier) ↔
      event.kind.isAddressable = true ∧ event.kind.asU16 = kind ∧ event.pubkey = author ∧
        Tags.identifier event.tags = some identifier := by
  unfold addressOf
  split
  next addressable =>
    simp only [Option.map_eq_some_iff, address_inj, addressable, true_and]
    constructor
    · rintro ⟨own, found, same, same', rfl⟩
      exact ⟨same, same', found⟩
    · rintro ⟨same, same', found⟩
      exact ⟨identifier, found, same, same', rfl⟩
  next other => simp [other]

theorem Describes.queryParamReplaceable_eq_some (describes : store.Describes stored)
    (params : QueryByParamReplaceable) (other : Event) :
    store.queryParamReplaceable params = some other ↔ stored other ∧
      addressOf other = some (address params.kind params.author params.identifier) ∧
      store.inTime params.since params.until_ other = true := by
  unfold MemoryStore.queryParamReplaceable
  split
  next regular =>
    simp only [reduceCtorEq, false_iff, not_and]
    intro _ own
    obtain ⟨addressable, same, _⟩ := addressOf_eq_some.mp own
    rw [← same, Kind.isAddressable_fromU16, addressable] at regular
    cases regular
  next => rw [Option.filter_eq_some_iff, describes.address, and_assoc]

/-! ## Order -/

theorem Describes.ordered_events (describes : store.Describes stored) :
    Ordered store.events.values :=
  ordered_values fun key event found => ((describes.events key event).mp found).2

theorem Describes.mem_events (describes : store.Describes stored) (event : Event) :
    event ∈ store.events.values ↔ stored event := by
  simp only [SortedTable.mem_values, describes.events]
  constructor
  · rintro ⟨_, there, _⟩
    exact there
  · intro there
    exact ⟨_, there, rfl⟩

theorem ordered_takeLimit {events : List Event} (ordered : Ordered events) (limit : Option Nat) :
    Ordered (takeLimit limit events) := by
  unfold takeLimit
  split
  · exact ordered.sublist (List.take_sublist _ _)
  · exact ordered

theorem Describes.ordered_queryByPattern (describes : store.Describes stored)
    (pattern : QueryPattern) : Ordered (store.queryByPattern pattern) := by
  cases pattern with
  | author params =>
      simp only [MemoryStore.queryByPattern, MemoryStore.queryByAuthor]
      split
      next set found =>
        apply List.Pairwise.filter
        apply ordered_values
        intro key event there
        have inner : store.authorIndex.getInner? params.author key = some event := by
          rw [SortedTable.getInner?, found, Option.bind_some, there]
        exact ((describes.author params.author key event).mp inner).2.2
      next => exact .nil
  | kindAuthor params =>
      simp only [MemoryStore.queryByPattern, MemoryStore.queryByKindAndAuthor]
      split
      next set found =>
        apply List.Pairwise.filter
        apply ordered_values
        intro key event there
        have inner : store.kindAuthorIndex.getInner?
            (NostrMemory.kindAuthor params.kind params.author) key = some event := by
          rw [SortedTable.getInner?, found, Option.bind_some, there]
        exact ((describes.kindAuthor _ key event).mp inner).2.2
      next => exact .nil
  | paramReplaceable params =>
      simp only [MemoryStore.queryByPattern]
      cases store.queryParamReplaceable params with
      | none => exact .nil
      | some event => exact List.pairwise_singleton _ _
  | generic filter => exact describes.ordered_events.filter _

/-! ## Queries -/

theorem Describes.query_eq (describes : store.Describes stored) (filter : Filter) :
    store.query filter =
      if filterIsEmpty filter then store.events.values
      else if emptyRange filter then []
      else takeLimit filter.limit (store.queryByPattern (.ofFilter filter)) := by
  unfold MemoryStore.query MemoryStore.internalQuery
  split
  next all =>
    split at all
    next empty => rw [if_pos empty]
    next => split at all <;> cases all
  next set found =>
    split at found
    next => cases found
    next nonempty =>
      rw [if_neg nonempty]
      split at found
      next range =>
        cases found
        rw [if_pos range]
        rfl
      next range =>
        cases found
        rw [if_neg range]
        exact values_collect (ordered_takeLimit (describes.ordered_queryByPattern _) _)

theorem mem_of_mem_takeLimit {limit : Option Nat} {events : List Event} {event : Event}
    (member : event ∈ takeLimit limit events) : event ∈ events := by
  unfold takeLimit at member
  split at member
  · exact List.mem_of_mem_take member
  · exact member

theorem Describes.stored_of_mem_queryByPattern (describes : store.Describes stored)
    {pattern : QueryPattern} {event : Event} (member : event ∈ store.queryByPattern pattern) :
    stored event := by
  cases pattern with
  | author params => exact ((describes.mem_queryByAuthor params event).mp member).1
  | kindAuthor params => exact ((describes.mem_queryByKindAndAuthor params event).mp member).1
  | paramReplaceable params =>
      have found := Option.mem_toList.mp member
      exact ((describes.queryParamReplaceable_eq_some params event).mp found).1
  | generic filter => exact (describes.mem_events event).mp (List.mem_of_mem_filter member)

theorem Describes.stored_of_mem_query (describes : store.Describes stored) {filter : Filter}
    {event : Event} (member : event ∈ store.query filter) : stored event := by
  rw [describes.query_eq] at member
  split at member
  · exact (describes.mem_events event).mp member
  · split at member
    · cases member
    · exact describes.stored_of_mem_queryByPattern (mem_of_mem_takeLimit member)

theorem Describes.delete (describes : store.Describes stored) (filter : Filter) :
    (store.delete filter).Describes fun other => stored other ∧ other ∉ store.query filter := by
  have member : ∀ other ∈ store.query filter, stored other :=
    fun other => describes.stored_of_mem_query
  unfold MemoryStore.query at member ⊢
  unfold MemoryStore.delete
  generalize store.internalQuery filter = result at member ⊢
  cases result with
  | all =>
      have none_left : ∀ other, ¬ (stored other ∧ other ∉ store.events.values) := by
        rintro other ⟨there, absent⟩
        exact absent ((describes.mem_events other).mpr there)
      constructor
      · constructor <;> simp [clear, none_left]
      · simp [clear, none_left]
  | set events =>
      apply (describes.discardEvents _).congr
      intro other
      simp only [List.mem_map, not_exists, not_and]
      constructor
      · rintro ⟨there, absent⟩
        refine ⟨there, fun found here same => absent ?_⟩
        rw [← describes.eq_of_id (member found here) there same]
        exact here
      · rintro ⟨there, different⟩
        exact ⟨there, fun here => different other here rfl⟩

end RustNostr.NostrMemory.MemoryStore
