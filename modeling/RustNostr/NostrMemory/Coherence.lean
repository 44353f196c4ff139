import Mathlib
import RustNostr.NostrMemory.Store

/-!
# The maps and the ordered set agree

What each operation of the in-memory store does to the set of stored events,
which all five structures describe alike.
-/

set_option autoImplicit false

namespace RustNostr.NostrMemory

open Library

namespace MemoryStore

/-- The maps describe this set of events. -/
structure Indexed (store : MemoryStore) (stored : Event → Prop) : Prop where
  ids : ∀ id event, store.ids.get? id = some event ↔ stored event ∧ event.id = id
  author : ∀ pubkey key event, store.authorIndex.getInner? pubkey key = some event ↔
    stored event ∧ event.pubkey = pubkey ∧ event.orderingKey = key
  kindAuthor : ∀ pair key event, store.kindAuthorIndex.getInner? pair key = some event ↔
    stored event ∧ NostrMemory.kindAuthor event.kind.asU16 event.pubkey = pair ∧
      event.orderingKey = key
  address : ∀ address event, store.paramReplaceableIndex.get? address = some event ↔
    stored event ∧ addressOf event = some address

/-- The maps and the ordered set describe this set of events. -/
structure Describes (store : MemoryStore) (stored : Event → Prop) : Prop
    extends Indexed store stored where
  events : ∀ key event, store.events.get? key = some event ↔
    stored event ∧ event.orderingKey = key

variable {store : MemoryStore} {stored stored' : Event → Prop} {event : Event}

theorem Indexed.congr (indexed : store.Indexed stored)
    (same : ∀ event, stored' event ↔ stored event) : store.Indexed stored' := by
  have equal : stored' = stored := funext fun event => propext (same event)
  rw [equal]
  exact indexed

theorem Indexed.eq_of_id (indexed : store.Indexed stored) {left right : Event}
    (left_stored : stored left) (right_stored : stored right) (same : left.id = right.id) :
    left = right := by
  have found := (indexed.ids left.id left).mpr ⟨left_stored, rfl⟩
  have found' := (indexed.ids left.id right).mpr ⟨right_stored, same.symm⟩
  exact Option.some.inj (found.symm.trans found')

theorem Indexed.eq_of_address (indexed : store.Indexed stored) {left right : Event}
    (left_stored : stored left) (right_stored : stored right) {address : Address}
    (left_address : addressOf left = some address)
    (right_address : addressOf right = some address) : left = right := by
  have found := (indexed.address address left).mpr ⟨left_stored, left_address⟩
  have found' := (indexed.address address right).mpr ⟨right_stored, right_address⟩
  exact Option.some.inj (found.symm.trans found')

/-! ## Discarding -/

/-- An event leaves an index whose sets are of the events with the same value. -/
theorem inner_delete {α : Type} [LinearOrder α] {table : SortedTable α (SortedTable EventKey Event)}
    (value : Event → α)
    (describes : ∀ outer key other, table.getInner? outer key = some other ↔
      stored other ∧ value other = outer ∧ other.orderingKey = key)
    (version : ∀ other, stored other → other.id = event.id → other = event) (outer : α) (key : EventKey)
    (other : Event) :
    (table.deleteInner (value event) event.orderingKey).getInner? outer key = some other ↔
      (stored other ∧ other.id ≠ event.id) ∧ value other = outer ∧ other.orderingKey = key := by
  rw [SortedTable.getInner?_deleteInner]
  split
  next same =>
    simp only [reduceCtorEq, false_iff, not_and, and_imp]
    intro _ different _ other_key
    exact different (id_of_orderingKey (other_key.trans same.2))
  next different =>
    rw [describes outer key other]
    constructor
    · rintro ⟨there, rfl, rfl⟩
      refine ⟨⟨there, fun same => different ?_⟩, rfl, rfl⟩
      rw [version other there same]
      exact ⟨rfl, rfl⟩
    · rintro ⟨⟨there, _⟩, same⟩
      exact ⟨there, same⟩

theorem Indexed.discardEvent (indexed : store.Indexed stored)
    (version : ∀ other, stored other → other.id = event.id → other = event)
    (owner : ∀ other address, stored other → addressOf other = some address →
      addressOf event = some address → other = event) :
    (store.discardEvent event).Indexed fun other => stored other ∧ other.id ≠ event.id where
  ids := by
    intro id other
    simp only [MemoryStore.discardEvent, SortedTable.get?_delete]
    split
    next same =>
      subst same
      simp only [reduceCtorEq, false_iff, not_and, and_imp]
      exact fun _ different => different
    next different =>
      rw [indexed.ids id other]
      constructor
      · rintro ⟨there, rfl⟩
        exact ⟨⟨there, different⟩, rfl⟩
      · rintro ⟨⟨there, _⟩, same⟩
        exact ⟨there, same⟩
  author := inner_delete Event.pubkey indexed.author version
  kindAuthor :=
    inner_delete (fun other => NostrMemory.kindAuthor other.kind.asU16 other.pubkey) indexed.kindAuthor version
  address := by
    intro address other
    have kept : ∀ other, stored other → addressOf other = some address →
        (addressOf event = some address → other.id ≠ event.id → False) := by
      intro other there other_address event_address different
      exact different (congrArg Event.id (owner other address there other_address event_address))
    simp only [MemoryStore.discardEvent, removeAddress]
    split
    next own event_address =>
      rw [SortedTable.get?_delete]
      split
      next same =>
        subst same
        simp only [reduceCtorEq, false_iff, not_and, and_imp]
        intro there different other_address
        exact kept other there other_address event_address different
      next different =>
        rw [indexed.address address other]
        constructor
        · rintro ⟨there, other_address⟩
          refine ⟨⟨there, fun same => different ?_⟩, other_address⟩
          rw [version other there same] at other_address
          exact Option.some.inj (other_address.symm.trans event_address)
        · rintro ⟨⟨there, _⟩, other_address⟩
          exact ⟨there, other_address⟩
    next no_address =>
      rw [indexed.address address other]
      constructor
      · rintro ⟨there, other_address⟩
        refine ⟨⟨there, fun same => ?_⟩, other_address⟩
        rw [version other there same, no_address] at other_address
        cases other_address
      · rintro ⟨⟨there, _⟩, other_address⟩
        exact ⟨there, other_address⟩

/-- A stored event leaves the maps. -/
theorem Indexed.discardStored (indexed : store.Indexed stored) (member : stored event) :
    (store.discardEvent event).Indexed fun other => stored other ∧ other.id ≠ event.id :=
  indexed.discardEvent (fun _ there same => indexed.eq_of_id there member same)
    (fun _ _ there own own' => indexed.eq_of_address there member own own')

theorem Describes.congr (describes : store.Describes stored)
    (same : ∀ event, stored' event ↔ stored event) : store.Describes stored' := by
  have equal : stored' = stored := funext fun event => propext (same event)
  rw [equal]
  exact describes

theorem events_delete {table : SortedTable EventKey Event}
    (describes : ∀ key other, table.get? key = some other ↔ stored other ∧ other.orderingKey = key)
    (version : ∀ other, stored other → other.id = event.id → other = event) (key : EventKey)
    (other : Event) :
    (table.delete event.orderingKey).get? key = some other ↔
      (stored other ∧ other.id ≠ event.id) ∧ other.orderingKey = key := by
  rw [SortedTable.get?_delete]
  split
  next same =>
    simp only [reduceCtorEq, false_iff, not_and, and_imp]
    intro _ different other_key
    exact different (id_of_orderingKey (other_key.trans same))
  next different =>
    rw [describes key other]
    constructor
    · rintro ⟨there, rfl⟩
      refine ⟨⟨there, fun same => different ?_⟩, rfl⟩
      rw [version other there same]
    · rintro ⟨⟨there, _⟩, same⟩
      exact ⟨there, same⟩

theorem Describes.discardById (describes : store.Describes stored) (id : EventId) :
    (store.discardById id).Describes fun other => stored other ∧ other.id ≠ id := by
  unfold MemoryStore.discardById
  split
  next event found =>
    obtain ⟨member, rfl⟩ := (describes.ids id event).mp found
    have indexed := describes.discardStored member
    exact { ids := indexed.ids, author := indexed.author, kindAuthor := indexed.kindAuthor,
            address := indexed.address,
            events := events_delete describes.events fun _ there same =>
              describes.eq_of_id there member same }
  next absent =>
    apply describes.congr
    intro other
    constructor
    · exact And.left
    · intro there
      refine ⟨there, fun same => ?_⟩
      rw [(describes.ids id other).mpr ⟨there, same⟩] at absent
      cases absent

theorem Describes.discardEvents (describes : store.Describes stored) (ids : List EventId) :
    (store.discardEvents ids).Describes fun other => stored other ∧ other.id ∉ ids := by
  induction ids generalizing store stored with
  | nil => exact describes.congr (by simp)
  | cons id ids ih =>
      apply (ih (describes.discardById id)).congr
      intro other
      simp only [List.mem_cons, not_or, and_assoc]

/-! ## Inserting -/

/-- What an event must satisfy that enters the maps: no stored event has its
id, its address or, for a replaceable kind, its kind and author. -/
structure Fresh (stored : Event → Prop) (event : Event) : Prop where
  id : ∀ other, stored other → other.id ≠ event.id
  address : ∀ other address, stored other → addressOf other = some address →
    addressOf event ≠ some address
  sole : event.kind.isReplaceable = true → ∀ other, stored other →
    kindAuthor other.kind.asU16 other.pubkey ≠ kindAuthor event.kind.asU16 event.pubkey

theorem Indexed.author_absent (indexed : store.Indexed stored) (fresh : Fresh stored event)
    (pubkey : PublicKey) : store.authorIndex.getInner? pubkey event.orderingKey = none := by
  rw [Option.eq_none_iff_forall_ne_some]
  intro other found
  obtain ⟨there, _, same⟩ := (indexed.author pubkey event.orderingKey other).mp found
  exact fresh.id other there (id_of_orderingKey same)

theorem Indexed.kindAuthor_absent (indexed : store.Indexed stored) (fresh : Fresh stored event)
    (pair : KindAuthor) : store.kindAuthorIndex.getInner? pair event.orderingKey = none := by
  rw [Option.eq_none_iff_forall_ne_some]
  intro other found
  obtain ⟨there, _, same⟩ := (indexed.kindAuthor pair event.orderingKey other).mp found
  exact fresh.id other there (id_of_orderingKey same)

/-- With no other event under the kind and the author, the set of the one event
is what an insertion into the set before gives. -/
theorem Indexed.getInner?_kindAuthorIndex_putEvent (indexed : store.Indexed stored)
    (fresh : Fresh stored event) (pair : KindAuthor) (key : EventKey) (other : Event) :
    (store.putEvent event).kindAuthorIndex.getInner? pair key = some other ↔
      (pair = NostrMemory.kindAuthor event.kind.asU16 event.pubkey ∧ key = event.orderingKey) ∧
          event = other ∨
        store.kindAuthorIndex.getInner? pair key = some other := by
  have absent := indexed.kindAuthor_absent fresh
  simp only [MemoryStore.putEvent]
  split
  next replaceable =>
    rw [SortedTable.getInner?_put]
    by_cases own : pair = NostrMemory.kindAuthor event.kind.asU16 event.pubkey
    · have none_there : store.kindAuthorIndex.getInner? pair key = none := by
        rw [Option.eq_none_iff_forall_ne_some]
        intro other found
        obtain ⟨there, same, _⟩ := (indexed.kindAuthor pair key other).mp found
        exact fresh.sole replaceable other there (same.trans own)
      rw [if_pos own, SortedTable.get?_put, none_there]
      by_cases same : key = event.orderingKey
      · simp [own, same]
      · simp [same]
    · simp [own]
  next =>
    rw [SortedTable.getInner?_putInner (absent _)]
    by_cases same : pair = NostrMemory.kindAuthor event.kind.asU16 event.pubkey ∧
        key = event.orderingKey
    · simp [same, absent]
    · simp [same]

theorem Indexed.putEvent (indexed : store.Indexed stored) (fresh : Fresh stored event) :
    (store.putEvent event).Indexed fun other => other = event ∨ stored other where
  ids := by
    intro id other
    simp only [MemoryStore.putEvent, SortedTable.get?_put]
    split
    next same =>
      subst same
      constructor
      · intro found
        cases found
        exact ⟨.inl rfl, rfl⟩
      · rintro ⟨here | there, same⟩
        · rw [here]
        · exact absurd same (fresh.id other there)
    next different =>
      rw [indexed.ids id other]
      constructor
      · rintro ⟨there, same⟩
        exact ⟨.inr there, same⟩
      · rintro ⟨rfl | there, same⟩
        · exact absurd same.symm different
        · exact ⟨there, same⟩
  author := by
    intro pubkey key other
    have absent := indexed.author_absent fresh event.pubkey
    simp only [MemoryStore.putEvent, SortedTable.getInner?_putInner absent]
    split
    next same =>
      obtain ⟨rfl, rfl⟩ := same
      constructor
      · intro found
        cases found
        exact ⟨.inl rfl, rfl, rfl⟩
      · rintro ⟨here | there, _, same⟩
        · rw [here]
        · exact absurd (id_of_orderingKey same) (fresh.id other there)
    next different =>
      rw [indexed.author pubkey key other]
      constructor
      · rintro ⟨there, same⟩
        exact ⟨.inr there, same⟩
      · rintro ⟨rfl | there, same, same'⟩
        · exact absurd ⟨same.symm, same'.symm⟩ different
        · exact ⟨there, same, same'⟩
  kindAuthor := by
    intro pair key other
    rw [indexed.getInner?_kindAuthorIndex_putEvent fresh, indexed.kindAuthor pair key other]
    constructor
    · rintro (⟨⟨rfl, rfl⟩, rfl⟩ | ⟨there, same⟩)
      · exact ⟨.inl rfl, rfl, rfl⟩
      · exact ⟨.inr there, same⟩
    · rintro ⟨rfl | there, same, same'⟩
      · exact .inl ⟨⟨same.symm, same'.symm⟩, rfl⟩
      · exact .inr ⟨there, same, same'⟩
  address := by
    intro address other
    simp only [MemoryStore.putEvent, putAddress]
    split
    next own event_address =>
      rw [SortedTable.get?_put]
      split
      next same =>
        subst same
        constructor
        · intro found
          cases found
          exact ⟨.inl rfl, event_address⟩
        · rintro ⟨here | there, other_address⟩
          · rw [here]
          · exact absurd event_address (fresh.address other address there other_address)
      next different =>
        rw [indexed.address address other]
        constructor
        · rintro ⟨there, other_address⟩
          exact ⟨.inr there, other_address⟩
        · rintro ⟨rfl | there, other_address⟩
          · exact absurd (Option.some.inj (other_address.symm.trans event_address)) different
          · exact ⟨there, other_address⟩
    next no_address =>
      rw [indexed.address address other]
      constructor
      · rintro ⟨there, other_address⟩
        exact ⟨.inr there, other_address⟩
      · rintro ⟨rfl | there, other_address⟩
        · rw [no_address] at other_address
          cases other_address
        · exact ⟨there, other_address⟩

/-- The set of events with one more. -/
def withEvent (stored : Event → Prop) (event : Event) : Event → Prop :=
  fun other => other = event ∨ stored other

theorem Describes.events_put (describes : store.Describes stored) (fresh : Fresh stored event)
    (key : EventKey) (other : Event) :
    (store.events.put event.orderingKey event).get? key = some other ↔
      withEvent stored event other ∧ other.orderingKey = key := by
  unfold withEvent
  rw [SortedTable.get?_put]
  split
  next same =>
    subst same
    constructor
    · intro found
      cases found
      exact ⟨.inl rfl, rfl⟩
    · rintro ⟨here | there, same⟩
      · rw [here]
      · exact absurd (id_of_orderingKey same) (fresh.id other there)
  next different =>
    rw [describes.events key other]
    constructor
    · rintro ⟨there, same⟩
      exact ⟨.inr there, same⟩
    · rintro ⟨rfl | there, same⟩
      · exact absurd same.symm different
      · exact ⟨there, same⟩

/-- What becomes of the stored events when one more is inserted. -/
inductive Inserted (store : MemoryStore) (stored : Event → Prop) (event : Event) :
    MemoryStore → Prop where
  | room {store' : MemoryStore} :
      (∀ max, store.maxEvents = some max → store.events.len < max) →
      store'.events = store.events.put event.orderingKey event →
      store'.Describes (withEvent stored event) → Inserted store stored event store'
  | full {store' : MemoryStore} {max : ℕ+} {dropped : Event} :
      store.maxEvents = some max → store.events.len = max →
      (store.events.put event.orderingKey event).IsLast dropped.orderingKey dropped →
      store'.events = (store.events.put event.orderingKey event).delete dropped.orderingKey →
      store'.Describes (fun other => withEvent stored event other ∧ other.id ≠ dropped.id) →
      Inserted store stored event store'

theorem Describes.unknown_key (describes : store.Describes stored) (fresh : Fresh stored event) :
    store.events.get? event.orderingKey = none := by
  rw [Option.eq_none_iff_forall_ne_some]
  intro other found
  obtain ⟨there, same⟩ := (describes.events event.orderingKey other).mp found
  exact fresh.id other there (id_of_orderingKey same)

theorem Fresh.version (fresh : Fresh stored event) (describes : store.Describes stored)
    {left right : Event} (left_held : withEvent stored event left)
    (right_held : withEvent stored event right) (same : left.id = right.id) : left = right := by
  cases left_held with
  | inl here =>
      cases right_held with
      | inl here' => exact here.trans here'.symm
      | inr there => exact absurd (same.symm.trans (congrArg Event.id here)) (fresh.id right there)
  | inr there =>
      cases right_held with
      | inl here => exact absurd (same.trans (congrArg Event.id here)) (fresh.id left there)
      | inr there' => exact describes.eq_of_id there there' same

/-- An event that did not enter the maps leaves them as they are. -/
theorem Indexed.discardRefused (indexed : store.Indexed stored) (fresh : Fresh stored event) :
    (store.discardEvent event).Indexed
      fun other => withEvent stored event other ∧ other.id ≠ event.id := by
  apply (indexed.discardEvent (fun other there same => absurd same (fresh.id other there))
    (fun other address there own own' => absurd own' (fresh.address other address there own))).congr
  intro other
  constructor
  · rintro ⟨rfl | there, different⟩
    · exact absurd rfl different
    · exact ⟨there, different⟩
  · rintro ⟨there, different⟩
    exact ⟨.inr there, different⟩

theorem Indexed.refused (indexed : store.Indexed stored) (fresh : Fresh stored event) :
    store.Indexed fun other => withEvent stored event other ∧ other.id ≠ event.id := by
  apply indexed.congr
  intro other
  constructor
  · rintro ⟨rfl | there, different⟩
    · exact absurd rfl different
    · exact there
  · intro there
    exact ⟨.inr there, fresh.id other there⟩

/-- The maps do not look at the ordered set. -/
theorem Indexed.setEvents (indexed : store.Indexed stored) (set : SortedTable EventKey Event) :
    { store with events := set }.Indexed stored :=
  ⟨indexed.ids, indexed.author, indexed.kindAuthor, indexed.address⟩

variable (capped : CappedSet EventKey Event)

theorem Describes.insertEvent (describes : store.Describes stored) (fresh : Fresh stored event)
    (fits : ∀ max, store.maxEvents = some max → store.events.len ≤ max) :
    Inserted store stored event (store.insertEvent capped event) := by
  have absent := describes.unknown_key fresh
  have indexed := fun set => describes.toIndexed.setEvents set
  have indexed_put := fun set => (indexed set).putEvent fresh
  by_cases room : ∀ max, store.maxEvents = some max → store.events.len < (max : ℕ)
  · have inserted := capped.room store.maxEvents store.events event.orderingKey event absent room
    simp only [MemoryStore.insertEvent, inserted, if_true]
    exact .room room rfl { indexed_put _ with events := describes.events_put fresh }
  · obtain ⟨max, bounded, filled⟩ : ∃ max : ℕ+, store.maxEvents = some max ∧
        (max : ℕ) ≤ store.events.len := by
      simpa using room
    have filled := Nat.le_antisymm (fits max bounded) filled
    obtain ⟨last, dropped, isLast, set_eq, outcome⟩ :=
      capped.full max store.events event.orderingKey event absent filled
    obtain ⟨held, rfl⟩ := (describes.events_put fresh last dropped).mp isLast.found
    have version : ∀ other, withEvent stored event other → other.id = dropped.id →
        other = dropped := fun _ there same => fresh.version describes there held same
    have events := events_delete (describes.events_put fresh) version
    simp only [MemoryStore.insertEvent, bounded]
    generalize capped.insert (some max) store.events event.orderingKey event = insert
      at set_eq outcome ⊢
    cases outcome with
    | @evicted set different =>
        have left := (indexed_put set).discardStored held
        exact .full bounded filled isLast set_eq { left with events := set_eq ▸ events }
    | @passed set same =>
        have same := fresh.version describes held (.inl rfl) (id_of_orderingKey same)
        have left := (indexed_put set).discardStored held
        rw [same] at left events isLast set_eq
        exact .full bounded filled isLast set_eq { left with events := set_eq ▸ events }
    | @refused set pop same given =>
        have same := fresh.version describes held (.inl rfl) (id_of_orderingKey same)
        rw [same] at events isLast set_eq
        cases pop with
        | none =>
            have left := (indexed set).refused fresh
            exact .full bounded filled isLast set_eq { left with events := set_eq ▸ events }
        | some popped =>
            have left := (indexed set).discardRefused fresh
            rw [given popped rfl]
            exact .full bounded filled isLast set_eq { left with events := set_eq ▸ events }

/-! ## Coherent stores -/

/-- The event is in the ordered set. -/
def Holds (store : MemoryStore) (event : Event) : Prop :=
  store.events.get? event.orderingKey = some event

theorem Describes.holds_iff (describes : store.Describes stored) (event : Event) :
    store.Holds event ↔ stored event := by
  unfold Holds
  rw [describes.events event.orderingKey event]
  exact and_iff_left rfl

theorem Describes.toHolds (describes : store.Describes stored) : store.Describes store.Holds :=
  describes.congr describes.holds_iff

/-- All structures describe the events of the ordered set, none of which is
marked as deleted, and these are not more than fit. -/
structure Valid (store : MemoryStore) : Prop where
  describes : store.Describes store.Holds
  undeleted : ∀ event, store.Holds event → store.isDeleted event.id = false
  fits : ∀ max, store.maxEvents = some max → store.events.len ≤ max

theorem Valid.new (maxEvents : Option ℕ+) (options : MemoryOptions) :
    (MemoryStore.new maxEvents options).Valid where
  describes := by
    constructor
    · constructor <;> simp [MemoryStore.new, Holds]
    · simp [MemoryStore.new, Holds]
  undeleted event held := by simp [MemoryStore.new, Holds] at held
  fits max _ := Nat.zero_le max

end MemoryStore

end RustNostr.NostrMemory
