import Mathlib
import RustNostr.NostrLmdb.RangeScan

/-!
# Query plans

Every plan is a sequence of scans that share the lower bound `since`. What it
collects settles every stored event that its scans cover.
-/

set_option autoImplicit false

namespace RustNostr.NostrLmdb.Lmdb

open Library BoundedScan

variable {db : Lmdb} {filter : DatabaseFilter} {limit : Option Nat}

/-! ## What is collected -/

def collected (output : Output) : Set OrderingKey := {key | ∃ event, output.get? key = some event}

def Faithful (db : Lmdb) (output : Output) : Prop :=
  ∀ key event, output.get? key = some event → db.Stored event ∧ event.orderingKey = key

theorem faithful_empty (db : Lmdb) : db.Faithful .empty := fun key event found => by cases found

theorem collected_empty : collected .empty = ∅ := by
  ext key
  constructor
  · intro found
    obtain ⟨event, present⟩ := found
    cases present
  · exact fun found => absurd found (Set.notMem_empty key)

theorem Faithful.insert {output : Output} (faithful : db.Faithful output) {event : DatabaseEvent}
    (stored : db.Stored event) : db.Faithful (output.insert event) := by
  intro key found present
  rw [Output.insert, SortedTable.get?_putNew] at present
  split at present
  · next same =>
      cases known : output.get? event.orderingKey with
      | none =>
          rw [known] at present
          cases present
          exact ⟨stored, same.symm⟩
      | some old =>
          rw [known] at present
          cases present
          exact same ▸ faithful _ _ known
  · exact faithful key found present

theorem collected_insert (output : Output) (event : DatabaseEvent) :
    collected (output.insert event) = collected output ∪ {event.orderingKey} := by
  ext key
  simp only [collected, Output.insert, SortedTable.get?_putNew, Set.mem_ofPred_eq, Set.mem_union,
    Set.mem_singleton_iff]
  split
  · next same => simp [same]
  · next different => simp [different]

/-- The stored events that match the filter. -/
def matching (db : Lmdb) (filter : DatabaseFilter) : Set OrderingKey :=
  {key | ∃ event, db.Stored event ∧ filter.matchEvent event ∧ event.orderingKey = key}

/-- A query part-way through: the scans so far covered `seen`. -/
structure Reached (db : Lmdb) (filter : DatabaseFilter) (limit : Option Nat)
    (initial : OrderingKey) (state : QueryState) (seen : Set OrderingKey) : Prop where
  faithful : db.Faithful state.output
  progress : Progress limit (db.matching filter) initial (sinceBound state.since) seen
    (collected state.output)

/-! ## One scan -/

/-- The events that a scan of these collects if no limit stops it. -/
def wanted (filter : DatabaseFilter) (firstOnly : Bool) (events : List DatabaseEvent) :
    List DatabaseEvent :=
  if firstOnly then (events.filter filter.matchEvent).take 1 else events.filter filter.matchEvent

/-- A scan of events above the lower bound is a step of a bounded scan. -/
theorem scan_eq_advance {events : List DatabaseEvent} (firstOnly : Bool) (count : Nat)
    (state : QueryState) (stored : ∀ event ∈ events, db.Stored event)
    (above : ∀ event ∈ events, state.since ≤ event.createdAt)
    (faithful : db.Faithful state.output) :
    ∃ final, db.scan filter limit firstOnly (events.map DatabaseEvent.id) count state = .ok final ∧
      db.Faithful final.output ∧
      sinceBound final.since = (advance limit ceiling
        ((wanted filter firstOnly events).map DatabaseEvent.orderingKey) count
        (sinceBound state.since)).1 ∧
      collected final.output = collected state.output ∪ {key | key ∈ (advance limit ceiling
        ((wanted filter firstOnly events).map DatabaseEvent.orderingKey) count
        (sinceBound state.since)).2} := by
  induction events generalizing count state with
  | nil =>
      refine ⟨state, rfl, faithful, ?_, ?_⟩
      · cases firstOnly <;> rfl
      · cases firstOnly <;> simp [wanted, advance]
  | cons event events ih =>
      have storedEvent : db.getEventById event.id = some event :=
        stored event List.mem_cons_self
      have aboveEvent : ¬ event.createdAt < state.since :=
        not_lt.mpr (above event List.mem_cons_self)
      have storedRest : ∀ other ∈ events, db.Stored other :=
        fun other member => stored other (.tail _ member)
      have aboveRest : ∀ other ∈ events, state.since ≤ other.createdAt :=
        fun other member => above other (.tail _ member)
      rw [List.map_cons, scan, storedEvent]
      dsimp only
      rw [if_neg aboveEvent]
      by_cases wants : filter.matchEvent event = true
      · rw [if_pos wants]
        have inserted := faithful.insert (stored event List.mem_cons_self)
        have grown := collected_insert state.output event
        have first : wanted filter firstOnly (event :: events) =
            event :: if firstOnly then [] else wanted filter false events := by
          cases firstOnly <;> simp [wanted, wants]
        rw [first, List.map_cons, advance]
        by_cases stops : limit.any (· ≤ count + 1) = true
        · rw [if_pos stops, if_pos stops]
          refine ⟨_, rfl, inserted, sinceBound_raise state.since event, ?_⟩
          simpa using grown
        · rw [if_neg stops, if_neg stops]
          cases firstOnly with
          | true => exact ⟨_, rfl, inserted, rfl, by simpa [advance] using grown⟩
          | false =>
              obtain ⟨final, scanned, faithfulFinal, since, output⟩ := ih (count + 1)
                { state with output := state.output.insert event } storedRest aboveRest inserted
              refine ⟨final, scanned, faithfulFinal, since, ?_⟩
              rw [output, grown]
              ext key
              simp only [Set.mem_union, Set.mem_singleton_iff, Set.mem_ofPred_eq, List.mem_cons,
                or_assoc]
              rfl
      · rw [if_neg wants]
        obtain ⟨final, scanned, rest⟩ := ih count state storedRest aboveRest faithful
        have skipped : wanted filter firstOnly (event :: events) = wanted filter firstOnly events := by
          simp [wanted, wants]
        rw [skipped]
        exact ⟨final, scanned, rest⟩

/-! ## Parts of a plan -/

/-- What each part of a loop keeps while it adds its cell, the loop keeps while
it adds all of them. -/
theorem foldlM_extends {β : Type} {items : List β}
    {body : QueryState → β → Except StoreError QueryState} {cells : β → Set OrderingKey}
    {keeps : QueryState → Set OrderingKey → Prop}
    (each : ∀ item ∈ items, ∀ state seen, keeps state seen →
      ∃ final, body state item = .ok final ∧ keeps final (seen ∪ cells item))
    (state : QueryState) (seen : Set OrderingKey) (kept : keeps state seen) :
    ∃ final, items.foldlM body state = .ok final ∧
      keeps final (seen ∪ {key | ∃ item ∈ items, key ∈ cells item}) := by
  induction items generalizing state seen with
  | nil =>
      refine ⟨state, rfl, ?_⟩
      simpa using kept
  | cons item items ih =>
      obtain ⟨next, stepped, keptNext⟩ := each item List.mem_cons_self state seen kept
      obtain ⟨final, folded, keptFinal⟩ :=
        ih (fun other member => each other (.tail _ member)) next _ keptNext
      have cells_eq : seen ∪ cells item ∪ {key | ∃ item ∈ items, key ∈ cells item} =
          seen ∪ {key | ∃ other ∈ item :: items, key ∈ cells other} := by
        ext key
        simp [or_assoc]
      refine ⟨final, ?_, cells_eq ▸ keptFinal⟩
      rw [List.foldlM_cons, stepped]
      exact folded

/-- From every point of the query whose lower bound is at least `since`, this
part of the plan succeeds and covers the cell. -/
def Covers (db : Lmdb) (filter : DatabaseFilter) (limit : Option Nat) (initial : OrderingKey)
    (since : Timestamp) (plan : QueryState → Except StoreError QueryState)
    (cell : Set OrderingKey) : Prop :=
  ∀ state seen, since ≤ state.since → db.Reached filter limit initial state seen →
    ∃ final, plan state = .ok final ∧ db.Reached filter limit initial final (seen ∪ cell) ∧
      state.since ≤ final.since

namespace Covers

variable {initial : OrderingKey} {since : Timestamp} {cell : Set OrderingKey}

theorem scan {firstOnly : Bool} {ids : QueryState → List EventId}
    (cellMatching : cell ⊆ db.matching filter) (cellInside : cell ⊆ Set.Iio initial)
    (lists : ∀ state : QueryState, since ≤ state.since → ∃ events,
      ids state = events.map DatabaseEvent.id ∧
      (∀ event ∈ events, db.Stored event ∧ event.orderingKey < sinceBound state.since) ∧
      ((wanted filter firstOnly events).map DatabaseEvent.orderingKey).Nodup ∧
      (∀ key, key ∈ (wanted filter firstOnly events).map DatabaseEvent.orderingKey ↔
        key ∈ cell ∧ key < sinceBound state.since) ∧
      ∀ count, limit = some count →
        Partitioned count ((wanted filter firstOnly events).map DatabaseEvent.orderingKey) ∨
          Fits count (db.matching filter)) :
    db.Covers filter limit initial since
      (fun state => db.scan filter limit firstOnly (ids state) 0 state) cell := by
  intro state seen later reached
  obtain ⟨events, idsEq, listed, distinct, exact, orderly⟩ := lists state later
  obtain ⟨final, scanned, faithful, bound, output⟩ := scan_eq_advance firstOnly 0 state (fun event member => (listed event member).1)
    (fun event member => since_le_of_lt (listed event member).2) reached.faithful
  refine ⟨final, ?_, ⟨faithful, ?_⟩, ?_⟩
  · dsimp only
    rw [idsEq, scanned]
  · rw [bound, output]
    exact reached.progress.step le_ceiling distinct exact cellMatching cellInside orderly
  · rw [← sinceBound_le_iff, bound]
    exact advance_le limit ceiling _ 0 _

theorem congr {plan : QueryState → Except StoreError QueryState} {cell' : Set OrderingKey}
    (covers : db.Covers filter limit initial since plan cell) (same : cell = cell') :
    db.Covers filter limit initial since plan cell' := same ▸ covers

/-- Part of a plan may depend on the bound that it starts from. -/
theorem from_state {plan : QueryState → QueryState → Except StoreError QueryState}
    (covers : ∀ start : QueryState, since ≤ start.since →
      db.Covers filter limit initial start.since (plan start) cell) :
    db.Covers filter limit initial since (fun state => plan state state) cell :=
  fun state seen later reached => covers state later state seen (le_refl _) reached

theorem foldlM {β : Type} {items : List β}
    {body : QueryState → β → Except StoreError QueryState} {cells : β → Set OrderingKey}
    (each : ∀ item ∈ items,
      db.Covers filter limit initial since (fun state => body state item) (cells item)) :
    db.Covers filter limit initial since (fun state => items.foldlM body state)
      {key | ∃ item ∈ items, key ∈ cells item} := by
  intro state seen later reached
  refine foldlM_extends (fun item member next seen
    (reached : db.Reached filter limit initial next seen ∧ state.since ≤ next.since) => ?_)
    state seen ⟨reached, le_refl _⟩
  obtain ⟨reachedNext, laterNext⟩ := reached
  obtain ⟨final, stepped, reachedFinal, laterFinal⟩ :=
    each item member next seen (later.trans laterNext) reachedNext
  exact ⟨final, stepped, reachedFinal, laterNext.trans laterFinal⟩

theorem forTagValues
    {body : QueryState → SingleLetterTag → String → Except StoreError QueryState}
    {cells : SingleLetterTag → String → Set OrderingKey}
    (each : ∀ tagName set, (tagName, set) ∈ filter.genericTags.entries → ∀ tagValue ∈ set.elems,
      db.Covers filter limit initial since (fun state => body state tagName tagValue)
        (cells tagName tagValue)) :
    db.Covers filter limit initial since (fun state => Lmdb.forTagValues filter body state)
      {key | ∃ tag ∈ filter.genericTags.entries, ∃ tagValue ∈ tag.2.elems,
        key ∈ cells tag.1 tagValue} :=
  Covers.foldlM fun tag member => Covers.foldlM fun tagValue valueMember =>
    each tag.1 tag.2 member tagValue valueMember

end Covers

/-! ## Scans in result order -/

/-- What a scan over these rows can collect. -/
def cellOf (db : Lmdb) (filter : DatabaseFilter) (initial : OrderingKey)
    (rows : DatabaseEvent → Prop) : Set OrderingKey :=
  {key | ∃ event, db.Stored event ∧ filter.matchEvent event ∧ rows event ∧
    event.orderingKey = key ∧ key < initial}

theorem cellOf_matching {initial : OrderingKey} {rows : DatabaseEvent → Prop} :
    db.cellOf filter initial rows ⊆ db.matching filter := by
  intro key found
  obtain ⟨event, stored, wants, _, same, _⟩ := found
  exact ⟨event, stored, wants, same⟩

theorem cellOf_inside {initial : OrderingKey} {rows : DatabaseEvent → Prop} :
    db.cellOf filter initial rows ⊆ Set.Iio initial := by
  intro key found
  obtain ⟨event, _, _, _, _, below⟩ := found
  exact below

theorem mem_map_orderingKey_filter {events : List DatabaseEvent} {key : OrderingKey} :
    key ∈ (events.filter filter.matchEvent).map DatabaseEvent.orderingKey ↔
      ∃ event ∈ events, filter.matchEvent event ∧ event.orderingKey = key := by
  simp [and_assoc]

theorem Covers.sorted {since until_ : Timestamp} {rows : DatabaseEvent → Prop}
    {ids : Timestamp → Timestamp → List EventId} (firstOnly : Bool)
    (lists : db.ListsWindow rows ids)
    (early : ∀ event, filter.matchEvent event = true → event.createdAt ≤ until_) :
    db.Covers filter limit (sinceBound since) since
      (fun state => db.scan filter limit firstOnly (ids state.since until_) 0 state)
      (if firstOnly then firstOf (db.cellOf filter (sinceBound since) rows)
        else db.cellOf filter (sinceBound since) rows) := by
  refine Covers.scan ?_ ?_ fun state later => ?_
  · split
    · exact fun key found => cellOf_matching found.1
    · exact cellOf_matching
  · split
    · exact fun key found => cellOf_inside found.1
    · exact cellOf_inside
  obtain ⟨events, listed, sorted⟩ := lists state.since until_
  have allSorted : ((events.filter filter.matchEvent).map DatabaseEvent.orderingKey).Pairwise
      (· < ·) := List.pairwise_map.mpr (sorted.sublist List.filter_sublist)
  have members : ∀ key, key ∈ (events.filter filter.matchEvent).map DatabaseEvent.orderingKey ↔
      key ∈ db.cellOf filter (sinceBound since) rows ∧ key < sinceBound state.since := by
    intro key
    rw [mem_map_orderingKey_filter]
    constructor
    · intro found
      obtain ⟨event, member, wants, same⟩ := found
      obtain ⟨stored, inRows, _, below⟩ := (listed.mem event).mp member
      subst same
      exact ⟨⟨event, stored, wants, inRows, rfl,
        below.trans_le (sinceBound_le_iff.mpr later)⟩, below⟩
    · intro found
      obtain ⟨⟨event, stored, wants, inRows, same, _⟩, below⟩ := found
      subst same
      exact ⟨event, (listed.mem event).mpr ⟨stored, inRows, early event wants, below⟩, wants, rfl⟩
  have batchSorted : ((wanted filter firstOnly events).map DatabaseEvent.orderingKey).Pairwise
      (· < ·) := by
    cases firstOnly with
    | false => exact allSorted
    | true =>
        simp only [wanted, ↓reduceIte, List.map_take]
        exact allSorted.sublist (List.take_sublist _ _)
  refine ⟨events, listed.ids_eq, fun event member => ?_, batchSorted.imp ne_of_lt, ?_,
    fun count _ => .inl (partitioned_of_sorted batchSorted count)⟩
  · obtain ⟨stored, _, _, below⟩ := (listed.mem event).mp member
    exact ⟨stored, below⟩
  · cases firstOnly with
    | false => exact members
    | true =>
        simp only [wanted, ↓reduceIte, List.map_take]
        exact mem_take_one allSorted members

/-! ## Scans in ID order -/

/-- The stored events that the intersection of one author, kind and tag value
holds and the filter accepts, in the order in which they are scanned. -/
def intersectionMatches (db : Lmdb) (filter : DatabaseFilter) (author : PublicKey) (kind : UInt16)
    (tagName : SingleLetterTag) (tagValue : String) : List DatabaseEvent :=
  db.events.values.filter fun event =>
    event.pubkey = author ∧ event.kind = kind ∧
      HasTagPrefix tagName tagValue event ∧ filter.matchEvent event = true

/-- Where the limit would cut the intersection, no later event is newer than one
of those before it. -/
def IntersectionOrdered (db : Lmdb) (filter : DatabaseFilter) (limit : Nat) (author : PublicKey)
    (kind : UInt16) (tagName : SingleLetterTag) (tagValue : String) : Prop :=
  ∀ front ∈ (db.intersectionMatches filter author kind tagName tagValue).take limit,
    ∀ back ∈ (db.intersectionMatches filter author kind tagName tagValue).drop (limit - 1),
      back.createdAt ≤ front.createdAt

theorem values_sorted_by_id (coherent : db.Coherent) :
    db.events.values.Pairwise fun left right => left.id < right.id := by
  refine List.pairwise_map.mpr (db.events.sorted.imp_of_mem fun left right less => ?_)
  rename_i leftEntry rightEntry
  rw [coherent.keyed _ _ (SortedTable.get?_eq_some.mpr left),
    coherent.keyed _ _ (SortedTable.get?_eq_some.mpr right)]
  exact less

theorem mem_values_iff (coherent : db.Coherent) {event : DatabaseEvent} :
    event ∈ db.events.values ↔ db.Stored event := by
  rw [SortedTable.mem_values]
  constructor
  · intro found
    obtain ⟨id, present⟩ := found
    exact coherent.stored present
  · exact fun stored => ⟨event.id, stored⟩

theorem partitioned_of_intersectionOrdered (coherent : db.Coherent) {count : Nat}
    {author : PublicKey} {kind : UInt16} {tagName : SingleLetterTag} {tagValue : String}
    (ordered : db.IntersectionOrdered filter count author kind tagName tagValue) :
    Partitioned count ((db.intersectionMatches filter author kind tagName tagValue).map
      DatabaseEvent.orderingKey) := by
  have sorted : ((db.intersectionMatches filter author kind tagName tagValue).map
      DatabaseEvent.id).Pairwise (· < ·) :=
    List.pairwise_map.mpr ((values_sorted_by_id coherent).sublist List.filter_sublist)
  intro front frontMember back backMember
  rw [← List.map_take] at frontMember
  rw [← List.map_drop] at backMember
  obtain ⟨frontEvent, frontIn, frontKey⟩ := List.mem_map.mp frontMember
  obtain ⟨backEvent, backIn, backKey⟩ := List.mem_map.mp backMember
  subst frontKey backKey
  have older := ordered frontEvent frontIn backEvent backIn
  have ids : frontEvent.id ≤ backEvent.id := by
    apply partitioned_of_sorted sorted count
    · rw [← List.map_take]
      exact List.mem_map_of_mem frontIn
    · rw [← List.map_drop]
      exact List.mem_map_of_mem backIn
  rw [DatabaseEvent.orderingKey, DatabaseEvent.orderingKey, Prod.Lex.toLex_le_toLex]
  cases lt_or_eq_of_le older with
  | inl less => exact .inl less
  | inr same => exact .inr ⟨congrArg OrderDual.toDual same.symm, ids⟩

theorem mem_elems_collectIds {ids : List EventId} {id : EventId} :
    id ∈ SortedSet.elems (collectIds ids) ↔ id ∈ ids := by
  have each : ∀ (ids : List EventId) (set : SortedSet EventId),
      id ∈ SortedSet.elems (ids.foldl SortedSet.insert set) ↔ id ∈ ids ∨ id ∈ set.elems := by
    intro ids
    induction ids with
    | nil => simp
    | cons head ids ih =>
        intro set
        rw [List.foldl_cons, ih, SortedSet.mem_elems, SortedSet.mem_elems, SortedSet.insert,
          SortedTable.get?_put, List.mem_cons]
        by_cases same : id = head <;> simp [same]
  have none : id ∉ SortedSet.elems (.empty : SortedSet EventId) := fun member => by cases member
  rw [collectIds, each ids .empty]
  simp only [none, or_false]

theorem elems_sorted {α : Type} [LinearOrder α] (set : SortedSet α) :
    (SortedSet.elems set).Pairwise (· < ·) :=
  List.pairwise_map.mpr set.sorted

/-- The intersection lists its stored events by ID. -/
theorem intersection_lists {leftRows rightRows : DatabaseEvent → Prop} {left right : List EventId}
    {leftEvents rightEvents : List DatabaseEvent}
    (leftLists : db.Lists leftRows left leftEvents)
    (rightLists : db.Lists rightRows right rightEvents) :
    ∃ events, db.Lists (fun event => leftRows event ∧ rightRows event)
        (intersection (collectIds left) (collectIds right)) events ∧
      events.Pairwise fun left right => left.id < right.id := by
  have members : ∀ id, id ∈ intersection (collectIds left) (collectIds right) ↔
      id ∈ left ∧ id ∈ right := by
    intro id
    simp [intersection, mem_elems_collectIds]
  have owners : ∀ id ∈ intersection (collectIds left) (collectIds right),
      ∃ event, db.Stored event ∧ event.id = id := by
    intro id member
    obtain ⟨inLeft, _⟩ := (members id).mp member
    rw [leftLists.ids_eq] at inLeft
    obtain ⟨event, eventMember, same⟩ := List.mem_map.mp inLeft
    exact ⟨event, ((leftLists.mem event).mp eventMember).1, same⟩
  obtain ⟨events, ids, stored⟩ := exists_events owners
  have inLists {rows : DatabaseEvent → Prop} {ids : List EventId} {listed : List DatabaseEvent}
      (lists : db.Lists rows ids listed) {event : DatabaseEvent} (storedEvent : db.Stored event) :
      event.id ∈ ids ↔ rows event := by
    rw [lists.ids_eq]
    constructor
    · intro member
      obtain ⟨other, otherMember, same⟩ := List.mem_map.mp member
      obtain ⟨otherStored, inRows⟩ := (lists.mem other).mp otherMember
      exact otherStored.unique storedEvent same ▸ inRows
    · exact fun inRows => List.mem_map_of_mem ((lists.mem event).mpr ⟨storedEvent, inRows⟩)
  refine ⟨events, ⟨ids, fun event => ?_⟩, ?_⟩
  · constructor
    · intro member
      have storedEvent := stored event member
      have inBoth := (members event.id).mp (ids ▸ List.mem_map_of_mem member)
      exact ⟨storedEvent, (inLists leftLists storedEvent).mp inBoth.1,
        (inLists rightLists storedEvent).mp inBoth.2⟩
    · intro found
      obtain ⟨storedEvent, inLeft, inRight⟩ := found
      have listed := (members event.id).mpr ⟨(inLists leftLists storedEvent).mpr inLeft,
        (inLists rightLists storedEvent).mpr inRight⟩
      rw [ids] at listed
      obtain ⟨other, otherMember, same⟩ := List.mem_map.mp listed
      exact (stored other otherMember).unique storedEvent same ▸ otherMember
  · refine List.pairwise_map.mp ?_
    rw [← ids]
    exact (elems_sorted _).sublist List.filter_sublist

private theorem eq_of_sorted_by_id {left right : List DatabaseEvent}
    (leftSorted : left.Pairwise fun left right => left.id < right.id)
    (rightSorted : right.Pairwise fun left right => left.id < right.id)
    (members : ∀ event, event ∈ left ↔ event ∈ right) : left = right := by
  have distinct {events : List DatabaseEvent}
      (sorted : events.Pairwise fun left right => left.id < right.id) : events.Nodup :=
    sorted.imp fun less same => absurd less (by simp [same])
  exact ((List.perm_ext_iff_of_nodup (distinct leftSorted) (distinct rightSorted)).mpr
    members).eq_of_pairwise
    (fun _ _ _ _ forward backward => absurd forward (not_lt.mpr backward.le))
    leftSorted rightSorted

/-- What the scan of an intersection wants, whose author and kind part was listed
when the bound was `outer`. -/
theorem intersection_wanted (coherent : db.Coherent) {initial outer until_ : Timestamp}
    (within : initial ≤ outer) (author : PublicKey) (kind : UInt16) (tagName : SingleLetterTag)
    (tagValue : String)
    (early : ∀ event, filter.matchEvent event = true → event.createdAt ≤ until_)
    {state : QueryState} (later : outer ≤ state.since) :
    ∃ events, Lmdb.intersection
        (collectIds (db.atcIter author tagName tagValue state.since until_))
        (collectIds (db.akcIter author kind outer until_)) = events.map DatabaseEvent.id ∧
      (∀ event ∈ events, db.Stored event ∧ event.orderingKey < sinceBound state.since) ∧
      ((wanted filter false events).map DatabaseEvent.orderingKey).Nodup ∧
      (∀ key, key ∈ (wanted filter false events).map DatabaseEvent.orderingKey ↔
        key ∈ db.cellOf filter (sinceBound initial) (fun event =>
          event.pubkey = author ∧ event.kind = kind ∧ HasTagPrefix tagName tagValue event) ∧
        key < sinceBound state.since) ∧
      (wanted filter false events).map DatabaseEvent.orderingKey =
        ((db.intersectionMatches filter author kind tagName tagValue).map
          DatabaseEvent.orderingKey).filter (· < sinceBound state.since) := by
  obtain ⟨tagged, taggedLists, _⟩ :=
    atcIter_lists coherent author tagName tagValue state.since until_
  obtain ⟨ofKind, ofKindLists, _⟩ := akcIter_lists coherent author kind outer until_
  obtain ⟨events, listed, sorted⟩ := intersection_lists taggedLists ofKindLists
  have lower : sinceBound state.since ≤ sinceBound outer := sinceBound_le_iff.mpr later
  have matches_eq : events.filter filter.matchEvent =
      (db.intersectionMatches filter author kind tagName tagValue).filter
        fun event => event.orderingKey < sinceBound state.since := by
    refine eq_of_sorted_by_id (sorted.sublist List.filter_sublist)
      (((values_sorted_by_id coherent).sublist List.filter_sublist).sublist
        List.filter_sublist) fun event => ?_
    simp only [List.mem_filter, listed.mem, intersectionMatches, mem_values_iff coherent,
      decide_eq_true_eq]
    constructor
    · intro found
      obtain ⟨⟨stored, ⟨⟨owner, hasTag⟩, _, below⟩, ⟨_, ofKind⟩, _, _⟩, wants⟩ := found
      exact ⟨⟨stored, owner, ofKind, hasTag, wants⟩, below⟩
    · intro found
      obtain ⟨⟨stored, owner, ofKind, hasTag, wants⟩, below⟩ := found
      have inTime := early event wants
      exact ⟨⟨stored, ⟨⟨owner, hasTag⟩, inTime, below⟩, ⟨owner, ofKind⟩, inTime,
        below.trans_le lower⟩, wants⟩
  have keys_eq : (wanted filter false events).map DatabaseEvent.orderingKey =
      ((db.intersectionMatches filter author kind tagName tagValue).map
        DatabaseEvent.orderingKey).filter (· < sinceBound state.since) := by
    change (events.filter filter.matchEvent).map DatabaseEvent.orderingKey = _
    rw [matches_eq, List.filter_map]
    rfl
  refine ⟨events, listed.ids_eq, fun event member => ?_, ?_, fun key => ?_, keys_eq⟩
  · obtain ⟨stored, ⟨_, _, below⟩, _⟩ := (listed.mem event).mp member
    exact ⟨stored, below⟩
  · have distinct := (sorted.sublist (List.filter_sublist (p := filter.matchEvent)))
    refine List.pairwise_map.mpr (distinct.imp fun less same => ?_)
    have sameId := congrArg (fun key : OrderingKey => (ofLex key).2) same
    exact absurd less (not_lt.mpr (le_of_eq sameId.symm))
  · rw [keys_eq, List.mem_filter, List.mem_map]
    simp only [intersectionMatches, List.mem_filter, mem_values_iff coherent, decide_eq_true_eq]
    constructor
    · intro found
      obtain ⟨⟨event, ⟨stored, owner, ofKind, hasTag, wants⟩, same⟩, below⟩ := found
      exact ⟨⟨event, stored, wants, ⟨owner, ofKind, hasTag⟩, same,
        below.trans_le (lower.trans (sinceBound_le_iff.mpr within))⟩, below⟩
    · intro found
      obtain ⟨⟨event, stored, wants, ⟨owner, ofKind, hasTag⟩, same, _⟩, below⟩ := found
      exact ⟨⟨event, ⟨stored, owner, ofKind, hasTag, wants⟩, same⟩, below⟩

theorem Covers.intersection (coherent : db.Coherent) {initial outer until_ : Timestamp}
    (within : initial ≤ outer) (author : PublicKey) (kind : UInt16) (tagName : SingleLetterTag)
    (tagValue : String)
    (early : ∀ event, filter.matchEvent event = true → event.createdAt ≤ until_)
    (orderly : ∀ count, limit = some count →
      db.IntersectionOrdered filter count author kind tagName tagValue ∨
        Fits count (db.matching filter)) :
    db.Covers filter limit (sinceBound initial) outer
      (fun state => db.iterateFilterUntilLimit filter limit
        (Lmdb.intersection (collectIds (db.atcIter author tagName tagValue state.since until_))
          (collectIds (db.akcIter author kind outer until_))) state)
      (db.cellOf filter (sinceBound initial) fun event =>
        event.pubkey = author ∧ event.kind = kind ∧ HasTagPrefix tagName tagValue event) := by
  refine Covers.scan cellOf_matching cellOf_inside fun state later => ?_
  obtain ⟨events, ids, listed, distinct, exact, keys⟩ :=
    intersection_wanted coherent within author kind tagName tagValue early later
  refine ⟨events, ids, listed, distinct, exact, fun count limited => ?_⟩
  rw [keys]
  exact (orderly count limited).imp_left fun ordered =>
    (partitioned_of_intersectionOrdered coherent ordered).filter _

end RustNostr.NostrLmdb.Lmdb
