import Mathlib
import RustNostr.NostrLmdb.QueryRuns
import RustNostr.NostrSqlite.Runs

/-!
# Queries of the SQLite store

What a statement built from a filter selects, against what the filter's own
match function says of the stored events. The two differ where a time does not
fit a signed number, where a tag is asked for without a value, and where the
limit cuts between events created at one time.
-/

set_option autoImplicit false

namespace RustNostr.NostrSqlite

open Library

theorem asI64_injective : Function.Injective asI64 := by
  intro left right same
  have left_bound := left.toNat_lt
  have right_bound := right.toNat_lt
  rw [← UInt64.toNat_inj]
  unfold asI64 at same
  split at same <;> split at same <;> omega

/-! ## Rows and events -/

namespace EventDb

variable {row : EventDb} {event : Event}

theorem Checked.exists_toEvent (checked : row.Checked) : ∃ event, row.toEvent = some event :=
  ⟨_, if_pos ⟨checked.created.le, checked.kind_nonneg, checked.kind_lt⟩⟩

theorem Checked.rowOf_toEvent (checked : row.Checked) (same : row.toEvent = some event) :
    Database.rowOf event = row := by
  have created := checked.created
  have representable := checked.representable
  have kind_nonneg := checked.kind_nonneg
  have kind_lt := checked.kind_lt
  rw [toEvent, if_pos ⟨created.le, kind_nonneg, kind_lt⟩] at same
  cases same
  have time : (UInt64.ofNat row.createdAt.toNat).toNat = row.createdAt.toNat :=
    UInt64.toNat_ofNat_of_lt' (by change _ < 2 ^ 64; omega)
  have number : (UInt16.ofNat row.kind.toNat).toNat = row.kind.toNat :=
    UInt16.toNat_ofNat_of_lt' (by change _ < 2 ^ 16; omega)
  have created_same : asI64 (UInt64.ofNat row.createdAt.toNat) = row.createdAt := by
    rw [asI64_of_lt (by omega), time, Int.toNat_of_nonneg created.le]
  have kind_same : ((UInt16.ofNat row.kind.toNat).toNat : Int) = row.kind := by
    rw [number, Int.toNat_of_nonneg kind_nonneg]
  simp only [Database.rowOf, Kind.asU16_fromU16, created_same, kind_same]

end EventDb

namespace Database

variable {db : Database} {engine : Engine} {event : Event} {row : EventDb} {filter : Filter}

/-- The event that a row of the database stands for. -/
def Stored (db : Database) (event : Event) : Prop :=
  ∃ row ∈ db.events.values, row.toEvent = some event

theorem Valid.checked_of_mem (valid : db.Valid) (member : row ∈ db.events.values) :
    row.Checked := by
  obtain ⟨id, found⟩ := SortedTable.mem_values.mp member
  exact valid.checked id row found

theorem Valid.mem_values (valid : db.Valid) :
    row ∈ db.events.values ↔ db.events.get? row.id = some row := by
  rw [SortedTable.mem_values]
  constructor
  · rintro ⟨id, found⟩
    rwa [valid.keyed id row found]
  · intro found
    exact ⟨row.id, found⟩

/-- A stored event is the event of its own row. -/
theorem Valid.stored_row (valid : db.Valid) (stored : db.Stored event) :
    rowOf event ∈ db.events.values ∧ (rowOf event).toEvent = some event := by
  obtain ⟨row, member, same⟩ := stored
  rw [(valid.checked_of_mem member).rowOf_toEvent same]
  exact ⟨member, same⟩

theorem Valid.hasTag_iff (valid : db.Valid) (member : row ∈ db.events.values)
    {name : SingleLetterTag} {value : String} :
    db.hasTag name value row = true ↔ (name, value) ∈ extractTags row.tags := by
  have found := valid.mem_values.mp member
  have tagged := valid.tagged name value row.id
  rw [found] at tagged
  simp only [Option.some.injEq, exists_eq_left'] at tagged
  rw [← tagged, hasTag, Option.isSome_iff_exists]
  constructor
  · rintro ⟨_, tag⟩
    exact tag
  · intro tag
    exact ⟨(), tag⟩

/-- Rows that differ stand for events that the order tells apart. -/
theorem Valid.pairwise_toEvent (valid : db.Valid) {rows : List EventDb} (nodup : rows.Nodup)
    (within : ∀ row ∈ rows, row ∈ db.events.values) :
    (rows.filterMap EventDb.toEvent).Pairwise fun left right =>
      left.orderingKey ≠ right.orderingKey := by
  rw [List.pairwise_filterMap]
  apply nodup.imp_of_mem
  intro left right left_member right_member different left_event left_same right_event right_same same
  have left_stored := within left left_member
  have right_stored := within right right_member
  have left_row := (valid.checked_of_mem left_stored).rowOf_toEvent left_same
  have right_row := (valid.checked_of_mem right_stored).rowOf_toEvent right_same
  have same_id : left.id = right.id := by
    rw [← left_row, ← right_row]
    exact id_of_orderingKey same
  have found := valid.mem_values.mp right_stored
  rw [← same_id, valid.mem_values.mp left_stored] at found
  exact different (Option.some.inj found)

/-! ## The naive answer -/

/-- The stored events that match, in the order of events. The search is left to
the engine and not part of the match. -/
def matching (db : Database) (filter : Filter) : List Event :=
  (EventSet.collect ((db.events.values.filterMap EventDb.toEvent).filter fun event =>
    filter.matchEvent event { nip50 := false })).values

def queryLimit (filter : Filter) : Nat := filter.limit.getD eventsQueryLimit

/-- Whatever the engine does, the query answers with the stored matches in their
order, up to the limit in force. -/
def AnswersNaively (db : Database) (filter : Filter) : Prop :=
  ∀ engine, ∃ found, EventSet.Ordered found ∧
    (∀ event, event ∈ found ↔
      db.Stored event ∧ filter.matchEvent event { nip50 := false } = true) ∧
    db.query engine filter = found.take (queryLimit filter)

theorem nodup_values (table : SortedTable EventId EventDb)
    (keyed : ∀ id row, table.get? id = some row → row.id = id) : table.values.Nodup := by
  unfold SortedTable.values
  apply List.Nodup.map_on
  · rintro ⟨left, left_row⟩ left_member ⟨right, right_row⟩ right_member same
    have left_id := keyed left left_row (SortedTable.get?_eq_some.mpr left_member)
    have right_id := keyed right right_row (SortedTable.get?_eq_some.mpr right_member)
    dsimp only at same
    rw [same] at left_id
    rw [Prod.mk.injEq]
    exact ⟨left_id.symm.trans right_id, same⟩
  · exact table.entries_nodup

theorem Valid.matching_different (valid : db.Valid) (filter : Filter) :
    ((db.events.values.filterMap EventDb.toEvent).filter fun event =>
      filter.matchEvent event { nip50 := false }).Pairwise fun left right =>
        left.orderingKey ≠ right.orderingKey :=
  (valid.pairwise_toEvent (nodup_values db.events valid.keyed) fun _ member => member).filter _

theorem Valid.ordered_matching (valid : db.Valid) (filter : Filter) :
    EventSet.Ordered (db.matching filter) :=
  EventSet.ordered_collect (valid.matching_different filter)

theorem Valid.mem_matching (valid : db.Valid) : event ∈ db.matching filter ↔
    db.Stored event ∧ filter.matchEvent event { nip50 := false } = true := by
  rw [matching, EventSet.mem_collect (valid.matching_different filter), List.mem_filter,
    List.mem_filterMap]
  rfl

/-! ## What a statement selects -/

theorem mem_selected {query : FilterQuery} : row ∈ db.selected engine query ↔
    (row ∈ db.events.values ∧ (query.joinTags = true → ∃ name value,
      db.eventTags.get? (tagKey name value row.id) = some ())) ∧
      ∀ condition ∈ query.conditions, db.holds engine row condition = true := by
  rw [selected, List.mem_dedup, List.mem_filter, List.all_eq_true]
  apply and_congr_left'
  unfold fromEvents
  split
  next joins =>
    simp only [joins, forall_const, List.mem_flatMap, List.mem_map, List.mem_filter]
    constructor
    · rintro ⟨other, member, key, ⟨tag, own⟩, same⟩
      subst same
      refine ⟨member, (ofLex key).1, (ofLex (ofLex key).2).1, ?_⟩
      rw [← of_decide_eq_true own]
      exact SortedSet.mem_elems.mp tag
    · rintro ⟨member, name, value, tag⟩
      refine ⟨row, member, tagKey name value row.id, ⟨SortedSet.mem_elems.mpr tag, ?_⟩, .refl _⟩
      exact decide_eq_true (eventId_tagKey name value row.id)
  next plain => simp [plain]

theorem forall_inCondition {α : Type} [LinearOrder α] {set : Option (SortedSet α)}
    {condition : List α → Condition} {holds : Condition → Prop} :
    (∀ each ∈ inCondition set condition, holds each) ↔
      ∀ elements, set = some elements → elements.isEmpty = false → holds (condition elements.elems) := by
  unfold inCondition
  split
  next elements =>
    split
    next empty => simp [empty]
    next nonempty => simp [nonempty]
  next => simp

theorem forall_map_toList {α : Type} {value : Option α} {condition : α → Condition}
    {holds : Condition → Prop} :
    (∀ each ∈ (value.map condition).toList, holds each) ↔
      ∀ given, value = some given → holds (condition given) := by
  cases value <;> simp

/-- The filter as the statement expresses it: a time that is too late to be a
signed number bounds nothing from below, and a tag without values asks for
nothing. -/
def expressed (filter : Filter) : Filter :=
  { filter with
    since := filter.since.filter fun since => since.toNat < 2 ^ 63
    genericTags := filter.genericTags.filter fun _ values => !values.isEmpty }

/-- What the statement asks of an event. As an upper bound, such a time leaves
nothing; and as soon as the filter names a tag, the tables are joined. -/
structure Asks (filter : Filter) (event : Event) : Prop where
  until_fits : ∀ until_, filter.until_ = some until_ → until_.toNat < 2 ^ 63
  matched : (expressed filter).matchEvent event { nip50 := false } = true
  tagged : filter.genericTags.entries.isEmpty = false → extractTags event.tags ≠ []

theorem matchEvent_iff : filter.matchEvent event { nip50 := false } = true ↔
    filter.idsMatch event = true ∧ filter.authorsMatch event = true ∧
      filter.kindMatch event = true ∧
      (∀ since, filter.since = some since → since ≤ event.createdAt) ∧
      (∀ until_, filter.until_ = some until_ → event.createdAt ≤ until_) ∧
      ∀ name values, filter.genericTags.get? name = some values →
        ∃ value ∈ values.elems, (name, value) ∈ extractTags event.tags := by
  simp only [Filter.matchEvent, Bool.not_true, Bool.false_or, Bool.not_false, Bool.true_or,
    Bool.and_true, Bool.and_eq_true, Option.all_eq_true, decide_eq_true_eq, and_assoc,
    Filter.tagMatch_iff]
  rfl

theorem asks_iff : Asks filter event ↔
    filter.idsMatch event = true ∧ filter.authorsMatch event = true ∧
      filter.kindMatch event = true ∧
      (∀ since, filter.since = some since → since.toNat < 2 ^ 63 → since ≤ event.createdAt) ∧
      (∀ until_, filter.until_ = some until_ →
        until_.toNat < 2 ^ 63 ∧ event.createdAt ≤ until_) ∧
      (∀ name values, filter.genericTags.get? name = some values → values.isEmpty = false →
        ∃ value ∈ values.elems, (name, value) ∈ extractTags event.tags) ∧
      (filter.genericTags.entries.isEmpty = false → extractTags event.tags ≠ []) := by
  have since_iff : (∀ since, (expressed filter).since = some since → since ≤ event.createdAt) ↔
      ∀ since, filter.since = some since → since.toNat < 2 ^ 63 → since ≤ event.createdAt := by
    simp only [expressed, Option.filter_eq_some_iff, decide_eq_true_eq, and_imp]
  have tags_iff : (∀ name values, (expressed filter).genericTags.get? name = some values →
        ∃ value ∈ values.elems, (name, value) ∈ extractTags event.tags) ↔
      ∀ name values, filter.genericTags.get? name = some values → values.isEmpty = false →
        ∃ value ∈ values.elems, (name, value) ∈ extractTags event.tags := by
    simp only [expressed, SortedTable.get?_filter, Option.filter_eq_some_iff, Bool.not_eq_true',
      and_imp]
  constructor
  · intro asks
    obtain ⟨ids, authors, kinds, since, until_, tags⟩ := matchEvent_iff.mp asks.matched
    refine ⟨ids, authors, kinds, since_iff.mp since, fun time given => ?_, tags_iff.mp tags,
      asks.tagged⟩
    exact ⟨asks.until_fits time given, until_ time given⟩
  · rintro ⟨ids, authors, kinds, since, until_, tags, tagged⟩
    refine ⟨fun time given => (until_ time given).1, matchEvent_iff.mpr ?_, tagged⟩
    exact ⟨ids, authors, kinds, since_iff.mpr since, fun time given => (until_ time given).2,
      tags_iff.mpr tags⟩

theorem Valid.createdAt_eq (valid : db.Valid) (member : row ∈ db.events.values)
    (same : row.toEvent = some event) : row.createdAt = event.createdAt.toNat ∧
      event.createdAt.toNat < 2 ^ 63 := by
  have checked := valid.checked_of_mem member
  have own := checked.rowOf_toEvent same
  have created : row.createdAt = asI64 event.createdAt := by rw [← own, rowOf]
  have fits := (asI64_pos.mp (created ▸ checked.created)).2
  exact ⟨created.trans (asI64_of_lt fits), fits⟩

theorem holds_createdAtFrom {time : Timestamp} (created : row.createdAt = event.createdAt.toNat) :
    db.holds engine row (.createdAtFrom (asI64 time)) = true ↔
      (time.toNat < 2 ^ 63 → time ≤ event.createdAt) := by
  have bound := time.toNat_lt
  rw [holds, decide_eq_true_eq, created, UInt64.le_iff_toNat_le]
  unfold asI64
  split <;> omega

theorem holds_createdAtUpTo {time : Timestamp} (created : row.createdAt = event.createdAt.toNat) :
    db.holds engine row (.createdAtUpTo (asI64 time)) = true ↔
      time.toNat < 2 ^ 63 ∧ event.createdAt ≤ time := by
  have bound := time.toNat_lt
  rw [holds, decide_eq_true_eq, created, UInt64.le_iff_toNat_le]
  unfold asI64
  split <;> omega

theorem holds_kindIn {kinds : List UInt16} (kind : row.kind = event.kind.asU16.toNat) :
    db.holds engine row (.kindIn (kinds.map fun kind => (kind.toNat : Int))) = true ↔
      event.kind.asU16 ∈ kinds := by
  rw [holds, List.contains_iff_mem, kind]
  apply List.mem_map_of_injective
  intro left right same
  exact UInt16.toNat_inj.mp (Int.ofNat.inj same)

theorem withLimit_eq (filter : Filter) (defaultLimit : Nat) :
    withLimit filter defaultLimit =
      { filter with limit := some (filter.limit.getD defaultLimit) } := by
  obtain ⟨ids, authors, kinds, search, since, until_, limit, genericTags⟩ := filter
  cases limit <;> rfl

theorem buildFilter_query (filter : Filter) :
    buildFilter (withLimit filter eventsQueryLimit) .select =
      { joinTags := !filter.genericTags.entries.isEmpty
        conditions := filterConditions filter
        limit := some (asI64 (UInt64.ofNat (queryLimit filter))) } := by
  rw [withLimit_eq]
  unfold buildFilter filterIsEmpty
  simp only [Option.isNone_some, Bool.and_false, Bool.false_and]
  rfl

theorem Valid.forall_tagIn (valid : db.Valid) (member : row ∈ db.events.values)
    (tags : SortedTable SingleLetterTag (SortedSet String)) :
    (∀ condition ∈ tags.entries.flatMap fun (tag, values) => inCondition (some values) (.tagIn tag),
        db.holds engine row condition = true) ↔
      ∀ name values, tags.get? name = some values → values.isEmpty = false →
        ∃ value ∈ values.elems, (name, value) ∈ extractTags row.tags := by
  have tagIn : ∀ name (values : SortedSet String),
      db.holds engine row (.tagIn name values.elems) = true ↔
        ∃ value ∈ values.elems, (name, value) ∈ extractTags row.tags := by
    intro name values
    rw [holds, List.any_eq_true]
    simp only [valid.hasTag_iff member]
  simp only [List.forall_mem_flatMap, forall_inCondition, Prod.forall, SortedTable.get?_eq_some,
    Option.some.injEq, forall_eq', tagIn]

/-- A row is selected if its event is one that the statement asks for. -/
theorem Valid.mem_selected_iff (valid : db.Valid) (searchless : filter.search = none)
    (same : row.toEvent = some event) :
    row ∈ db.selected engine (buildFilter (withLimit filter eventsQueryLimit) .select) ↔
      row ∈ db.events.values ∧ Asks filter event := by
  rw [mem_selected, buildFilter_query, and_assoc]
  apply and_congr_right
  intro member
  have own := (valid.checked_of_mem member).rowOf_toEvent same
  obtain ⟨created, _⟩ := valid.createdAt_eq member same
  have kind : row.kind = event.kind.asU16.toNat := by rw [← own, rowOf]
  have tags : extractTags row.tags = extractTags event.tags := by rw [← own, rowOf]
  have joined : (∃ name value, db.eventTags.get? (tagKey name value row.id) = some ()) ↔
      extractTags event.tags ≠ [] := by
    simp only [valid.tagged, valid.mem_values.mp member, Option.some.injEq, exists_eq_left', tags]
    rw [ne_eq, List.eq_nil_iff_forall_not_mem, not_forall_not]
    exact Prod.exists.symm
  have idIn : ∀ ids, db.holds engine row (.idIn ids) = true ↔ event.id ∈ ids := by
    intro ids
    rw [holds, List.contains_iff_mem, ← own, rowOf]
  have pubkeyIn : ∀ authors, db.holds engine row (.pubkeyIn authors) = true ↔
      event.pubkey ∈ authors := by
    intro authors
    rw [holds, List.contains_iff_mem, ← own, rowOf]
  rw [asks_iff, joined]
  simp only [filterConditions, List.forall_mem_append, forall_inCondition, forall_map_toList,
    searchless, reduceCtorEq, false_implies, implies_true, and_true, Bool.not_eq_true', idIn,
    pubkeyIn, holds_kindIn kind, holds_createdAtFrom created, holds_createdAtUpTo created,
    valid.forall_tagIn member, tags, Filter.idsMatch, Filter.authorsMatch, Filter.kindMatch,
    Filter.setMatch_iff]
  tauto

/-! ## The answer -/

/-- The rows of the answer. -/
def answered (db : Database) (engine : Engine) (filter : Filter) : List EventDb :=
  let query := buildFilter (withLimit filter eventsQueryLimit) .select
  limited engine query (db.selected engine query)

theorem answered_eq (db : Database) (engine : Engine) (filter : Filter) :
    db.answered engine filter = limitRows (asI64 (UInt64.ofNat (queryLimit filter)))
      (engine.order.arrange
        (db.selected engine (buildFilter (withLimit filter eventsQueryLimit) .select))) := by
  rw [answered, buildFilter_query]
  rfl

theorem answered_subset (db : Database) (engine : Engine) (filter : Filter) :
    ∀ row ∈ db.answered engine filter,
      row ∈ db.selected engine (buildFilter (withLimit filter eventsQueryLimit) .select) := by
  intro row member
  rw [answered_eq] at member
  exact (engine.order.mem_arrange _ row).mp ((limitRows_sublist _ _).subset member)

theorem answered_nodup (db : Database) (engine : Engine) (filter : Filter) :
    (db.answered engine filter).Nodup := by
  rw [answered_eq]
  exact ((engine.order.perm _).nodup_iff.mpr (List.nodup_dedup _)).sublist (limitRows_sublist _ _)

theorem Valid.query_different (valid : db.Valid) (engine : Engine) (filter : Filter) :
    ((db.answered engine filter).filterMap EventDb.toEvent).Pairwise fun left right =>
      left.orderingKey ≠ right.orderingKey :=
  valid.pairwise_toEvent (answered_nodup db engine filter) fun row member =>
    (mem_selected.mp (answered_subset db engine filter row member)).1.1

theorem Valid.ordered_query (valid : db.Valid) (engine : Engine) (filter : Filter) :
    EventSet.Ordered (db.query engine filter) :=
  EventSet.ordered_collect (valid.query_different engine filter)

theorem Valid.mem_query (valid : db.Valid) : event ∈ db.query engine filter ↔
    ∃ row ∈ db.answered engine filter, row.toEvent = some event := by
  have member := EventSet.mem_collect (valid.query_different engine filter) event
  rwa [List.mem_filterMap] at member

theorem Valid.answersNaively_iff (valid : db.Valid) (filter : Filter) :
    db.AnswersNaively filter ↔
      ∀ engine, db.query engine filter = (db.matching filter).take (queryLimit filter) := by
  constructor
  · intro answers engine
    obtain ⟨found, ordered, members, answer⟩ := answers engine
    have same : found = db.matching filter :=
      ordered.eq_of_mem (valid.ordered_matching filter) fun event => by
        rw [members, valid.mem_matching]
    rw [answer, same]
  · intro answers engine
    exact ⟨_, valid.ordered_matching filter, fun _ => valid.mem_matching, answers engine⟩

/-- Rows stand for the events of the answer one for one. -/
theorem Valid.query_eq_iff (valid : db.Valid) {expected : List Event}
    (ordered : EventSet.Ordered expected) (stored : ∀ event ∈ expected, db.Stored event) :
    db.query engine filter = expected ↔
      ∀ row, row ∈ db.answered engine filter ↔ row ∈ expected.map rowOf := by
  have within : ∀ row ∈ db.answered engine filter, row ∈ db.events.values := fun row member =>
    (mem_selected.mp (answered_subset db engine filter row member)).1.1
  constructor
  · intro answer row
    subst answer
    rw [List.mem_map]
    constructor
    · intro member
      have checked := valid.checked_of_mem (within row member)
      obtain ⟨event, same⟩ := checked.exists_toEvent
      exact ⟨event, valid.mem_query.mpr ⟨row, member, same⟩, checked.rowOf_toEvent same⟩
    · rintro ⟨event, member, rfl⟩
      obtain ⟨row, member, same⟩ := valid.mem_query.mp member
      rwa [(valid.checked_of_mem (within row member)).rowOf_toEvent same]
  · intro rows
    apply (valid.ordered_query engine filter).eq_of_mem ordered
    intro event
    rw [valid.mem_query]
    constructor
    · rintro ⟨row, member, same⟩
      obtain ⟨other, expected_member, other_row⟩ := List.mem_map.mp ((rows row).mp member)
      have other_same := (valid.stored_row (stored other expected_member)).2
      rw [other_row, same] at other_same
      exact Option.some.inj other_same ▸ expected_member
    · intro member
      exact ⟨rowOf event, (rows _).mpr (List.mem_map_of_mem member),
        (valid.stored_row (stored event member)).2⟩

/-! ## The condition -/

/-- The limit in force cuts between events created at different times, if it
cuts at all; one that does not fit a signed number is none. -/
def LimitCutsCleanly (db : Database) (filter : Filter) : Prop :=
  (db.matching filter).length ≤ queryLimit filter ∨
    queryLimit filter < 2 ^ 63 ∧
      CutsCleanly Event.createdAt (db.matching filter) (queryLimit filter)

/-- Times fit a signed number and every tag is asked for with a value. -/
structure Expressible (filter : Filter) : Prop where
  since : ∀ since, filter.since = some since → since.toNat < 2 ^ 63
  until_ : ∀ until_, filter.until_ = some until_ → until_.toNat < 2 ^ 63
  tags : ∀ name values, filter.genericTags.get? name = some values → values.isEmpty = false

theorem Expressible.asks_iff (expressible : Expressible filter) (event : Event) :
    Asks filter event ↔ filter.matchEvent event { nip50 := false } = true := by
  rw [Database.asks_iff, matchEvent_iff]
  constructor
  · rintro ⟨ids, authors, kinds, since, until_, tags, _⟩
    refine ⟨ids, authors, kinds, fun time given => since time given (expressible.since time given),
      fun time given => (until_ time given).2, fun name values given => ?_⟩
    exact tags name values given (expressible.tags name values given)
  · rintro ⟨ids, authors, kinds, since, until_, tags⟩
    refine ⟨ids, authors, kinds, fun time given _ => since time given,
      fun time given => ⟨expressible.until_ time given, until_ time given⟩,
      fun name values given _ => tags name values given, fun asked untagged => ?_⟩
    cases entries : filter.genericTags.entries with
    | nil =>
        rw [entries] at asked
        cases asked
    | cons first rest =>
        have given : filter.genericTags.get? first.1 = some first.2 := by
          rw [SortedTable.get?_eq_some, entries]
          exact List.mem_cons_self
        obtain ⟨value, _, found⟩ := tags first.1 first.2 given
        rw [untagged] at found
        cases found

/-- A filter that is not expressible matches no event of a row, or its statement
asks for none. -/
theorem Valid.matches_or_asks (valid : db.Valid) (inexpressible : ¬ Expressible filter) :
    (∀ event, db.Stored event → ¬ filter.matchEvent event { nip50 := false } = true) ∨
      ∀ event, ¬ Asks filter event := by
  by_cases until_fits : ∀ until_, filter.until_ = some until_ → until_.toNat < 2 ^ 63
  · left
    rintro event ⟨row, member, same⟩ matched
    obtain ⟨_, _, _, since, _, tags⟩ := matchEvent_iff.mp matched
    refine inexpressible ⟨fun time given => ?_, until_fits, fun name values given => ?_⟩
    · have later := UInt64.le_iff_toNat_le.mp (since time given)
      exact lt_of_le_of_lt later (valid.createdAt_eq member same).2
    · obtain ⟨value, member, _⟩ := tags name values given
      cases entries : values.entries with
      | nil =>
          rw [SortedSet.elems, entries] at member
          cases member
      | cons first rest =>
          rw [SortedSet.isEmpty, entries]
          rfl
  · right
    intro event asks
    exact until_fits asks.until_fits

/-- What the query needs in order to answer naively: no row, or a filter that
the statement expresses and a clean cut, or nothing to find either way. -/
def AnswersWithin (db : Database) (filter : Filter) : Prop :=
  queryLimit filter = 0 ∨ Expressible filter ∧ db.LimitCutsCleanly filter ∨
    ∀ event, db.Stored event →
      ¬ filter.matchEvent event { nip50 := false } = true ∧ ¬ Asks filter event

section Limit

variable (usize : queryLimit filter < 2 ^ 64)
include usize

theorem toNat_queryLimit : (UInt64.ofNat (queryLimit filter)).toNat = queryLimit filter :=
  UInt64.toNat_ofNat_of_lt' usize

theorem answered_of_lt (small : queryLimit filter < 2 ^ 63) :
    db.answered engine filter = (engine.order.arrange
      (db.selected engine (buildFilter (withLimit filter eventsQueryLimit) .select))).take
        (queryLimit filter) := by
  have same := toNat_queryLimit usize
  rw [answered_eq, asI64_of_lt (by rw [same]; exact small), same]
  exact if_neg (not_lt.mpr (Int.natCast_nonneg _))

theorem answered_of_le (large : 2 ^ 63 ≤ queryLimit filter) :
    db.answered engine filter = engine.order.arrange
      (db.selected engine (buildFilter (withLimit filter eventsQueryLimit) .select)) := by
  have same := toNat_queryLimit usize
  rw [answered_eq]
  apply if_pos
  unfold asI64
  rw [same, if_neg (not_lt.mpr large)]
  omega

theorem answered_of_zero (zero : queryLimit filter = 0) : db.answered engine filter = [] := by
  rw [answered_of_lt usize (by rw [zero]; decide), zero, List.take_zero]

end Limit

/-! ## Where the statement asks for the matches -/

theorem Valid.nodup_rows (valid : db.Valid) (filter : Filter) :
    ((db.matching filter).map rowOf).Nodup := by
  apply List.Nodup.map_on
  · intro left left_member right right_member same
    have left_same := (valid.stored_row (valid.mem_matching.mp left_member).1).2
    have right_same := (valid.stored_row (valid.mem_matching.mp right_member).1).2
    rw [same, right_same] at left_same
    exact (Option.some.inj left_same).symm
  · exact (valid.ordered_matching filter).nodup

theorem Valid.sorted_rows (valid : db.Valid) (filter : Filter) :
    ((db.matching filter).map rowOf).Pairwise fun left right =>
      OrderDual.toDual left.createdAt ≤ OrderDual.toDual right.createdAt := by
  rw [List.pairwise_map]
  apply List.Pairwise.imp_of_mem _ (valid.ordered_matching filter)
  intro left right left_member right_member below
  have created : ∀ event ∈ db.matching filter,
      (rowOf event).createdAt = event.createdAt.toNat := fun event member => by
    obtain ⟨stored, same⟩ := valid.stored_row (valid.mem_matching.mp member).1
    exact (valid.createdAt_eq stored same).1
  have newer : right.createdAt ≤ left.createdAt := by
    cases Prod.Lex.lt_iff.mp below with
    | inl later => exact (OrderDual.toDual_lt_toDual.mp later).le
    | inr tie => exact (OrderDual.toDual_inj.mp tie.1).ge
  rw [OrderDual.toDual_le_toDual, created left left_member, created right right_member,
    Int.ofNat_le]
  exact UInt64.le_iff_toNat_le.mp newer

theorem Valid.query_eq_take_iff (valid : db.Valid) :
    db.query engine filter = (db.matching filter).take (queryLimit filter) ↔
      ∀ row, row ∈ db.answered engine filter ↔
        row ∈ ((db.matching filter).map rowOf).take (queryLimit filter) := by
  rw [← List.map_take]
  apply valid.query_eq_iff ((valid.ordered_matching filter).sublist (List.take_sublist _ _))
  intro event member
  exact (valid.mem_matching.mp (List.mem_of_mem_take member)).1

theorem cutsCleanly_rows (events : List Event) (count : Nat) :
    CutsCleanly (fun row : EventDb => OrderDual.toDual row.createdAt) (events.map rowOf) count ↔
      CutsCleanly Event.createdAt events count := by
  unfold CutsCleanly
  simp only [← List.map_take, ← List.map_drop, List.forall_mem_map, ne_eq, OrderDual.toDual_inj,
    rowOf, asI64_injective.eq_iff]

/-- Some engine returns the selected rows in this order. -/
theorem exists_engine (plain : Engine) {query : FilterQuery} {picked : List EventDb}
    (perm : picked.Perm (db.selected plain query))
    (sorted : picked.Pairwise fun left right =>
      OrderDual.toDual left.createdAt ≤ OrderDual.toDual right.createdAt) :
    ∃ engine : Engine, engine.order.arrange (db.selected engine query) = picked :=
  ⟨{ plain with order := .picking perm sorted }, Arrangement.arrange_picking perm sorted⟩

section Agreeing

variable (agree : ∀ event, db.Stored event →
  (Asks filter event ↔ filter.matchEvent event { nip50 := false } = true))

include agree

theorem Valid.perm_selected (valid : db.Valid) (searchless : filter.search = none) :
    (db.selected engine (buildFilter (withLimit filter eventsQueryLimit) .select)).Perm
      ((db.matching filter).map rowOf) := by
  apply (List.perm_ext_iff_of_nodup (List.nodup_dedup _) (valid.nodup_rows filter)).mpr
  intro row
  rw [List.mem_map]
  constructor
  · intro selected
    have member := (mem_selected.mp selected).1.1
    have checked := valid.checked_of_mem member
    obtain ⟨event, same⟩ := checked.exists_toEvent
    have asks := ((valid.mem_selected_iff searchless same).mp selected).2
    have stored : db.Stored event := ⟨row, member, same⟩
    exact ⟨event, valid.mem_matching.mpr ⟨stored, (agree event stored).mp asks⟩,
      checked.rowOf_toEvent same⟩
  · rintro ⟨event, member, rfl⟩
    obtain ⟨stored, matched⟩ := valid.mem_matching.mp member
    obtain ⟨row_member, same⟩ := valid.stored_row stored
    exact (valid.mem_selected_iff searchless same).mpr ⟨row_member, (agree event stored).mpr matched⟩

theorem Valid.perm_arranged (valid : db.Valid) (searchless : filter.search = none)
    (engine : Engine) : (engine.order.arrange (db.selected engine
      (buildFilter (withLimit filter eventsQueryLimit) .select))).Perm
        ((db.matching filter).map rowOf) :=
  (engine.order.perm _).trans (valid.perm_selected agree searchless)

theorem Valid.answers_iff_of_lt (valid : db.Valid) (searchless : filter.search = none)
    (small : queryLimit filter < 2 ^ 63) (plain : Engine) :
    (∀ engine, db.query engine filter = (db.matching filter).take (queryLimit filter)) ↔
      CutsCleanly Event.createdAt (db.matching filter) (queryLimit filter) := by
  have usize : queryLimit filter < 2 ^ 64 := small.trans (by decide)
  have nodup := valid.nodup_rows filter
  have sorted := valid.sorted_rows filter
  simp only [valid.query_eq_take_iff, answered_of_lt usize small, ← cutsCleanly_rows]
  constructor
  · intro same
    by_contra unclean
    obtain ⟨picked, perm, picked_sorted, row, taken, untaken⟩ :=
      exists_other_cut sorted nodup unclean
    obtain ⟨engine, arranged⟩ := exists_engine plain
      (perm.trans (valid.perm_selected agree searchless).symm) picked_sorted
    have member := same engine row
    rw [arranged] at member
    exact untaken (member.mp taken)
  · intro clean engine row
    exact clean.mem_take sorted nodup (valid.perm_arranged agree searchless engine)
      (engine.order.sorted _) row

theorem Valid.answers_iff_of_le (valid : db.Valid) (searchless : filter.search = none)
    (usize : queryLimit filter < 2 ^ 64) (large : 2 ^ 63 ≤ queryLimit filter) (plain : Engine) :
    (∀ engine, db.query engine filter = (db.matching filter).take (queryLimit filter)) ↔
      (db.matching filter).length ≤ queryLimit filter := by
  simp only [valid.query_eq_take_iff, answered_of_le usize large,
    (valid.perm_arranged agree searchless _).mem_iff]
  constructor
  · intro same
    have subset : (db.matching filter).map rowOf ⊆
        ((db.matching filter).map rowOf).take (queryLimit filter) :=
      fun row member => (same plain row).mp member
    have fewer := (List.subperm_of_subset (valid.nodup_rows filter) subset).length_le
    rw [List.length_take, List.length_map] at fewer
    exact fewer.trans (min_le_left _ _)
  · intro within engine row
    rw [List.take_of_length_le (by rwa [List.length_map])]

/-- The engine may put the rows of one time in any order, so every engine answers
naively if and only if no such order can be seen. -/
theorem Valid.answers_iff_cutsCleanly (valid : db.Valid) (searchless : filter.search = none)
    (usize : queryLimit filter < 2 ^ 64) (plain : Engine) :
    (∀ engine, db.query engine filter = (db.matching filter).take (queryLimit filter)) ↔
      db.LimitCutsCleanly filter := by
  unfold LimitCutsCleanly
  by_cases small : queryLimit filter < 2 ^ 63
  · rw [valid.answers_iff_of_lt agree searchless small plain]
    constructor
    · exact fun clean => .inr ⟨small, clean⟩
    · intro clean
      cases clean with
      | inl within => exact .of_length_le within
      | inr clean => exact clean.2
  · rw [valid.answers_iff_of_le agree searchless usize (not_lt.mp small) plain]
    simp only [small, false_and, or_false]

end Agreeing

/-! ## Where one of the two finds nothing -/

theorem Valid.matching_eq_nil_iff (valid : db.Valid) : db.matching filter = [] ↔
    ∀ event, db.Stored event → ¬ filter.matchEvent event { nip50 := false } = true := by
  simp only [List.eq_nil_iff_forall_not_mem, valid.mem_matching, not_and]

theorem Valid.selected_eq_nil_iff (valid : db.Valid) (searchless : filter.search = none) :
    db.selected engine (buildFilter (withLimit filter eventsQueryLimit) .select) = [] ↔
      ∀ event, db.Stored event → ¬ Asks filter event := by
  rw [List.eq_nil_iff_forall_not_mem]
  constructor
  · rintro empty event ⟨row, member, same⟩ asks
    exact empty row ((valid.mem_selected_iff searchless same).mpr ⟨member, asks⟩)
  · intro unasked row selected
    have member := (mem_selected.mp selected).1.1
    obtain ⟨event, same⟩ := (valid.checked_of_mem member).exists_toEvent
    exact unasked event ⟨row, member, same⟩
      ((valid.mem_selected_iff searchless same).mp selected).2

theorem Valid.query_eq_nil_iff (valid : db.Valid) :
    db.query engine filter = [] ↔ db.answered engine filter = [] := by
  rw [valid.query_eq_iff .nil (by simp), List.eq_nil_iff_forall_not_mem]
  simp

theorem answered_eq_nil_iff (usize : queryLimit filter < 2 ^ 64)
    (positive : queryLimit filter ≠ 0) : db.answered engine filter = [] ↔
      db.selected engine (buildFilter (withLimit filter eventsQueryLimit) .select) = [] := by
  have arranged : engine.order.arrange (db.selected engine
      (buildFilter (withLimit filter eventsQueryLimit) .select)) = [] ↔
        db.selected engine (buildFilter (withLimit filter eventsQueryLimit) .select) = [] := by
    rw [← List.length_eq_zero_iff, (engine.order.perm _).length_eq, List.length_eq_zero_iff]
  by_cases small : queryLimit filter < 2 ^ 63
  · rw [answered_of_lt usize small, List.take_eq_nil_iff, or_iff_right positive, arranged]
  · rw [answered_of_le usize (not_lt.mp small), arranged]

/-- If there is a row to take, a query finds nothing where the statement asks for
nothing that is stored. -/
theorem Valid.query_eq_nil_iff_unasked (valid : db.Valid) (searchless : filter.search = none)
    (usize : queryLimit filter < 2 ^ 64) (positive : queryLimit filter ≠ 0) :
    db.query engine filter = [] ↔ ∀ event, db.Stored event → ¬ Asks filter event := by
  rw [valid.query_eq_nil_iff, answered_eq_nil_iff usize positive,
    valid.selected_eq_nil_iff searchless]

theorem Valid.answers_iff_of_inexpressible (valid : db.Valid) (searchless : filter.search = none)
    (usize : queryLimit filter < 2 ^ 64) (positive : queryLimit filter ≠ 0)
    (inexpressible : ¬ Expressible filter) :
    (∀ engine, db.query engine filter = (db.matching filter).take (queryLimit filter)) ↔
      ∀ event, db.Stored event →
        ¬ filter.matchEvent event { nip50 := false } = true ∧ ¬ Asks filter event := by
  have finds_nothing : ∀ engine, db.query engine filter = [] ↔
      ∀ event, db.Stored event → ¬ Asks filter event := fun _ =>
    valid.query_eq_nil_iff_unasked searchless usize positive
  cases valid.matches_or_asks inexpressible with
  | inl unmatched =>
      rw [valid.matching_eq_nil_iff.mpr unmatched, List.take_nil]
      constructor
      · intro answers event stored
        exact ⟨unmatched event stored, (finds_nothing .plain).mp (answers .plain) event stored⟩
      · intro nothing engine
        exact (finds_nothing engine).mpr fun event stored => (nothing event stored).2
  | inr unasked =>
      have empty : ∀ engine, db.query engine filter = [] := fun engine =>
        (finds_nothing engine).mpr fun event _ => unasked event
      constructor
      · intro answers event stored
        have none_taken := (empty .plain).symm.trans (answers .plain)
        have none_matching := (List.take_eq_nil_iff.mp none_taken.symm).resolve_left positive
        exact ⟨valid.matching_eq_nil_iff.mp none_matching event stored, unasked event⟩
      · intro nothing engine
        have none_matching := valid.matching_eq_nil_iff.mpr fun event stored =>
          (nothing event stored).1
        rw [empty engine, none_matching, List.take_nil]

theorem Valid.answersNaively_iff_within (valid : db.Valid) (searchless : filter.search = none)
    (usize : queryLimit filter < 2 ^ 64) : db.AnswersNaively filter ↔ db.AnswersWithin filter := by
  rw [valid.answersNaively_iff]
  unfold AnswersWithin
  by_cases zero : queryLimit filter = 0
  · have nothing : ∀ engine, db.query engine filter = [] := fun engine =>
      valid.query_eq_nil_iff.mpr (answered_of_zero usize zero)
    simp only [zero, List.take_zero, nothing, implies_true, true_or]
  · rw [or_iff_right zero]
    by_cases expressible : Expressible filter
    · have agree := fun event (_ : db.Stored event) => expressible.asks_iff event
      rw [valid.answers_iff_cutsCleanly agree searchless usize .plain]
      constructor
      · exact fun clean => .inl ⟨expressible, clean⟩
      · intro fits
        cases fits with
        | inl clean => exact clean.2
        | inr nothing =>
            have none_matching := valid.matching_eq_nil_iff.mpr fun event stored =>
              (nothing event stored).1
            left
            rw [none_matching]
            exact Nat.zero_le _
    · rw [valid.answers_iff_of_inexpressible searchless usize zero expressible]
      simp only [expressible, false_and, false_or]

/-- In every reachable state and for every filter without a search, the query
answers naively on exactly this condition. -/
theorem run_answersNaively_iff (externals : Externals) (options : NostrSqliteOptions)
    (operations : List (Engine × Operation)) (filter : Filter)
    (searchless : filter.search = none)
    (usize : ∀ limit, filter.limit = some limit → limit < 2 ^ 64) :
    (run externals options operations).AnswersNaively filter ↔
      (run externals options operations).AnswersWithin filter := by
  apply (run_valid externals options operations).answersNaively_iff_within searchless
  unfold queryLimit
  cases limited : filter.limit with
  | none => decide
  | some limit => exact usize limit limited

/-! ## A time that does not fit -/

open NostrLmdb.Lmdb (sampleExternals sampleEvent)

def sampleRun (events : List Event) : Database :=
  run sampleExternals {} (events.map fun event => (.plain, .save event))

def sampleNotes : List Event := [sampleEvent 1 10 (.custom 1) [], sampleEvent 2 20 (.custom 1) []]

theorem run_answersNaively_iff_notes :
    (sampleRun sampleNotes).AnswersNaively { limit := some 1 } := by
  apply (run_answersNaively_iff sampleExternals {}
    (sampleNotes.map fun event => (.plain, .save event)) { limit := some 1 } rfl ?_).mpr
  · refine .inr (.inl ⟨⟨?_, ?_, ?_⟩, .inr ⟨by decide, ?_⟩⟩)
    · intro since given
      cases given
    · intro until_ given
      cases given
    · intro name values given
      cases given
    · unfold CutsCleanly
      decide +kernel
  · intro limit given
    cases given
    decide

def lateFilter : Filter := { since := some 9223372036854775808 }

/-- Everything is later than the time that the cast makes negative. -/
theorem sampleRun_not_answersNaively : ¬ (sampleRun sampleNotes).AnswersNaively lateFilter := by
  intro answers
  obtain ⟨found, _, members, answer⟩ := answers .plain
  have returned : sampleEvent 1 10 (.custom 1) [] ∈ (sampleRun sampleNotes).query .plain lateFilter := by
    decide +kernel
  rw [answer] at returned
  have matched := ((members _).mp (List.mem_of_mem_take returned)).2
  revert matched
  decide +kernel

end Database

end RustNostr.NostrSqlite
