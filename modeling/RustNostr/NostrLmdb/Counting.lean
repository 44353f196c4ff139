import Mathlib
import RustNostr.NostrLmdb.QueryRuns

/-!
# Counting

A query answers as many events as its limit asks for, or all that match: this
holds of every plan, also of those that let the limit choose among the matches.
`count` reads the length of an index or of a range of it instead, when the
filter restricts nothing but the time.
-/

set_option autoImplicit false

namespace RustNostr.NostrLmdb.Lmdb

open Library BoundedScan

variable {db : Lmdb} {filter : DatabaseFilter} {limit : Option Nat}

/-! ## The intersecting plan -/

/-- A query part-way through. -/
structure Tallied (db : Lmdb) (limit : Option Nat) (initial : Timestamp) (state : QueryState)
    (seen : Set OrderingKey) : Prop where
  later : initial ≤ state.since
  faithful : db.Faithful state.output
  tally : Tally limit (sinceBound initial) (sinceBound state.since) seen (collected state.output)

theorem Tallied.scan {initial : Timestamp} {state : QueryState} {seen cell : Set OrderingKey}
    (tallied : db.Tallied limit initial state seen) {events : List DatabaseEvent}
    (listed : ∀ event ∈ events, db.Stored event ∧ event.orderingKey < sinceBound state.since)
    (distinct : ((wanted filter false events).map DatabaseEvent.orderingKey).Nodup)
    (exact : ∀ key, key ∈ (wanted filter false events).map DatabaseEvent.orderingKey ↔
      key ∈ cell ∧ key < sinceBound state.since)
    (cellInside : cell ⊆ Set.Iio (sinceBound initial)) :
    ∃ final, db.iterateFilterUntilLimit filter limit (events.map DatabaseEvent.id) state =
        .ok final ∧ state.since ≤ final.since ∧ db.Tallied limit initial final (seen ∪ cell) := by
  obtain ⟨final, scanned, faithful, bound, output⟩ := @scan_eq_advance db filter limit events
    false 0 state (fun event member => (listed event member).1)
    (fun event member => since_le_of_lt (listed event member).2) tallied.faithful
  have later : state.since ≤ final.since := by
    rw [← sinceBound_le_iff, bound]
    exact advance_le limit ceiling _ 0 _
  refine ⟨final, scanned, later, tallied.later.trans later, faithful, ?_⟩
  rw [bound, output]
  exact tallied.tally.step ceiling distinct exact cellInside

/-- The loop over the tag values, for an author and kind part that was listed
when the bound was that of `outer`. -/
theorem Tallied.forTagValues (coherent : db.Coherent) {since : Timestamp} {outer : QueryState}
    {seen : Set OrderingKey} (tallied : db.Tallied limit since outer seen) (author : PublicKey)
    (kind : UInt16) :
    ∃ final, Lmdb.forTagValues filter (fun state tagName tagValue =>
        db.iterateFilterUntilLimit filter limit (intersection
          (collectIds (db.atcIter author tagName tagValue state.since (filter.until_.getD .max)))
          (collectIds (db.akcIter author kind outer.since (filter.until_.getD .max)))) state)
        outer = .ok final ∧
      db.Tallied limit since final
        (seen ∪ {key | ∃ tag ∈ filter.genericTags.entries, ∃ tagValue ∈ tag.2.elems,
          key ∈ db.cellOf filter (sinceBound since) fun event =>
            event.pubkey = author ∧ event.kind = kind ∧ HasTagPrefix tag.1 tagValue event}) := by
  have body : ∀ (tag : SingleLetterTag × SortedSet String) (tagValue : String) state seen,
      outer.since ≤ state.since ∧ db.Tallied limit since state seen →
      ∃ final, db.iterateFilterUntilLimit filter limit (intersection
          (collectIds (db.atcIter author tag.1 tagValue state.since (filter.until_.getD .max)))
          (collectIds (db.akcIter author kind outer.since (filter.until_.getD .max)))) state =
            .ok final ∧
        outer.since ≤ final.since ∧ db.Tallied limit since final (seen ∪
          db.cellOf filter (sinceBound since) fun event =>
            event.pubkey = author ∧ event.kind = kind ∧ HasTagPrefix tag.1 tagValue event) := by
    intro tag tagValue state seen kept
    obtain ⟨later, talliedState⟩ := kept
    obtain ⟨events, ids, listed, distinct, exact, _⟩ := intersection_wanted coherent tallied.later
      author kind tag.1 tagValue (fun event wants => DatabaseFilter.le_until wants) later
    obtain ⟨next, scanned, laterNext, talliedNext⟩ :=
      talliedState.scan listed distinct exact cellOf_inside
    rw [← ids] at scanned
    exact ⟨next, scanned, later.trans laterNext, talliedNext⟩
  obtain ⟨final, folded, _, talliedFinal⟩ := foldlM_extends
    (fun tag _ => foldlM_extends fun tagValue _ => body tag tagValue) outer seen
    ⟨le_refl _, tallied⟩
  exact ⟨final, folded, talliedFinal⟩

theorem queryByAuthorsKindsAndTags_tallied (coherent : db.Coherent) (since : Timestamp)
    (byAuthor : filter.authors.isEmpty = false) (byKind : filter.kinds.isEmpty = false)
    (byTag : filter.genericTags.entries.isEmpty = false) :
    ∃ final, db.queryByAuthorsKindsAndTags filter (filter.until_.getD .max) limit
        { since, output := .empty } = .ok final ∧
      db.Tallied limit since final (db.everything filter (sinceBound since)) := by
  have start : db.Tallied limit since { since, output := .empty } ∅ := {
    later := le_refl _
    faithful := faithful_empty db
    tally := collected_empty ▸ Tally.start limit (sinceBound since) }
  obtain ⟨final, planned, tallied⟩ := foldlM_extends
    (fun author _ state seen (kept : db.Tallied limit since state seen) => foldlM_extends
      (fun kind _ outer seen (tallied : db.Tallied limit since outer seen) =>
        Tallied.forTagValues coherent tallied author kind) state seen kept) _ ∅ start
  rw [Set.empty_union, intersections_eq_everything byAuthor byKind byTag] at tallied
  exact ⟨final, planned, tallied⟩

/-! ## How many events a query answers -/

/-- These events can be answered, and if they do not reach the limit, no others
can be. -/
structure AnswersEnough (limit : Option Nat) (answers : Set OrderingKey)
    (events : List DatabaseEvent) : Prop where
  distinct : (events.map DatabaseEvent.orderingKey).Nodup
  sound : ∀ key ∈ events.map DatabaseEvent.orderingKey, key ∈ answers
  enough : Full limit {key | key ∈ events.map DatabaseEvent.orderingKey} ∨
    answers ⊆ {key | key ∈ events.map DatabaseEvent.orderingKey}

theorem Answers.answersEnough {answers : Set OrderingKey} {events : List DatabaseEvent}
    (answered : db.Answers limit answers events) : AnswersEnough limit answers events where
  distinct := answered.sorted.imp ne_of_lt
  sound := answered.sound
  enough := full_or_subset answered.settled

theorem Faithful.answersEnough {output : Output} (faithful : db.Faithful output)
    {answers : Set OrderingKey} (sound : collected output ⊆ answers)
    (enough : Full limit (collected output) ∨ answers ⊆ collected output) :
    AnswersEnough limit answers output.values := by
  have same : {key | key ∈ output.values.map DatabaseEvent.orderingKey} = collected output := by
    ext key
    exact mem_values_map_orderingKey faithful
  exact {
    distinct := by
      rw [values_map_orderingKey faithful]
      exact (List.pairwise_map.mpr output.sorted).imp ne_of_lt
    sound := fun key member => sound ((mem_values_map_orderingKey faithful).mp member)
    enough := same.symm ▸ enough }

theorem queryByIds_answersEnough (coherent : db.Coherent) (restricted : filter.ids.isEmpty = false) :
    AnswersEnough limit (db.matching filter)
      (db.queryByIds filter limit filter.ids .empty).values := by
  obtain ⟨faithful, sound, _, complete⟩ := @queryByIds_collects db filter limit coherent filter.ids
    .empty (faithful_empty db) (collected_empty ▸ Set.empty_subset _)
  refine faithful.answersEnough sound ?_
  cases complete with
  | inl stopped =>
      obtain ⟨count, limited, reached⟩ := stopped
      have keys := values_map_orderingKey faithful
      have distinct : ((db.queryByIds filter limit filter.ids .empty).entries.map
          Prod.fst).Nodup := (List.pairwise_map.mpr (SortedTable.sorted _)).imp ne_of_lt
      refine .inl ⟨((db.queryByIds filter limit filter.ids .empty).entries.map Prod.fst).take
        count, ?_, distinct.sublist (List.take_sublist _ _), fun key member => ?_⟩
      · rw [limited, List.length_take, List.length_map, min_eq_left (limited ▸ reached)]
      · exact (mem_values_map_orderingKey faithful).mp (keys ▸ List.mem_of_mem_take member)
  | inr complete =>
      refine .inr fun key member => ?_
      obtain ⟨event, stored, wants, same⟩ := member
      exact same ▸ complete event stored wants (DatabaseFilter.mem_ids wants restricted)

theorem query_answersEnough (coherent : db.Coherent) (order : HashOrder) (request : Filter) :
    ∃ events, db.query order request = .ok (takeLimit request.limit events) ∧
      AnswersEnough request.limit (db.answerable (DatabaseFilter.ofFilter order request))
        events := by
  have ofAnswers : (∀ count, request.limit = some count →
      db.LimitRespectsOrder (DatabaseFilter.ofFilter order request) count) →
      ∃ events, db.query order request = .ok (takeLimit request.limit events) ∧
        AnswersEnough request.limit (db.answerable (DatabaseFilter.ofFilter order request))
          events := by
    intro exact
    obtain ⟨events, queried, answers⟩ := query_answers coherent order request exact
    exact ⟨events, queried, answers.answersEnough⟩
  cases inOrder : sinceAfterUntil request with
  | true =>
      refine ofAnswers fun count _ => .inr (.inl ?_)
      have none : db.events.values.filter (DatabaseFilter.ofFilter order request).matchEvent = [] :=
        List.filter_eq_nil_iff.mpr fun event _ => no_match_outside inOrder event
      rw [none]
      exact Nat.zero_le count
  | false =>
      have restricted := fromFilter_restricts (DatabaseFilter.ofFilter order request)
      cases pattern : QueryFilterPattern.fromFilter (DatabaseFilter.ofFilter order request) with
      | ids =>
          rw [pattern] at restricted
          refine ⟨_, query_of_ids pattern inOrder, ?_⟩
          rw [answerable, pattern]
          exact queryByIds_answersEnough coherent restricted
      | authorKindsAndTags =>
          rw [pattern] at restricted
          obtain ⟨byAuthor, byKind, byTag⟩ := restricted
          obtain ⟨final, planned, tallied⟩ := @queryByAuthorsKindsAndTags_tallied db _ request.limit
            coherent (request.since.getD .min) byAuthor byKind byTag
          refine ⟨final.output.values, ?_, ?_⟩
          · unfold query
            rw [inOrder, if_neg Bool.false_ne_true]
            dsimp only
            rw [pattern]
            dsimp only
            rw [show request.until_ = (DatabaseFilter.ofFilter order request).until_ from rfl,
              planned]
            rfl
          · rw [answerable, pattern]
            exact tallied.faithful.answersEnough tallied.tally.sound
              (tallied.tally.enough.imp_right And.right)
      | authorsAndKinds | authorsAndTags | kindsAndTags | tags | authors | kinds | scraping =>
          refine ofAnswers fun count _ => .inr (.inr ?_)
          rw [pattern]
          trivial

/-- How many of these the limit leaves. -/
def capped (limit : Option Nat) (total : Nat) : Nat :=
  match limit with
  | some limit => min total limit
  | none => total

theorem length_takeLimit {α : Type} (limit : Option Nat) (items : List α) :
    (takeLimit limit items).length = capped limit items.length := by
  cases limit with
  | none => rfl
  | some limit => rw [takeLimit, capped, List.length_take, min_comm]

/-- A query with a limit answers as many events as its limit leaves of those
without it, in whatever order the hash sets are read. -/
theorem query_length (coherent : db.Coherent) (order order' : HashOrder) (request : Filter) :
    ∃ all events, db.query order' { request with limit := none } = .ok all ∧
      db.query order request = .ok events ∧ events.length = capped request.limit all.length := by
  obtain ⟨all, unlimited, allEnough⟩ :=
    query_answersEnough coherent order' { request with limit := none }
  obtain ⟨events, queried, enough⟩ := query_answersEnough coherent order request
  refine ⟨all, takeLimit request.limit events, unlimited, queried, ?_⟩
  have complete : db.answerable (DatabaseFilter.ofFilter order request) ⊆
      {key | key ∈ all.map DatabaseEvent.orderingKey} := by
    rw [answerable_ofFilter db order order' request]
    cases allEnough.enough with
    | inl full =>
        obtain ⟨front, limited, _⟩ := full
        cases limited
    | inr complete => exact complete
  have allSound : {key | key ∈ all.map DatabaseEvent.orderingKey} ⊆
      db.answerable (DatabaseFilter.ofFilter order request) := fun key member => by
    rw [answerable_ofFilter db order order' request]
    exact allEnough.sound key member
  have counted := length_of_full_or_subset enough.distinct allEnough.distinct
    (fun key member => complete (enough.sound key member))
    (enough.enough.imp_right allSound.trans)
  rw [length_takeLimit]
  rw [List.length_map, List.length_map] at counted
  cases counted with
  | inl reached =>
      obtain ⟨count, limited, long, allLong⟩ := reached
      rw [limited, capped, capped, min_eq_right long, min_eq_right allLong]
  | inr same => rw [same]

/-! ## Counting without loading events -/

/-- Every stored event has one entry in the index by time. -/
theorem length_ciIndex (coherent : db.Coherent) : db.ciIndex.len = db.events.len := by
  have distinct : db.events.values.Nodup :=
    (values_sorted_by_id coherent).imp fun less same => absurd less (by simp [same])
  have rows : (db.events.values.map fun event =>
      (makeCiIndexKey event.createdAt event.id, event.id)).Perm db.ciIndex.entries := by
    refine (List.perm_ext_iff_of_nodup ?_ (SortedTable.entries_nodup _)).mpr fun entry => ?_
    · refine distinct.map_on fun left leftMember right rightMember same => ?_
      have leftStored := (mem_values_iff coherent).mp leftMember
      exact leftStored.unique ((mem_values_iff coherent).mp rightMember) (congrArg Prod.snd same)
    · rw [List.mem_map, ← SortedTable.get?_eq_some, coherent.indexed.ci entry.1 entry.2]
      constructor
      · intro found
        obtain ⟨event, member, same⟩ := found
        subst same
        exact ⟨event, (mem_values_iff coherent).mp member, List.mem_cons_self, rfl⟩
      · intro found
        obtain ⟨event, stored, owns, identity⟩ := found
        refine ⟨event, (mem_values_iff coherent).mpr stored, ?_⟩
        rw [Prod.ext_iff]
        exact ⟨(List.mem_singleton.mp owns).symm, identity⟩
  have same := rows.length_eq
  rw [List.length_map, SortedTable.values, List.length_map] at same
  exact same.symm

/-- A filter that can be counted fast restricts nothing but the time. -/
theorem matchEvent_of_canFastCount {order : HashOrder} {request : Filter}
    (fast : canFastCount request = true) {event : DatabaseEvent}
    (late : request.since.getD .min ≤ event.createdAt)
    (early : event.createdAt ≤ request.until_.getD .max) :
    (DatabaseFilter.ofFilter order request).matchEvent event = true := by
  simp only [canFastCount, Bool.and_eq_true, Option.isNone_iff_eq_none, List.isEmpty_iff] at fast
  obtain ⟨⟨⟨⟨ids, authors⟩, kinds⟩, search⟩, tags⟩ := fast
  have nothing {α : Type} : order.arrange ([] : List α) = [] := (order.perm []).eq_nil
  refine DatabaseFilter.matchEvent_iff.mpr ⟨?_, ?_, ?_, ?_, ?_, ?_, ?_⟩
  · simp [DatabaseFilter.idsMatch, DatabaseFilter.ofFilter, ids, nothing]
  · simp [DatabaseFilter.authorsMatch, DatabaseFilter.ofFilter, authors, nothing]
  · simp [DatabaseFilter.kindMatch, DatabaseFilter.ofFilter, kinds, nothing]
  · cases since : request.since with
    | none => simp [DatabaseFilter.ofFilter, since]
    | some time => simpa [DatabaseFilter.ofFilter, since] using late
  · cases until_ : request.until_ with
    | none => simp [DatabaseFilter.ofFilter, until_]
    | some time => simpa [DatabaseFilter.ofFilter, until_] using early
  · simp [DatabaseFilter.tagMatch, DatabaseFilter.ofFilter, tags]
  · simp [DatabaseFilter.searchMatch, DatabaseFilter.ofFilter, search]

theorem fromFilter_of_canFastCount {order : HashOrder} {request : Filter}
    (fast : canFastCount request = true) :
    QueryFilterPattern.fromFilter (DatabaseFilter.ofFilter order request) = .scraping := by
  simp only [canFastCount, Bool.and_eq_true, Option.isNone_iff_eq_none, List.isEmpty_iff] at fast
  obtain ⟨⟨⟨⟨ids, authors⟩, kinds⟩, _⟩, tags⟩ := fast
  have nothing {α : Type} : order.arrange ([] : List α) = [] := (order.perm []).eq_nil
  simp [QueryFilterPattern.fromFilter, DatabaseFilter.ofFilter, ids, authors, kinds, tags, nothing]

/-- Such a filter is answered with the events of the index range. -/
theorem query_of_canFastCount (coherent : db.Coherent) (order : HashOrder) {request : Filter}
    (fast : canFastCount request = true) :
    ∃ events, db.query order request = .ok events ∧ events.length =
      (takeLimit request.limit
        (db.ciIter (request.since.getD .min) (request.until_.getD .max))).length := by
  obtain ⟨events, listed, _⟩ :=
    ciIter_lists coherent (request.since.getD .min) (request.until_.getD .max)
  rw [length_takeLimit, listed.ids_eq, List.length_map]
  cases inOrder : sinceAfterUntil request with
  | true =>
      have none : events = [] := by
        refine List.eq_nil_iff_forall_not_mem.mpr fun event member => ?_
        obtain ⟨_, _, early, below⟩ := (listed.mem event).mp member
        exact @no_match_outside order request inOrder event
          (matchEvent_of_canFastCount fast (since_le_of_lt below) early)
      refine ⟨[], ?_, ?_⟩
      · rw [query, inOrder, if_pos rfl]
      · rw [none]
        cases request.limit with
        | none => rfl
        | some limit => exact (Nat.zero_min limit).symm
  | false =>
      refine ⟨takeLimit request.limit events, ?_, length_takeLimit _ _⟩
      have all : events.filter (DatabaseFilter.ofFilter order request).matchEvent = events := by
        refine List.filter_eq_self.mpr fun event member => ?_
        obtain ⟨_, _, early, below⟩ := (listed.mem event).mp member
        exact matchEvent_of_canFastCount fast (since_le_of_lt below) early
      unfold query
      rw [inOrder, if_neg Bool.false_ne_true]
      dsimp only
      rw [fromFilter_of_canFastCount fast]
      dsimp only
      rw [queryByScraping, listed.ids_eq,
        filterMap_getEventById fun event member => ((listed.mem event).mp member).1, all]

/-- The one event that no range from the start of time reaches. -/
def IsBeyondRange (event : DatabaseEvent) : Prop :=
  event.createdAt = .min ∧ event.id = eventIdAll255

theorem inRange_iff {event : DatabaseEvent} : InRange event ↔ ¬ IsBeyondRange event := by
  have atLeast := Timestamp.min_le event.createdAt
  have atMost : event.id ≤ eventIdAll255 := FixedBytes.le_replicate_max event.id
  rw [InRange, orderingKey_lt_sinceBound, IsBeyondRange, not_and]
  constructor
  · intro within start last
    cases within with
    | inl later => exact absurd later (by rw [start]; exact lt_irrefl _)
    | inr first => exact absurd first.2 (by rw [last]; exact lt_irrefl _)
  · intro beyond
    cases lt_or_eq_of_le atLeast with
    | inl later => exact .inl later
    | inr start => exact .inr ⟨start.symm, lt_of_le_of_ne atMost (beyond start.symm)⟩

/-- The range over all times leaves out the event beyond it, if that is stored. -/
theorem length_ciIter (coherent : db.Coherent) :
    (∀ event, db.Stored event → ¬ IsBeyondRange event) ∧
        (db.ciIter .min .max).length = db.events.len ∨
      (∃ event, db.Stored event ∧ IsBeyondRange event) ∧
        (db.ciIter .min .max).length + 1 = db.events.len := by
  obtain ⟨events, listed, sorted⟩ := ciIter_lists coherent .min .max
  have members : ∀ event, event ∈ events ↔ db.Stored event ∧ ¬ IsBeyondRange event := by
    intro event
    rw [listed.mem event, ← inRange_iff]
    constructor
    · intro found
      obtain ⟨stored, _, _, below⟩ := found
      exact ⟨stored, below⟩
    · intro found
      exact ⟨found.1, trivial, Timestamp.le_max _, found.2⟩
  have distinct : events.Nodup := sorted.imp fun less same => absurd less (by simp [same])
  have allDistinct : db.events.values.Nodup :=
    (values_sorted_by_id coherent).imp fun less same => absurd less (by simp [same])
  have length : db.events.values.length = db.events.len := List.length_map _
  rw [listed.ids_eq, List.length_map, ← length]
  by_cases beyond : ∃ event, db.Stored event ∧ IsBeyondRange event
  · refine .inr ⟨beyond, ?_⟩
    obtain ⟨last, lastStored, lastBeyond⟩ := beyond
    have absent : last ∉ events := fun member => ((members last).mp member).2 lastBeyond
    have perm : (last :: events).Perm db.events.values := by
      refine (List.perm_ext_iff_of_nodup (List.nodup_cons.mpr ⟨absent, distinct⟩)
        allDistinct).mpr fun event => ?_
      rw [List.mem_cons, members, mem_values_iff coherent]
      constructor
      · intro found
        cases found with
        | inl same => exact same ▸ lastStored
        | inr found => exact found.1
      · intro stored
        by_cases beyond : IsBeyondRange event
        · exact .inl (stored.unique lastStored (beyond.2.trans lastBeyond.2.symm))
        · exact .inr ⟨stored, beyond⟩
    exact perm.length_eq
  · have none : ∀ event, db.Stored event → ¬ IsBeyondRange event :=
      fun event stored found => beyond ⟨event, stored, found⟩
    refine .inl ⟨none, ?_⟩
    refine ((List.perm_ext_iff_of_nodup distinct allDistinct).mpr fun event => ?_).length_eq
    rw [members, mem_values_iff coherent]
    exact ⟨And.left, fun stored => ⟨stored, none event stored⟩⟩

/-! ## Counts and queries -/

/-- The filter restricts nothing, its limit leaves room for every stored event,
and one of these is beyond the range that a query scans. -/
def CountsBeyondRange (db : Lmdb) (request : Filter) : Prop :=
  canFastCount request = true ∧ request.since = none ∧ request.until_ = none ∧
    (∀ limit, request.limit = some limit → db.events.len ≤ limit) ∧
    ∃ event, db.Stored event ∧ IsBeyondRange event

/-- `count` and `query` agree, in whatever orders they read the hash sets. -/
def CountsAnswers (db : Lmdb) (request : Filter) : Prop :=
  ∀ order order', ∃ events, db.query order' request = .ok events ∧
    db.count order request = .ok events.length

theorem countsAnswers_of_not_canFastCount (coherent : db.Coherent) {request : Filter}
    (slow : canFastCount request = false) : db.CountsAnswers request := by
  intro order order'
  obtain ⟨all, events, unlimited, queried, length⟩ := query_length coherent order' .id request
  obtain ⟨all', counted, unlimited', queried', length'⟩ :=
    query_length coherent order .id request
  obtain rfl : all = all' := Except.ok.inj (unlimited.symm.trans unlimited')
  refine ⟨events, queried, ?_⟩
  rw [count, slow, queried', length, ← length']
  rfl

theorem countsAnswers_of_timed (coherent : db.Coherent) {request : Filter}
    (fast : canFastCount request = true)
    (timed : (request.since.isNone && request.until_.isNone) = false) :
    db.CountsAnswers request := by
  intro order order'
  obtain ⟨events, queried, length⟩ := query_of_canFastCount coherent order' fast
  refine ⟨events, queried, ?_⟩
  rw [count, fast, timed, length]
  rfl

/-- Without any restriction a query is as long as the index range, and the count
goes by the length of the index. -/
theorem countsAnswers_unrestricted_iff (coherent : db.Coherent) {request : Filter}
    (fast : canFastCount request = true) (noSince : request.since = none)
    (noUntil : request.until_ = none) :
    db.CountsAnswers request ↔ capped request.limit (db.ciIter .min .max).length =
      capped request.limit db.events.len := by
  have counted : ∀ order, db.count order request = .ok (capped request.limit db.events.len) := by
    intro order
    rw [count, fast, noSince, noUntil, length_ciIndex coherent]
    rfl
  have queried : ∀ order, ∃ events, db.query order request = .ok events ∧
      events.length = capped request.limit (db.ciIter .min .max).length := by
    intro order
    obtain ⟨events, queried, length⟩ := query_of_canFastCount coherent order fast
    rw [noSince, noUntil, length_takeLimit] at length
    exact ⟨events, queried, length⟩
  constructor
  · intro counts
    obtain ⟨events, answered, same⟩ := counts .id .id
    obtain ⟨events', answered', length⟩ := queried .id
    obtain rfl : events = events' := Except.ok.inj (answered.symm.trans answered')
    exact length.symm.trans (Except.ok.inj (same.symm.trans (counted .id)))
  · intro same order order'
    obtain ⟨events, answered, length⟩ := queried order'
    exact ⟨events, answered, by rw [counted order, length, same]⟩

/-- Only a limit that is already reached hides one event more. -/
theorem capped_succ_iff {limit : Option Nat} {total : Nat} :
    capped limit total = capped limit (total + 1) ↔
      ¬ ∀ count, limit = some count → total + 1 ≤ count := by
  cases limit with
  | none => simp [capped]
  | some limit =>
      simp only [capped, Option.some.injEq, forall_eq']
      omega

theorem countsAnswers_iff (coherent : db.Coherent) (request : Filter) :
    db.CountsAnswers request ↔ ¬ db.CountsBeyondRange request := by
  cases fast : canFastCount request with
  | false =>
      refine iff_of_true (countsAnswers_of_not_canFastCount coherent fast) fun beyond => ?_
      exact Bool.false_ne_true (fast.symm.trans beyond.1)
  | true =>
      cases timed : request.since.isNone && request.until_.isNone with
      | false =>
          refine iff_of_true (countsAnswers_of_timed coherent fast timed) fun beyond => ?_
          obtain ⟨_, noSince, noUntil, _⟩ := beyond
          rw [noSince, noUntil] at timed
          cases timed
      | true =>
          simp only [Bool.and_eq_true, Option.isNone_iff_eq_none] at timed
          rw [countsAnswers_unrestricted_iff coherent fast timed.1 timed.2]
          cases length_ciIter coherent with
          | inl all =>
              obtain ⟨none, length⟩ := all
              refine iff_of_true (by rw [length]) fun beyond => ?_
              obtain ⟨_, _, _, _, event, stored, isBeyond⟩ := beyond
              exact none event stored isBeyond
          | inr missing =>
              obtain ⟨beyond, length⟩ := missing
              rw [← length, capped_succ_iff, length, CountsBeyondRange]
              simp only [fast, timed, beyond, true_and, and_true]

theorem run_countsAnswers_iff (externals : Externals) (options : LmdbOptions)
    (operations : List (HashOrder × IngesterOperation)) (request : Filter) :
    (run externals options operations).CountsAnswers request ↔
      ¬ (run externals options operations).CountsBeyondRange request :=
  countsAnswers_iff (run_coherent externals options operations) request

theorem sampleStore_not_countsAnswers : ¬ ∀ externals options operations request,
    (run externals options operations).CountsAnswers request := by
  intro counts
  obtain ⟨events, queried, counted⟩ := counts sampleExternals {}
    [(.id, .saveEvent (sampleEvent 255 0 (.custom 1) []))] {} .id .id
  have none : (sampleStore [sampleEvent 255 0 (.custom 1) []]).query .id {} = .ok [] := by
    decide +kernel
  have one : (sampleStore [sampleEvent 255 0 (.custom 1) []]).count .id {} = .ok 1 := by
    decide +kernel
  obtain rfl : [] = events := Except.ok.inj (none.symm.trans queried)
  exact absurd (Except.ok.inj (one.symm.trans counted)) Nat.one_ne_zero

end RustNostr.NostrLmdb.Lmdb
